import PortalScript.Json.Decode
import PortalScript.Turn.Reference

/-! # Stored turns

The JSON form of turns: an object tagged with its author, whose missing texts are empty. An array
that starts with the author and lists the texts in order reads as a turn too. -/

namespace PortalScript

namespace Turn

def toJson : Turn → Json
  | user content => .ofMembers [("author", .ofText "user"), ("content", .ofText content)]
  | ai chat thoughts =>
    .ofMembers [("author", .ofText "ai"), ("chat", .ofText chat), ("thoughts", .ofText thoughts)]

/-- Reads the fields of a turn of a known author. -/
def ofFields? (author : Author) (fields : Json) : Option Turn :=
  match author with
  | .user => do
    let [content] ← fields.fields? ["content"] | none
    return .user (← Json.fieldOr? "" Json.text? content)
  | .ai => do
    let [chat, thoughts] ← fields.fields? ["chat", "thoughts"] | none
    return .ai (← Json.fieldOr? "" Json.text? chat) (← Json.fieldOr? "" Json.text? thoughts)

/-- Reads a turn that stands inside `depth` arrays and objects. Its fields are held back until the
author is known, wherever the author stands. -/
def ofJson? (depth : Nat) : Json → Option Turn
  | .object members => do
    let names ← Json.names? members
    if names.count "author" ≠ 1 then none
    let author ← (← Json.member? "author" members).text?
    let rest := members.filter (·.1 ≠ some "author")
    if Json.bufferedMembers (depth + 1) rest then ofFields? (← Author.ofTag? author) (.object rest)
    else none
  | .array (author :: rest) => do
    let author ← author.text?
    if Json.bufferedItems (depth + 1) rest then ofFields? (← Author.ofTag? author) (.array rest)
    else none
  | _ => none

end Turn

namespace History

def toJson (h : History) : Json := .array (h.map Turn.toJson)

/-- Reads a history that stands inside `depth` arrays and objects. -/
def ofJson? (depth : Nat) (value : Json) : Option History := value.listOf? (Turn.ofJson? (depth + 1))

end History

/-- The JSON form of a turn reference. -/
def TurnRef.toJson (r : TurnRef) : Json :=
  .ofMembers [("author", .ofText r.author.tag), ("index", .ofNat r.index)]

end PortalScript
