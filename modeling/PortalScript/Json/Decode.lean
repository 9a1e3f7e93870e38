import PortalScript.Json.Magnitude
import PortalScript.Table

/-! # Reading values out of JSON

A record is read from an object, in which each known name may stand once and unknown names are
passed over, or from an array that lists the leading fields in order. `buffered` is the stricter
check for values that are held back before their kind is known. -/

namespace PortalScript.Json

def text? : Json → Option String
  | string text => text
  | _ => none

/-- The elements of an array, each read by `read`. -/
def listOf? {α : Type} (read : Json → Option α) : Json → Option (List α)
  | array items => items.mapM read
  | _ => none

/-- The value of a number below 2 to the 64th that is spelled with digits only. -/
def word64? : Json → Option Nat
  | number lexeme => Text.ofDigits? Text.maxWord64 lexeme.toList
  | _ => none

/-- The members of an object as a table of what `read` reads. The last value of a name wins. -/
def tableOf? {α : Type} (read : Json → Option α) : Json → Option (Table α)
  | object members => do
    let entries ← members.mapM fun (m : Option String × Json) => do
      let key ← m.1
      let value ← read m.2
      return (key, value)
    return .ofList entries
  | _ => none

/-- The names of the members, all of which must have a text. -/
def names? (members : List (Option String × Json)) : Option (List String) := members.mapM (·.1)

/-- The value of a member, the last if there are several. -/
def member? (key : String) (members : List (Option String × Json)) : Option Json :=
  (members.reverse.find? (·.1 = some key)).map (·.2)

/-- The values of a record's fields, `none` where a field is absent. -/
def fields? (known : List String) : Json → Option (List (Option Json))
  | object members => do
    let names ← names? members
    if known.all fun k => names.count k ≤ 1 then some (known.map (member? · members)) else none
  | array items =>
    if items.length ≤ known.length then
      some (items.map some ++ .replicate (known.length - items.length) none)
    else none
  | _ => none

/-- A field's value as `read` reads it, or a default where the field is absent. -/
def fieldOr? {α : Type} (default : α) (read : Json → Option α) : Option Json → Option α
  | none => some default
  | some value => read value

/-- How deep arrays and objects may be nested. -/
def depthLimit : Nat := 127

mutual

/-- Whether a value that stands inside `depth` arrays and objects can be held back: its nesting keeps
to the limit, its strings have texts and its numbers are finite. -/
def buffered (depth : Nat) : Json → Bool
  | null => true
  | bool _ => true
  | number lexeme => isFinite lexeme
  | string text => text.isSome
  | array items => depth < depthLimit && bufferedItems (depth + 1) items
  | object members => depth < depthLimit && bufferedMembers (depth + 1) members

def bufferedItems (depth : Nat) : List Json → Bool
  | [] => true
  | item :: rest => buffered depth item && bufferedItems depth rest

def bufferedMembers (depth : Nat) : List (Option String × Json) → Bool
  | [] => true
  | (key, value) :: rest => key.isSome && buffered depth value && bufferedMembers depth rest

end

end PortalScript.Json
