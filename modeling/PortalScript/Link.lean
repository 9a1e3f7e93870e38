import PortalScript.Turn.Reference
import PortalScript.Text.Alphanumeric
import PortalScript.Text.Blank

/-! # Links

A link is `$name`, which reads a session variable, or `@[alias:]AUTHOR-N[:thoughts]`, which reads a
turn of the live conversation or of the conduit mounted under the alias. `Link.parse` reads a token
and `Link.label` writes the canonical spelling. -/

namespace PortalScript

/-- A link to a turn: of the live conversation unless a conduit is named. -/
structure TurnLink where
  conduit : Option String
  target : TurnRef
  /-- Whether the link reads the thoughts of an AI turn and not its visible text. -/
  thoughts : Bool
deriving Repr, DecidableEq

inductive Link
  | session (name : String)
  | turn (link : TurnLink)
deriving Repr, DecidableEq

namespace TurnLink

/-- Whether a segment is spelled like a turn reference, which makes a second segment a specifier. -/
def startsLikeRef (segment : List Char) : Bool :=
  (Text.after? ['U', 'S', 'E', 'R', '-'] segment).isSome ||
    (Text.after? ['A', 'I', '-'] segment).isSome

/-- Reads a conduit alias: not empty and free of blanks. -/
def readAlias (name : List Char) : Except ParseError.Cause String :=
  if name.isEmpty || name.any Text.isBlank then .error (.badAlias (.ofList name))
  else .ok (.ofList name)

/-- Reads what follows the reference. `thoughts` is the only specifier, and for AI turns only. -/
def readSpecifier (author : Author) : Option (List Char) → Except ParseError.Cause Bool
  | none => .ok false
  | some s =>
    if s = ['t', 'h', 'o', 'u', 'g', 'h', 't', 's'] then
      match author with
      | .ai => .ok true
      | .user => .error .thoughtsOfUser
    else .error (.unknownSpecifier (.ofList s))

/-- Puts the segments of a turn link together, reading the alias first and the specifier last. -/
def ofSegments (conduit : Option (List Char)) (target : List Char) (specifier : Option (List Char)) :
    Except ParseError.Cause TurnLink := do
  let conduit ← match conduit with
    | none => .ok none
    | some name => (readAlias name).map some
  let target ← TurnRef.parse target
  let thoughts ← readSpecifier target.author specifier
  return ⟨conduit, target, thoughts⟩

/-- Reads what follows the `@`. -/
def read (body : List Char) : Except ParseError.Cause TurnLink :=
  match Text.splitOn ':' body with
  | [target] => ofSegments none target none
  | [first, second] =>
    if startsLikeRef first then ofSegments none first (some second)
    else ofSegments (some first) second none
  | [conduit, target, specifier] => ofSegments (some conduit) target (some specifier)
  | _ => .error .tooManySegments

/-- The canonical spelling without the `@`. -/
def label (l : TurnLink) : String :=
  (match l.conduit with
    | none => ""
    | some name => name ++ ":") ++
    l.target.label ++ if l.thoughts then ":thoughts" else ""

end TurnLink

namespace Link

def isNameChar (c : Char) : Bool := Text.isAlphanumeric c || c = '_' || c = '-' || c = '.'

def isToken (token : List Char) : Bool := token.head?.any fun c => c = '$' || c = '@'

def read : List Char → Except ParseError.Cause Link
  | '$' :: name =>
    if !name.isEmpty && name.all isNameChar then .ok (.session (.ofList name))
    else .error (.badVariableName (.ofList name))
  | '@' :: body => (TurnLink.read body).map .turn
  | _ => .error .noLinkSigil

/-- Reads a link token; a refusal shows the whole token. -/
def parse (token : String) : Except ParseError Link := ParseError.within token (read token.toList)

def label : Link → String
  | session name => "$" ++ name
  | turn l => "@" ++ l.label

end Link

end PortalScript
