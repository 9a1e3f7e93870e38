import PortalScript.ParseError
import PortalScript.Text.Split
import PortalScript.Text.Numeral

/-! # References to turns

`AUTHOR-N` names the `N`-th latest turn of an author, so `USER-1` is the latest user turn. A
reference finds its turn in a history (`select`) and the turn's place there (`position`). -/

namespace PortalScript

/-- The address of a turn, counted from the latest turn of its author, the latest being 1. -/
structure TurnRef where
  author : Author
  index : Nat
deriving Repr, DecidableEq

namespace TurnRef

def label (r : TurnRef) : String := r.author.label ++ "-" ++ toString r.index

/-- The turn that the reference names. Index 0 names none. -/
def select (r : TurnRef) (history : History) : Option Turn :=
  if r.index = 0 then none
  else (history.reverse.filter (·.author = r.author))[r.index - 1]?

/-- The place in the history of the turn that the reference names. -/
def position (r : TurnRef) (history : History) : Option Nat :=
  if r.index = 0 then none
  else ((history.zipIdx.reverse.filter (·.1.author = r.author))[r.index - 1]?).map (·.2)

/-- Reads `AUTHOR-N`. The index is a run of ASCII digits that fits 32 bits. -/
def parse (text : List Char) : Except ParseError.Cause TurnRef :=
  match Text.cutAt? ['-'] text with
  | none => .error (.noAuthorIndex (.ofList text))
  | some (author, index) =>
    match Author.ofLabel? (.ofList author) with
    | none => .error (.unknownAuthor (.ofList author))
    | some author =>
      if Text.isNumeral index then
        match Text.ofDigits? Text.maxWord32 index with
        | some n => .ok ⟨author, n⟩
        | none => .error (.indexTooLarge (.ofList index))
      else .error (.indexNotNumber (.ofList index))

end TurnRef

end PortalScript
