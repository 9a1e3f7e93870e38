import PortalScript.Template
import PortalScript.Text.Alphanumeric
import PortalScript.Text.Split

/-! # Replacing tokens

`substitute` replaces the whole-token occurrences of a token in source text by resolved text: the
characters on both sides of the occurrence, if there are any, are not token characters. After a
replacement the search starts afresh, with nothing on its left. -/

namespace PortalScript.Template

/-- The characters of which tokens are made. -/
def isTokenChar (c : Char) : Bool :=
  Text.isAlphanumeric c || c = '_' || c = '-' || c = ':' || c = '@' || c = '$'

/-- Whether a token may end here: no character, or none of a token's. -/
def isBoundary (c : Option Char) : Bool := !c.any isTokenChar

/-- The parts of a text before and behind the first whole-token occurrence of `token`; `left` is the
character before the text. -/
def cutToken? (token : List Char) (left : Option Char) : List Char → Option (List Char × List Char)
  | [] => none
  | c :: cs =>
    match (Text.after? token (c :: cs)).filter fun rest => isBoundary left && isBoundary rest.head? with
    | some rest => some ([], rest)
    | none => (cutToken? token (some c) cs).map fun (before, rest) => (c :: before, rest)

theorem eq_append_of_cutToken? {token cs before rest : List Char} {left : Option Char}
    (h : cutToken? token left cs = some (before, rest)) : cs = before ++ token ++ rest := by
  induction cs generalizing before rest left with
  | nil => simp [cutToken?] at h
  | cons c cs ih =>
    simp only [cutToken?] at h
    split at h
    · rename_i r hr
      cases h
      simpa using Text.after?_eq_some_iff.1 (Option.eq_some_of_filter_eq_some hr)
    · obtain ⟨⟨b, r⟩, hb, he⟩ := Option.map_eq_some_iff.1 h
      cases he
      simp [ih hb]

/-- The pieces of a source text after replacing the token `c :: cs`, and how often it was replaced. -/
def substituteSource (c : Char) (cs replacement text : List Char) : Template × Nat :=
  match _h : cutToken? (c :: cs) none text with
  | none => ([.source text], 0)
  | some (before, rest) =>
    let (pieces, n) := substituteSource c cs replacement rest
    (.source before :: .resolved replacement :: pieces, n + 1)
termination_by text.length
decreasing_by
  rw [eq_append_of_cutToken? _h]
  simp; omega

/-- Replaces a token in the source text of a template; also answers how often. The empty token
occurs nowhere. -/
def substituteChars (token replacement : List Char) : Template → Template × Nat
  | [] => ([], 0)
  | p :: ps =>
    let (rest, n) := substituteChars token replacement ps
    match p, token with
    | .source text, c :: cs =>
      let (pieces, k) := substituteSource c cs replacement text
      (pieces ++ rest, k + n)
    | p, _ => (p :: rest, n)

/-- Replaces a token in the source text of a template; also answers how often. The empty token
occurs nowhere. -/
def substitute (token replacement : String) (t : Template) : Template × Nat :=
  substituteChars token.toList replacement.toList t

end PortalScript.Template
