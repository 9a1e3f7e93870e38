import PortalScript.Fragment.Scan
import PortalScript.ParseError
import PortalScript.Table
import PortalScript.Text.Alphanumeric

/-! # Parameter lists

A list is `[key: value, ...]`. A value stands between quotes, where commas and brackets are text, or
runs bare up to the next comma or closing bracket and is trimmed; a comma may end the list. Values
stay fragments. `scan` reads a list at the start of a fragment and answers what is left as well,
also after a refusal. -/

namespace PortalScript

/-- Values by parameter name. A repeated name keeps its first place and takes the last value. -/
abbrev Params := Table Fragment

namespace Params

def isKeyChar (c : Char) : Bool := Text.isAlphanumeric c || c = '_'

/-- Whether a glyph belongs to a parameter name: written, and of a name's characters. -/
def isKeyGlyph (g : Glyph) : Bool := !g.resolved && isKeyChar g.char

/-- Whether a glyph belongs to a bare value: anything but a written comma or closing bracket. -/
def isBareGlyph (g : Glyph) : Bool := !(g.isWritten ',' || g.isWritten ']')

/-- Reads a quoted value, of which the opening quote has been read. -/
def scanQuoted (f : Fragment) : Except ParseError.Cause Fragment × Fragment :=
  match (f.dropUntil '\'').eat? '\'' with
  | none => (.error .unterminatedQuote, f.dropUntil '\'')
  | some rest =>
    let rest := rest.skipBlank
    if rest.startsAt ',' || rest.startsAt ']' || rest.isEmpty then
      (.ok (f.takeUntil '\'').quote, rest)
    else (.error .textAfterQuote, rest)

/-- Reads a bare value. One that resolved to no text is empty; one that was never there is missing. -/
def scanBare (key : String) (f : Fragment) : Except ParseError.Cause Fragment × Fragment :=
  let raw := f.takeWhile isBareGlyph
  let rest := f.dropWhile isBareGlyph
  if raw.trim.isEmpty && !raw.hasResolved then (.error (.missingValue key), rest)
  else (.ok raw.trim, rest)

/-- Reads `key: value`. -/
def scanEntry (f : Fragment) : Except ParseError.Cause (String × Fragment) × Fragment :=
  let key := f.takeWhile isKeyGlyph
  let rest := f.dropWhile isKeyGlyph
  if key.isEmpty then (.error .noKey, rest)
  else
    let rest := rest.skipBlank
    match rest.eat? ':' with
    | none => (.error (.noColon key.text), rest)
    | some rest =>
      let rest := rest.skipBlank
      let (value, rest) := match rest.eat? '\'' with
        | some rest => scanQuoted rest
        | none => scanBare key.text rest
      (value.map (key.text, ·), rest)

theorem length_scanQuoted_le (f : Fragment) : (scanQuoted f).2.length ≤ f.length := by
  have hu := f.length_dropWhile_le (!·.isWritten '\'')
  unfold scanQuoted Fragment.dropUntil
  split
  · exact hu
  · rename_i rest h
    have hb := rest.length_skipBlank_le
    have he := Fragment.length_lt_of_eat? h
    dsimp only
    split <;> (dsimp only; omega)

theorem length_scanBare_le (key : String) (f : Fragment) : (scanBare key f).2.length ≤ f.length := by
  have h := f.length_dropWhile_le isBareGlyph
  unfold scanBare
  dsimp only
  split <;> exact h

theorem length_scanEntry_le (f : Fragment) : (scanEntry f).2.length ≤ f.length := by
  have hk := f.length_dropWhile_le isKeyGlyph
  have hb := (f.dropWhile isKeyGlyph).length_skipBlank_le
  unfold scanEntry
  dsimp only
  split
  · exact hk
  · split
    · dsimp only; omega
    · rename_i rest h
      have he := Fragment.length_lt_of_eat? h
      have hs := rest.length_skipBlank_le
      split
      · rename_i rest' h'
        have he' := Fragment.length_lt_of_eat? h'
        have hq := length_scanQuoted_le rest'
        dsimp only; omega
      · have hq := length_scanBare_le (f.takeWhile isKeyGlyph).text rest.skipBlank
        dsimp only; omega

/-- Reads entries up to the closing bracket, adding them to `params`. -/
def scanEntries (params : Params) (f : Fragment) : Except ParseError.Cause Params × Fragment :=
  match f.skipBlank.eat? ']' with
  | some rest => (.ok params, rest)
  | none =>
    if f.skipBlank.isEmpty then (.error .unterminatedList, f.skipBlank)
    else
      match _he : scanEntry f.skipBlank with
      | (.error cause, rest) => (.error cause, rest)
      | (.ok (key, value), behind) =>
        match _hc : behind.skipBlank.eat? ',' with
        | some rest => scanEntries (params.insert key value) rest
        | none =>
          match behind.skipBlank.eat? ']' with
          | some rest => (.ok (params.insert key value), rest)
          | none => (.error .unterminatedList, behind.skipBlank)
termination_by f.length
decreasing_by
  have h1 := f.length_skipBlank_le
  have h2 := length_scanEntry_le f.skipBlank
  have h3 := Fragment.length_lt_of_eat? _hc
  have h4 := behind.length_skipBlank_le
  rw [_he] at h2
  dsimp only at h2
  omega

/-- Reads a parameter list at the start of a fragment. A refusal shows all that was to be read. -/
def scan (f : Fragment) : Except ParseError Params × Fragment :=
  match f.eat? '[' with
  | none => (.error ⟨.noList, f.text⟩, f)
  | some rest =>
    let (result, rest) := scanEntries ∅ rest
    (ParseError.within f.text result, rest)

/-- Reads a text that is one parameter list and nothing more, blanks around it aside. -/
def parse (text : String) : Except ParseError Params :=
  match scan (.written (Text.trim text.toList)) with
  | (.error e, _) => .error e
  | (.ok params, rest) =>
    if rest.skipBlank.isEmpty then .ok params else .error ⟨.textAfterList, text⟩

end Params

end PortalScript
