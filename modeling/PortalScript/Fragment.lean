import PortalScript.Text.Blank

/-! # Fragments: text that remembers where it came from

A `Fragment` is a run of glyphs, each either written in the script or resolved from a portal or an
override. Grammar is read off written glyphs only. Where a resolution produced no text it leaves a
gap, so that an emptied value differs from a missing one: a glyph knows whether a gap stands right
before it, and the fragment whether one stands at its end. Two gaps never stand in one place.

`append` joins fragments, and `ofText` makes the fragment of one text; `gaps` and `runs` are the
views in which a fragment is shown. -/

namespace PortalScript

/-- A character, whether it was resolved, and whether a gap stands right before it. -/
structure Glyph where
  char : Char
  resolved : Bool
  afterGap : Bool := false
deriving Repr, DecidableEq

namespace Glyph

/-- Whether the glyph is the character `c` as written in the script. -/
def isWritten (g : Glyph) (c : Char) : Bool := !g.resolved && g.char = c

def isBlank (g : Glyph) : Bool := Text.isBlank g.char

def closeGap (g : Glyph) : Glyph := { g with afterGap := false }

end Glyph

/-- Glyphs in order, and whether a gap stands behind the last one. -/
structure Fragment where
  glyphs : List Glyph := []
  gapAtEnd : Bool := false
deriving Repr, DecidableEq

namespace Fragment

instance : EmptyCollection Fragment := ⟨⟨[], false⟩⟩
instance : Inhabited Fragment := ⟨∅⟩

/-- The fragment of a text that was resolved or written as a whole. Resolving to no text leaves a
gap. -/
def ofText (text : List Char) (resolved : Bool) : Fragment :=
  ⟨text.map (⟨·, resolved, false⟩), resolved && text.isEmpty⟩

/-- The fragment of a text as written in the script. -/
def written (text : List Char) : Fragment := ofText text false

/-- One fragment behind the other. Gaps that meet become one. -/
def append (f g : Fragment) : Fragment :=
  match g.glyphs with
  | [] => ⟨f.glyphs, f.gapAtEnd || g.gapAtEnd⟩
  | a :: as => ⟨f.glyphs ++ { a with afterGap := f.gapAtEnd || a.afterGap } :: as, g.gapAtEnd⟩

instance : Append Fragment := ⟨append⟩

/-- Puts a gap before the first glyph if there is to be one. -/
def markGap (gap : Bool) : List Glyph → List Glyph
  | [] => []
  | g :: gs => { g with afterGap := gap || g.afterGap } :: gs

theorem glyphs_append (f g : Fragment) : (f ++ g).glyphs = f.glyphs ++ markGap f.gapAtEnd g.glyphs := by
  show (append f g).glyphs = _
  unfold append
  split <;> rename_i h <;> simp [h, markGap]

def length (f : Fragment) : Nat := f.glyphs.length

def isEmpty (f : Fragment) : Bool := f.glyphs.isEmpty

/-- The characters, wherever they came from. -/
def chars (f : Fragment) : List Char := f.glyphs.map (·.char)

def text (f : Fragment) : String := .ofList f.chars

def hasGap (f : Fragment) : Bool := f.gapAtEnd || f.glyphs.any (·.afterGap)

def gapAtStart (f : Fragment) : Bool :=
  match f.glyphs with
  | [] => f.gapAtEnd
  | g :: _ => g.afterGap

/-- Whether any part was resolved, to no text included. -/
def hasResolved (f : Fragment) : Bool := f.hasGap || f.glyphs.any (·.resolved)

/-- The places of the gaps, each counted in glyphs from the start: `n` is the place of the first
glyph listed. -/
def gapsFrom (n : Nat) : List Glyph → List Nat
  | [] => []
  | g :: gs => if g.afterGap then n :: gapsFrom (n + 1) gs else gapsFrom (n + 1) gs

/-- The places of the gaps in ascending order, counted in glyphs. -/
def gaps (f : Fragment) : List Nat :=
  gapsFrom 0 f.glyphs ++ if f.gapAtEnd then [f.length] else []

/-- The longest runs of glyphs of one provenance, as characters. -/
def runsOf : List Glyph → List (List Char × Bool)
  | [] => []
  | g :: gs =>
    match runsOf gs with
    | (cs, r) :: rest =>
      if r = g.resolved then (g.char :: cs, r) :: rest else ([g.char], g.resolved) :: (cs, r) :: rest
    | [] => [([g.char], g.resolved)]

def runs (f : Fragment) : List (String × Bool) := (runsOf f.glyphs).map fun (cs, r) => (.ofList cs, r)

/-- Drops the blank glyphs at the end of a run that `gapAtEnd` follows; also answers whether a gap
then stands at the end. -/
def trimEnd (gapAtEnd : Bool) : List Glyph → List Glyph × Bool
  | [] => ([], gapAtEnd)
  | g :: gs =>
    match trimEnd gapAtEnd gs with
    | ([], gap) => if g.isBlank then ([], g.afterGap) else ([g], gap)
    | (kept, gap) => (g :: kept, gap)

/-- The fragment without its leading and trailing blanks, written or resolved. A blank fragment
keeps one gap if it had any. -/
def trim (f : Fragment) : Fragment :=
  match f.glyphs.dropWhile (·.isBlank) with
  | [] => ⟨[], f.hasGap⟩
  | gs => let (kept, gap) := trimEnd f.gapAtEnd gs; ⟨kept, gap⟩

/-- Whether the glyphs start with `p`, all of it written. -/
def startsWritten : List Char → List Glyph → Bool
  | [], _ => true
  | _ :: _, [] => false
  | c :: cs, g :: gs => g.isWritten c && startsWritten cs gs

/-- Whether the fragment starts with `p` as written in the script. -/
def startsWith (f : Fragment) (p : List Char) : Bool := startsWritten p f.glyphs

def startsResolved (f : Fragment) : Bool := f.glyphs.head?.any (·.resolved)

def isQuoted (f : Fragment) : Bool :=
  2 ≤ f.length && f.glyphs.head?.any (·.isWritten '\'') && f.glyphs.getLast?.any (·.isWritten '\'')

def unquoted (f : Fragment) : String := .ofList ((f.glyphs.drop 1).dropLast.map (·.char))

/-- The fragment between two written quotes, its gaps closed. -/
def quote (f : Fragment) : Fragment :=
  ⟨⟨'\'', false, false⟩ :: (f.glyphs.map (·.closeGap) ++ [⟨'\'', false, false⟩]), false⟩

end Fragment

end PortalScript
