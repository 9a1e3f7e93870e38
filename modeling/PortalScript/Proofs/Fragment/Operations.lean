import PortalScript.Proofs.Fragment.Slice

/-! # What fragments are made by

A fragment is made from the empty one by text that is put behind it, by trimming and by taking a part of
it where reading has come to. Each of these does to the layout of a fragment what `Layout.operate` does,
which counts symbols and keeps a list of the places with gaps (`layout_operate`), and it keeps layouts
proper (`Layout.Proper.operate`). So the gaps of all that is made ascend and none is behind the end, and
trimming twice is trimming once (`made_proper`). -/

namespace PortalScript

/-- Whether a symbol is the character `c` as written in the script. -/
def isWrittenSymbol (c : Char) (a : Char × Bool) : Bool := !a.2 && a.1 = c

namespace Fragment

/-- A step of reading that takes nothing. Looking at what is next is none, since it leaves the place. -/
inductive Move
  | bump
  | eat (c : Char)
  | skipBlank
  | skipWhile (p : Char × Bool → Bool)
  | skipUntil (c : Char)

/-- What is taken at the place that reading has come to. -/
inductive Part
  | takeWhile (p : Char × Bool → Bool)
  | takeUntil (c : Char)
  | rest

/-- What makes one fragment of another. A part is taken after some moves from the start. -/
inductive Operation
  | push (text : List Char) (resolved : Bool)
  | trim
  | read (moves : List Move) (part : Part)

def move (f : Fragment) : Move → Fragment
  | .bump => (f.next?.map (·.2)).getD f
  | .eat c => (f.eat? c).getD f
  | .skipBlank => f.skipBlank
  | .skipWhile p => f.dropWhile fun g => p g.symbol
  | .skipUntil c => f.dropUntil c

def take (f : Fragment) : Part → Fragment
  | .takeWhile p => f.takeWhile fun g => p g.symbol
  | .takeUntil c => f.takeUntil c
  | .rest => f

def operate (f : Fragment) : Operation → Fragment
  | .push text resolved => f ++ ofText text resolved
  | .trim => f.trim
  | .read moves part => (moves.foldl move f).take part

/-- What the operations make of the empty fragment, one after another. -/
def made (ops : List Operation) : Fragment := ops.foldl operate ∅

/-- How many of the symbols ahead a move passes over. -/
def Move.span : Move → List (Char × Bool) → Nat
  | .bump, ahead => min 1 ahead.length
  | .eat c, ahead => if ahead.head?.any (isWrittenSymbol c) then 1 else 0
  | .skipBlank, ahead => (ahead.takeWhile isBlankSymbol).length
  | .skipWhile p, ahead => (ahead.takeWhile p).length
  | .skipUntil c, ahead => (ahead.takeWhile (!isWrittenSymbol c ·)).length

/-- How many of the symbols ahead a part has. -/
def Part.span : Part → List (Char × Bool) → Nat
  | .takeWhile p, ahead => (ahead.takeWhile p).length
  | .takeUntil c, ahead => (ahead.takeWhile (!isWrittenSymbol c ·)).length
  | .rest, ahead => ahead.length

end Fragment

namespace Layout
open Fragment (Move Part Operation)

/-- The place that moves from the start come to. -/
def place (l : Layout) (moves : List Move) : Nat :=
  moves.foldl (fun n m => n + m.span (l.symbols.drop n)) 0

def operate (l : Layout) : Operation → Layout
  | .push text resolved => l.push text resolved
  | .trim => l.trim
  | .read moves part =>
    l.slice (l.place moves) (l.place moves + part.span (l.symbols.drop (l.place moves)))

/-- What the operations make of the empty layout, one after another. -/
def made (ops : List Operation) : Layout := ops.foldl operate {}

end Layout

namespace Fragment
variable {f : Fragment} {n : Nat}

theorem length_takeWhile_symbols (p : Char × Bool → Bool) (f : Fragment) :
    (f.symbols.takeWhile p).length = (f.glyphs.takeWhile fun g => p g.symbol).length := by
  rw [symbols, List.takeWhile_map, List.length_map]
  rfl

theorem dropWhile_symbol (p : Char × Bool → Bool) (f : Fragment) :
    f.dropWhile (fun g => p g.symbol) = f.drop (f.symbols.takeWhile p).length := by
  rw [length_takeWhile_symbols, dropWhile_eq_drop]

theorem move_eq_drop (f : Fragment) (m : Move) : f.move m = f.drop (m.span f.symbols) := by
  cases m with
  | bump =>
    obtain ⟨gs, e⟩ := f
    cases gs with
    | nil => rfl
    | cons g gs => simp [move, next?, Move.span, drop]
  | eat c =>
    obtain ⟨gs, e⟩ := f
    cases gs with
    | nil => rfl
    | cons g gs =>
      have hc : isWrittenSymbol c g.symbol = g.isWritten c := rfl
      cases h : g.isWritten c <;> simp [move, eat?, Move.span, symbols, drop, hc, h]
  | skipBlank => exact dropWhile_symbol isBlankSymbol f
  | skipWhile p => exact dropWhile_symbol p f
  | skipUntil c => exact dropWhile_symbol (!isWrittenSymbol c ·) f

theorem Move.span_le (m : Move) (ahead : List (Char × Bool)) : m.span ahead ≤ ahead.length := by
  cases m with
  | bump => exact Nat.min_le_right _ _
  | eat c =>
    cases ahead with
    | nil => exact Nat.le_refl 0
    | cons a ahead =>
      rw [span]
      split
      · exact Nat.le_add_left 1 _
      · exact Nat.zero_le _
  | skipBlank | skipWhile | skipUntil => exact (List.takeWhile_prefix _).length_le

theorem Part.span_le (p : Part) (ahead : List (Char × Bool)) : p.span ahead ≤ ahead.length := by
  cases p with
  | rest => exact Nat.le_refl _
  | takeWhile | takeUntil => exact (List.takeWhile_prefix _).length_le

/-- Reading goes on from a place of the whole fragment to another. -/
theorem foldl_move (h : n ≤ f.length) (moves : List Move) :
    let k := moves.foldl (fun n m => n + m.span (f.symbols.drop n)) n
    moves.foldl move (f.drop n) = f.drop k ∧ k ≤ f.length := by
  induction moves generalizing n with
  | nil => exact ⟨rfl, h⟩
  | cons m moves ih =>
    have hspan := m.span_le (f.symbols.drop n)
    rw [List.length_drop, length_symbols] at hspan
    rw [List.foldl_cons, List.foldl_cons, move_eq_drop, symbols_drop, drop_drop]
    refine ih ?_
    simp only [length] at h ⊢
    omega

theorem take_drop (h : n ≤ f.length) (p : Part) :
    (f.drop n).take p = f.cut n (n + p.span (f.symbols.drop n)) := by
  have hwhile (q : Char × Bool → Bool) : (f.drop n).takeWhile (fun g => q g.symbol) =
      f.cut n (n + ((f.symbols.drop n).takeWhile q).length) := by
    rw [takeWhile_drop h, ← symbols_drop, length_takeWhile_symbols]
  cases p with
  | takeWhile q => exact hwhile q
  | takeUntil c => exact hwhile (!isWrittenSymbol c ·)
  | rest =>
    have hlength : n + (f.symbols.drop n).length = f.length := by
      rw [List.length_drop, length_symbols]
      exact Nat.add_sub_cancel' h
    rw [Part.span, hlength, cut_length]
    rfl

theorem layout_operate (f : Fragment) (op : Operation) :
    (f.operate op).layout = f.layout.operate op := by
  cases op with
  | push text resolved => exact layout_append_ofText f text resolved
  | trim => exact layout_trim f
  | read moves part =>
    obtain ⟨hmoves, hle⟩ := foldl_move (Nat.zero_le f.length) moves
    have hspan := part.span_le (f.symbols.drop (f.layout.place moves))
    rw [List.length_drop, length_symbols] at hspan
    change moves.foldl move f = f.drop (f.layout.place moves) at hmoves
    change f.layout.place moves ≤ f.length at hle
    show ((moves.foldl move f).take part).layout = _
    rw [hmoves, take_drop hle]
    refine layout_cut (Nat.le_add_right _ _) ?_
    simp only [length] at hle ⊢
    omega

theorem layout_made (ops : List Operation) : (made ops).layout = Layout.made ops :=
  (List.foldl_hom layout fun f op => (layout_operate f op).symm).symm

end Fragment

namespace Layout
open Fragment (Operation)

variable {l : Layout}

theorem Proper.operate (h : l.Proper) (op : Operation) : (l.operate op).Proper := by
  obtain ⟨f, rfl, -⟩ := (proper_iff l).1 h
  exact Fragment.layout_operate f op ▸ Fragment.proper_layout _

theorem Proper.foldl_operate (h : l.Proper) (ops : List Operation) : (ops.foldl Layout.operate l).Proper := by
  induction ops generalizing l with
  | nil => exact h
  | cons op ops ih => exact ih (h.operate op)

theorem proper_empty : Proper {} := Fragment.proper_layout ∅

end Layout

namespace Fragment

/-- Let operations make a fragment of the empty one. Its symbols and the places of its gaps are what the
same operations make by counting. The places ascend and none is behind the end, also in each part of it
that does not go behind the end. What trimming leaves is the text trimmed, and trimming that again
changes neither symbols nor gaps. A blank fragment counts as resolved after trimming if and only if it had
a gap. -/
theorem made_proper (ops : List Operation) :
    (made ops).layout = Layout.made ops ∧ (Layout.made ops).Proper ∧
    (∀ start stop, stop ≤ (Layout.made ops).symbols.length →
      ((Layout.made ops).slice start stop).Proper) ∧
    (made ops).trim.text = Text.trimmed (made ops).text ∧
    (made ops).trim.trim = (made ops).trim ∧
    (Text.allBlank (made ops).chars → ((made ops).trim.hasResolved ↔ (made ops).gaps ≠ [])) := by
  have hproper : (Layout.made ops).Proper := Layout.proper_empty.foldl_operate ops
  refine ⟨layout_made ops, hproper, fun _ _ hstop => hproper.slice hstop, ?_, trim_trim _,
    fun hblank => ?_⟩
  · simp only [text, Text.trimmed, String.toList_ofList, chars_trim]
  · rw [trim_blank (allBlank_chars_iff.1 hblank), ne_eq, ← List.isEmpty_iff, isEmpty_gaps]
    cases (made ops).hasGap <;> decide

/-- A gap between the blanks behind a colon is left when these are read and trimmed. -/
theorem made_blank :
    let ops : List Operation := [.push ['a', ':', ' '] false, .push [] true, .push [' '] false,
      .read [.skipUntil ':', .eat ':'] .rest]
    Layout.made ops = ⟨[(' ', false), (' ', false)], [1]⟩ ∧
      ((Layout.made ops).slice 1 2).Proper ∧ Text.allBlank (made ops).chars ∧
      (made ops).trim.hasResolved := by
  intro ops
  obtain ⟨-, -, hslice, -, -, hblank⟩ := made_proper ops
  have hchars : Text.allBlank (made ops).chars := by decide
  exact ⟨by decide, hslice 1 2 (by decide), hchars, (hblank hchars).2 (by decide)⟩

end Fragment

end PortalScript
