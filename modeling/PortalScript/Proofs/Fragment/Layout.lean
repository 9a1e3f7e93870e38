import Mathlib.Data.List.Sort
import PortalScript.Fragment

/-! # Fragments as symbols and places of gaps

A layout is a list of symbols, each with its provenance, and a list of places at which gaps stand, where
a place is the number of the symbols before it. A layout is that of one fragment and no other if its gaps
ascend and none stands behind the end (`proper_iff`), and it is that of no fragment if not. `push` is
what text put behind a fragment does to its layout (`layout_append_ofText`). -/

namespace PortalScript

/-- Characters with their provenance, and places between them. -/
structure Layout where
  symbols : List (Char × Bool) := []
  gaps : List Nat := []
deriving Repr, DecidableEq

namespace Layout

/-- The gaps ascend, no two stand in one place and none stands behind the end. -/
structure Proper (l : Layout) : Prop where
  ascending : l.gaps.SortedLT
  bounded : ∀ i ∈ l.gaps, i ≤ l.symbols.length

/-- The layout with text at its end. Resolved text that is empty leaves a gap, if there is none yet. -/
def push (l : Layout) (text : List Char) (resolved : Bool) : Layout :=
  match text with
  | [] =>
    if resolved && l.gaps.getLast? ≠ some l.symbols.length then
      { l with gaps := l.gaps ++ [l.symbols.length] }
    else l
  | c :: text => { l with symbols := l.symbols ++ (c :: text).map (·, resolved) }

end Layout

/-- A glyph without the gap before it. -/
def Glyph.symbol (g : Glyph) : Char × Bool := (g.char, g.resolved)

theorem Glyph.eq_of_symbol {a b : Glyph} (hsymbol : a.symbol = b.symbol)
    (hgap : a.afterGap = b.afterGap) : a = b := by
  obtain ⟨hchar, hresolved⟩ := Prod.mk.inj hsymbol
  cases a
  cases b
  simp_all

namespace Fragment

def symbols (f : Fragment) : List (Char × Bool) := f.glyphs.map Glyph.symbol

def layout (f : Fragment) : Layout := ⟨f.symbols, f.gaps⟩

/-- Whether a gap stands behind the first so many glyphs of a run that `gapAtEnd` follows. -/
def gapAt (gapAtEnd : Bool) : List Glyph → Nat → Bool
  | [], 0 => gapAtEnd
  | [], _ + 1 => false
  | g :: _, 0 => g.afterGap
  | _ :: gs, i + 1 => gapAt gapAtEnd gs i

/-- Whether a gap stands behind the first `i` glyphs. -/
def hasGapAt (f : Fragment) (i : Nat) : Bool := gapAt f.gapAtEnd f.glyphs i

variable {f : Fragment} {gs hs : List Glyph} {gap e e' : Bool} {i n : Nat}

@[simp] theorem length_symbols (f : Fragment) : f.symbols.length = f.glyphs.length :=
  List.length_map _

/-! ### The places of the gaps -/

theorem le_length_of_gapAt (h : gapAt gap gs i) : i ≤ gs.length := by
  induction gs generalizing i with
  | nil =>
    cases i with
    | zero => exact Nat.le_refl 0
    | succ i => cases h
  | cons g gs ih =>
    cases i with
    | zero => exact Nat.zero_le _
    | succ i => exact Nat.succ_le_succ (ih h)

theorem gapAt_length : gapAt gap gs gs.length = gap := by
  induction gs with
  | nil => rfl
  | cons g gs ih => exact ih

theorem gapAt_of_lt (h : i < gs.length) : gapAt gap gs i = gs[i].afterGap := by
  induction gs generalizing i with
  | nil => cases h
  | cons g gs ih =>
    cases i with
    | zero => rfl
    | succ i => exact ih (Nat.lt_of_succ_lt_succ h)

theorem gapsFrom_cons (n : Nat) (g : Glyph) (gs : List Glyph) :
    gapsFrom n (g :: gs) = (if g.afterGap then [n] else []) ++ gapsFrom (n + 1) gs := by
  rw [gapsFrom]
  split <;> rfl

theorem gapsFrom_append (n : Nat) (gs hs : List Glyph) :
    gapsFrom n (gs ++ hs) = gapsFrom n gs ++ gapsFrom (n + gs.length) hs := by
  induction gs generalizing n with
  | nil => rfl
  | cons g gs ih =>
    rw [List.cons_append, gapsFrom_cons, gapsFrom_cons, ih, List.append_assoc, List.length_cons,
      Nat.add_assoc, Nat.add_comm 1]

theorem gapsFrom_eq_nil (h : ∀ g ∈ gs, g.afterGap = false) (n : Nat) : gapsFrom n gs = [] := by
  induction gs generalizing n with
  | nil => rfl
  | cons g gs ih =>
    rw [gapsFrom_cons, h g List.mem_cons_self, ih fun a ha => h a (List.mem_cons_of_mem g ha)]
    rfl

theorem mem_gapsFrom_append : i ∈ gapsFrom n gs ++ (if gap then [n + gs.length] else []) ↔
    ∃ k, i = n + k ∧ gapAt gap gs k := by
  induction gs generalizing n with
  | nil =>
    constructor
    · intro h
      cases gap with
      | false => cases h
      | true => exact ⟨0, List.mem_singleton.1 h, rfl⟩
    · rintro ⟨k, rfl, hk⟩
      cases k with
      | zero =>
        obtain rfl : gap = true := hk
        exact List.mem_singleton_self _
      | succ k => cases hk
  | cons g gs ih =>
    have hfirst : i ∈ (if g.afterGap then [n] else []) ↔ i = n ∧ g.afterGap := by
      split <;> rename_i hg <;> simp [hg]
    rw [gapsFrom_cons, List.append_assoc, List.mem_append, hfirst, List.length_cons,
      Nat.add_comm gs.length 1, ← Nat.add_assoc, ih]
    constructor
    · rintro (⟨rfl, hg⟩ | ⟨k, rfl, hk⟩)
      · exact ⟨0, rfl, hg⟩
      · exact ⟨k + 1, by omega, hk⟩
    · rintro ⟨k, rfl, hk⟩
      cases k with
      | zero => exact .inl ⟨rfl, hk⟩
      | succ k => exact .inr ⟨k, by omega, hk⟩

theorem mem_gaps : i ∈ f.gaps ↔ f.hasGapAt i := by
  have h := @mem_gapsFrom_append f.glyphs f.gapAtEnd i 0
  simpa [gaps, length, hasGapAt] using h

theorem lt_length_of_mem_gapsFrom (h : i ∈ gapsFrom 0 gs) : i < gs.length := by
  obtain ⟨k, rfl, hk⟩ := (@mem_gapsFrom_append gs false i 0).1 (by simpa using h)
  rw [Nat.zero_add]
  refine Nat.lt_of_le_of_ne (le_length_of_gapAt hk) ?_
  rintro rfl
  rw [gapAt_length] at hk
  cases hk

theorem sortedLT_gapsFrom (n : Nat) (gs : List Glyph) : (gapsFrom n gs).SortedLT := by
  induction gs generalizing n with
  | nil => exact List.Pairwise.nil.sortedLT
  | cons g gs ih =>
    rw [gapsFrom]
    split
    · refine (List.pairwise_cons.2 ⟨fun i hi => ?_, (ih (n + 1)).pairwise⟩).sortedLT
      obtain ⟨k, rfl, -⟩ := (@mem_gapsFrom_append gs false i (n + 1)).1 (by simpa using hi)
      omega
    · exact ih (n + 1)

theorem sortedLT_gaps (f : Fragment) : f.gaps.SortedLT := by
  rw [gaps]
  split
  · refine (List.pairwise_append.2 ⟨(sortedLT_gapsFrom 0 _).pairwise, List.pairwise_singleton _ _,
      fun i hi j hj => ?_⟩).sortedLT
    rw [List.mem_singleton.1 hj]
    exact lt_length_of_mem_gapsFrom hi
  · rw [List.append_nil]
    exact sortedLT_gapsFrom 0 _

theorem proper_layout (f : Fragment) : f.layout.Proper where
  ascending := sortedLT_gaps f
  bounded i hi := by
    show i ≤ f.symbols.length
    rw [length_symbols]
    exact le_length_of_gapAt (mem_gaps.1 hi)

/-! ### Fragments and proper layouts -/

theorem eq_of_gapAt (hsymbols : gs.map Glyph.symbol = hs.map Glyph.symbol)
    (hgaps : ∀ i, gapAt e gs i = gapAt e' hs i) : gs = hs ∧ e = e' := by
  induction gs generalizing hs with
  | nil =>
    obtain rfl := List.map_eq_nil_iff.1 hsymbols.symm
    exact ⟨rfl, hgaps 0⟩
  | cons a gs ih =>
    cases hs with
    | nil => cases hsymbols
    | cons b hs =>
      obtain ⟨hsymbol, hsymbols⟩ := List.cons.inj hsymbols
      obtain ⟨rfl, rfl⟩ := ih hsymbols fun i => hgaps (i + 1)
      exact ⟨congrArg (· :: gs) (Glyph.eq_of_symbol hsymbol (hgaps 0)), rfl⟩

theorem layout_injective : Function.Injective layout := by
  intro f g h
  obtain ⟨hsymbols, hgaps⟩ := Layout.mk.inj h
  have hgapAt (i : Nat) : gapAt f.gapAtEnd f.glyphs i = gapAt g.gapAtEnd g.glyphs i := by
    rw [Bool.eq_iff_iff, ← hasGapAt, ← hasGapAt, ← mem_gaps, ← mem_gaps, hgaps]
  obtain ⟨hglyphs, hend⟩ := eq_of_gapAt hsymbols hgapAt
  cases f
  cases g
  simp_all

end Fragment

namespace Layout

/-- The fragment of a layout. -/
def fragment (l : Layout) : Fragment :=
  ⟨l.symbols.mapIdx fun i a => ⟨a.1, a.2, i ∈ l.gaps⟩, l.symbols.length ∈ l.gaps⟩

variable {l : Layout}

theorem Proper.layout_fragment (h : l.Proper) : l.fragment.layout = l := by
  have hsymbols : l.fragment.symbols = l.symbols := by
    refine List.ext_getElem? fun i => ?_
    simp [Fragment.symbols, fragment, Function.comp_def, Glyph.symbol]
  have hgaps : l.fragment.gaps = l.gaps := by
    refine (Fragment.sortedLT_gaps _).eq_of_mem_iff h.ascending fun i => ?_
    have hlength : l.fragment.glyphs.length = l.symbols.length := List.length_mapIdx
    rw [Fragment.mem_gaps, Fragment.hasGapAt]
    rcases Nat.lt_trichotomy i l.symbols.length with hlt | rfl | hgt
    · rw [Fragment.gapAt_of_lt (hlength ▸ hlt)]
      simp [fragment]
    · rw [← hlength, Fragment.gapAt_length, hlength]
      simp [fragment]
    · constructor
      · intro hi
        have := Fragment.le_length_of_gapAt hi
        omega
      · intro hi
        have := h.bounded i hi
        omega
  exact congrArg₂ Layout.mk hsymbols hgaps

/-- Each proper layout is that of one fragment, and no other layout is that of a fragment. -/
theorem proper_iff (l : Layout) : l.Proper ↔ ∃! f : Fragment, f.layout = l := by
  constructor
  · exact fun h => ⟨l.fragment, h.layout_fragment,
      fun f hf => Fragment.layout_injective (hf.trans h.layout_fragment.symm)⟩
  · rintro ⟨f, rfl, -⟩
    exact f.proper_layout

end Layout

namespace Fragment
variable {f : Fragment}

theorem layout_append_ofText (f : Fragment) (text : List Char) (resolved : Bool) :
    (f ++ ofText text resolved).layout = f.layout.push text resolved := by
  cases text with
  | nil =>
    have happend : f ++ ofText [] resolved = ⟨f.glyphs, f.gapAtEnd || resolved⟩ := by
      cases resolved <;> rfl
    -- the last gap stands at the end only if the fragment says so
    have hlast : (gapsFrom 0 f.glyphs).getLast? ≠ some f.glyphs.length := fun h =>
      Nat.lt_irrefl _ (lt_length_of_mem_gapsFrom (List.mem_of_getLast? h))
    rw [happend]
    cases resolved <;> cases hgap : f.gapAtEnd <;>
      simp [layout, Layout.push, symbols, gaps, length, hgap, hlast]
  | cons c text =>
    have happend : f ++ ofText (c :: text) resolved =
        ⟨f.glyphs ++ ⟨c, resolved, f.gapAtEnd || false⟩ :: text.map (⟨·, resolved, false⟩), false⟩ := by
      cases resolved <;> rfl
    have hclosed (n : Nat) : gapsFrom n (text.map (⟨·, resolved, false⟩)) = [] :=
      gapsFrom_eq_nil (by simp) n
    rw [happend]
    simp [layout, Layout.push, symbols, gaps, length, gapsFrom_append, gapsFrom_cons, hclosed,
      Glyph.symbol]

end Fragment

end PortalScript
