import PortalScript.Proofs.Fragment.Insert
import PortalScript.Proofs.Fragment.Layout

/-! # Parts of a fragment

A part of a layout from one place to another has the gaps between the two, those at both of them
included, and is proper if the layout is (`Layout.Proper.slice`). What is cut out of a fragment is such a
part of it (`layout_cut`): what is read up to some place (`takeWhile_drop`), what is left behind one
(`cut_length`) and what trimming leaves (`layout_trim`). -/

namespace PortalScript

/-- Whether a symbol is a blank, wherever it came from. -/
def isBlankSymbol (a : Char × Bool) : Bool := Text.isBlank a.1

namespace Layout

/-- The symbols from one place to another and the gaps at these places and between them. There are no
symbols if the places are the wrong way round or one of them is behind the end. -/
def slice (l : Layout) (start stop : Nat) : Layout where
  symbols := if start ≤ stop ∧ stop ≤ l.symbols.length then (l.symbols.take stop).drop start else []
  gaps := (l.gaps.filter fun i => start ≤ i ∧ i ≤ stop).map (· - start)

/-- The part from the first symbol that is not blank to the last one. If there is none, a gap is left if
there was any. -/
def trim (l : Layout) : Layout :=
  if l.symbols.all isBlankSymbol then { gaps := if l.gaps.isEmpty then [] else [0] }
  else l.slice (l.symbols.takeWhile isBlankSymbol).length (l.symbols.rdropWhile isBlankSymbol).length

variable {l : Layout} {start stop i : Nat}

theorem mem_gaps_slice : i ∈ (l.slice start stop).gaps ↔ start + i ∈ l.gaps ∧ start + i ≤ stop := by
  simp only [slice, List.mem_map, List.mem_filter, decide_eq_true_eq]
  constructor
  · rintro ⟨k, ⟨hk, hstart, hstop⟩, rfl⟩
    rw [Nat.add_sub_cancel' hstart]
    exact ⟨hk, hstop⟩
  · rintro ⟨hk, hstop⟩
    exact ⟨start + i, ⟨hk, Nat.le_add_right _ _, hstop⟩, Nat.add_sub_cancel_left _ _⟩

theorem symbols_slice (h : start ≤ stop) (hstop : stop ≤ l.symbols.length) :
    (l.slice start stop).symbols = (l.symbols.take stop).drop start := if_pos ⟨h, hstop⟩

theorem length_slice (h : start ≤ stop) (hstop : stop ≤ l.symbols.length) :
    (l.slice start stop).symbols.length = stop - start := by
  rw [symbols_slice h hstop, List.length_drop, List.length_take, Nat.min_eq_left hstop]

/-- No gap before the start is kept, so counting the others from there keeps their order. -/
theorem Proper.slice (h : l.Proper) (hstop : stop ≤ l.symbols.length) :
    (l.slice start stop).Proper where
  ascending := by
    have hkept := h.ascending.pairwise.filter fun i => start ≤ i ∧ i ≤ stop
    refine (List.pairwise_map.2 (hkept.imp_of_mem fun {i k} hi hk hlt => ?_)).sortedLT
    have hstart := of_decide_eq_true (List.mem_filter.1 hi).2
    omega
  bounded := by
    intro i hi
    have hle := (mem_gaps_slice.1 hi).2
    rw [length_slice (by omega) hstop]
    omega

end Layout

namespace Fragment
variable {f : Fragment} {g : Glyph} {gs : List Glyph} {e : Bool} {i j n : Nat}

/-- What is left behind the first `n` glyphs. -/
def drop (n : Nat) (f : Fragment) : Fragment := ⟨f.glyphs.drop n, f.gapAtEnd⟩

/-- The glyphs from one place to another. -/
def cut (i j : Nat) (f : Fragment) : Fragment := ⟨(f.glyphs.take j).drop i, f.hasGapAt j⟩

theorem length_layout (f : Fragment) : f.layout.symbols.length = f.length := f.length_symbols

theorem length_drop (n : Nat) (f : Fragment) : (f.drop n).length = f.length - n := List.length_drop

theorem symbols_drop (n : Nat) (f : Fragment) : (f.drop n).symbols = f.symbols.drop n := List.map_drop

theorem gapAt_drop (h : i ≤ gs.length) (k : Nat) : gapAt e (gs.drop i) k = gapAt e gs (i + k) := by
  induction gs generalizing i with
  | nil =>
    obtain rfl : i = 0 := Nat.le_zero.1 h
    rw [List.drop_zero, Nat.zero_add]
  | cons g gs ih =>
    cases i with
    | zero => rw [List.drop_zero, Nat.zero_add]
    | succ i =>
      rw [Nat.add_right_comm]
      exact ih (Nat.le_of_succ_le_succ h)

theorem gapAt_take (h : j ≤ gs.length) (k : Nat) :
    gapAt (gapAt e gs j) (gs.take j) k = (decide (k ≤ j) && gapAt e gs k) := by
  induction gs generalizing j k with
  | nil =>
    obtain rfl : j = 0 := Nat.le_zero.1 h
    cases k <;> rfl
  | cons g gs ih =>
    cases j with
    | zero => cases k <;> rfl
    | succ j =>
      cases k with
      | zero => simp [gapAt]
      | succ k => simpa [gapAt] using ih (Nat.le_of_succ_le_succ h) k

theorem hasGapAt_drop (h : n ≤ f.length) (k : Nat) : (f.drop n).hasGapAt k = f.hasGapAt (n + k) :=
  gapAt_drop h k

theorem layout_cut (h : i ≤ j) (hj : j ≤ f.length) : (f.cut i j).layout = f.layout.slice i j := by
  have hj' : j ≤ f.layout.symbols.length := (length_layout f).symm ▸ hj
  have hi : i ≤ (f.glyphs.take j).length := by
    rw [List.length_take]
    exact Nat.le_min.2 ⟨h, h.trans hj⟩
  have hsymbols : (f.cut i j).symbols = (f.layout.slice i j).symbols := by
    rw [Layout.symbols_slice h hj']
    simp [symbols, cut, layout, List.map_drop, List.map_take]
  have hgaps : (f.cut i j).gaps = (f.layout.slice i j).gaps := by
    refine (sortedLT_gaps _).eq_of_mem_iff (f.proper_layout.slice hj').ascending fun k => ?_
    rw [mem_gaps, Layout.mem_gaps_slice, hasGapAt, cut, hasGapAt, gapAt_drop hi, gapAt_take hj,
      Bool.and_eq_true, decide_eq_true_eq, and_comm]
    exact and_congr_left fun _ => mem_gaps.symm
  exact congrArg₂ Layout.mk hsymbols hgaps

theorem cut_length (f : Fragment) (n : Nat) : f.cut n f.length = f.drop n := by
  rw [cut, length, List.take_length, hasGapAt, gapAt_length]
  rfl

theorem drop_drop (f : Fragment) (m n : Nat) : (f.drop m).drop n = f.drop (m + n) := by
  rw [drop, drop, List.drop_drop]
  rfl

/-! ### Reading -/

theorem dropWhile_eq_drop (p : Glyph → Bool) (f : Fragment) :
    f.dropWhile p = f.drop (f.glyphs.takeWhile p).length := by
  have hdrop : f.glyphs.dropWhile p = f.glyphs.drop (f.glyphs.takeWhile p).length := by
    calc f.glyphs.dropWhile p
      _ = (f.glyphs.takeWhile p ++ f.glyphs.dropWhile p).drop (f.glyphs.takeWhile p).length :=
        List.drop_left.symm
      _ = f.glyphs.drop (f.glyphs.takeWhile p).length := by rw [List.takeWhile_append_dropWhile]
  rw [dropWhile, hdrop]
  rfl

theorem drop_eq_prepend (f : Fragment) (i n : Nat) :
    f.drop i = prepend ((f.glyphs.drop i).take n) (f.drop (i + n)) := by
  rw [← drop_drop, prepend, drop, drop, List.take_append_drop]

theorem getElem?_symbols_add (f : Fragment) (i k : Nat) :
    f.symbols[i + k]? = (f.drop i).glyphs[k]?.map Glyph.symbol := by
  rw [← List.getElem?_drop, ← symbols_drop, symbols, List.getElem?_map]

theorem getElem?_glyphs_congr {f g : Fragment} (hsymbol : g.symbols[i]? = f.symbols[i]?)
    (hgap : i ∈ g.gaps ↔ i ∈ f.gaps) : g.glyphs[i]? = f.glyphs[i]? := by
  rw [symbols, symbols, List.getElem?_map, List.getElem?_map] at hsymbol
  rw [mem_gaps, mem_gaps] at hgap
  rcases Nat.lt_or_ge i f.glyphs.length with hf | hf
  · rw [List.getElem?_eq_getElem hf] at hsymbol ⊢
    obtain ⟨a, ha, hab⟩ := Option.map_eq_some_iff.1 hsymbol
    obtain ⟨hg, rfl⟩ := List.getElem?_eq_some_iff.1 ha
    rw [hasGapAt, hasGapAt, gapAt_of_lt hg, gapAt_of_lt hf, ← Bool.eq_iff_iff] at hgap
    rw [ha, Glyph.eq_of_symbol hab hgap]
  · rw [List.getElem?_eq_none hf] at hsymbol ⊢
    exact Option.map_eq_none_iff.1 hsymbol

theorem take_drop_glyphs_congr {f g : Fragment} (h : ∀ k, i ≤ k → k < i + n →
    g.symbols[k]? = f.symbols[k]? ∧ (k ∈ g.gaps ↔ k ∈ f.gaps)) :
    (g.glyphs.drop i).take n = (f.glyphs.drop i).take n := by
  refine List.ext_getElem? fun k => ?_
  rw [List.getElem?_take, List.getElem?_take]
  split
  · rename_i hk
    obtain ⟨hsymbol, hgap⟩ := h (i + k) (Nat.le_add_right i k) (by omega)
    rw [List.getElem?_drop, List.getElem?_drop, getElem?_glyphs_congr hsymbol hgap]
  · rfl

theorem gapAtStart_eq (f : Fragment) : f.gapAtStart = f.hasGapAt 0 := by
  obtain ⟨gs, e⟩ := f
  cases gs <;> rfl

theorem takeWhile_drop (h : n ≤ f.length) (p : Glyph → Bool) :
    (f.drop n).takeWhile p = f.cut n (n + ((f.drop n).glyphs.takeWhile p).length) := by
  have hle := (List.takeWhile_prefix p (l := (f.drop n).glyphs)).length_le
  rw [takeWhile, dropWhile_eq_drop, drop_drop, gapAtStart_eq, hasGapAt_drop, Nat.add_zero]
  · refine congrArg₂ Fragment.mk ?_ rfl
    rw [← List.take_drop]
    exact List.prefix_iff_eq_take.1 (List.takeWhile_prefix p)
  · have hlen := length_drop n f
    simp only [length] at h hlen hle ⊢
    omega

/-! ### Trimming -/

theorem trimEnd_snd (e : Bool) (gs : List Glyph) :
    (trimEnd e gs).2 = gapAt e gs (trimEnd e gs).1.length := by
  induction gs with
  | nil => rfl
  | cons g gs ih =>
    rw [trimEnd]
    split <;> rename_i h <;> rw [h] at ih
    · split
      · rfl
      · exact ih
    · exact ih

theorem isEmpty_gapsFrom (n : Nat) (gs : List Glyph) :
    (gapsFrom n gs).isEmpty = !gs.any (·.afterGap) := by
  induction gs generalizing n with
  | nil => rfl
  | cons g gs ih => cases hg : g.afterGap <;> simp [gapsFrom_cons, hg, ← ih (n + 1)]

theorem isEmpty_gaps (f : Fragment) : f.gaps.isEmpty = !f.hasGap := by
  have happend (a b : List Nat) : (a ++ b).isEmpty = (a.isEmpty && b.isEmpty) := by cases a <;> rfl
  rw [gaps, happend, isEmpty_gapsFrom, hasGap, Bool.not_or, Bool.and_comm]
  cases f.gapAtEnd <;> rfl

theorem trim_blank (h : ∀ g ∈ f.glyphs, g.isBlank) : f.trim = ⟨[], f.hasGap⟩ := by
  unfold trim
  rw [List.dropWhile_eq_nil_iff.2 h]

/-- Blanks at the end are the same with the blanks at the start and without them. -/
theorem rdropWhile_blank (h : ∃ g ∈ gs, ¬ g.isBlank) (e : Bool) : gs.rdropWhile (·.isBlank) =
    gs.takeWhile (·.isBlank) ++ (trimEnd e (gs.dropWhile (·.isBlank))).1 := by
  obtain ⟨g, hg, hb⟩ := h
  have hkept : (trimEnd e (gs.dropWhile (·.isBlank))).1 ≠ [] :=
    List.ne_nil_of_mem (mem_trimEnd (mem_dropWhile_blank hg hb) hb)
  have happend := trimEnd_append (gs.takeWhile (·.isBlank)) hkept
  rw [List.takeWhile_append_dropWhile] at happend
  rw [← glyphs_trimEnd e, happend]

theorem trim_eq_cut (h : ∃ g ∈ f.glyphs, ¬ g.isBlank) : f.trim =
    f.cut (f.glyphs.takeWhile (·.isBlank)).length (f.glyphs.rdropWhile (·.isBlank)).length := by
  have hprefix := List.prefix_iff_eq_take.1 (List.rdropWhile_prefix Glyph.isBlank f.glyphs)
  have hright := rdropWhile_blank h f.gapAtEnd
  have htrim : f.trim = f.skipBlank.trimRight := by
    obtain ⟨g, hg, hb⟩ := h
    exact trim_eq_trimRight (List.ne_nil_of_mem (mem_dropWhile_blank hg hb))
  have hgap (n : Nat) := hasGapAt_drop (List.takeWhile_prefix Glyph.isBlank).length_le (f := f) n
  rw [← dropWhile_eq_drop] at hgap
  rw [htrim, trimRight, cut, ← hprefix, hright, List.drop_left, trimEnd_snd, List.length_append, ← hgap]
  rfl

theorem allBlank_chars_iff : Text.allBlank f.chars ↔ ∀ g ∈ f.glyphs, g.isBlank := by
  simp [Text.allBlank, chars, Glyph.isBlank]

theorem layout_trim (f : Fragment) : f.trim.layout = f.layout.trim := by
  have hall : f.layout.symbols.all isBlankSymbol ↔ ∀ g ∈ f.glyphs, g.isBlank := by
    simp [layout, symbols, isBlankSymbol, Glyph.symbol, Glyph.isBlank]
  unfold Layout.trim
  split <;> rename_i h
  · rw [trim_blank (hall.1 h)]
    show Layout.mk [] (if f.hasGap then [0] else []) = ⟨[], if f.gaps.isEmpty then [] else [0]⟩
    rw [isEmpty_gaps]
    cases f.hasGap <;> rfl
  · have hne : ∃ g ∈ f.glyphs, ¬ g.isBlank := by simpa using hall.not.1 h
    have hleft : f.layout.symbols.takeWhile isBlankSymbol =
        (f.glyphs.takeWhile (·.isBlank)).map Glyph.symbol := List.takeWhile_map
    have hright : f.layout.symbols.rdropWhile isBlankSymbol =
        (f.glyphs.rdropWhile (·.isBlank)).map Glyph.symbol := by
      show ((f.glyphs.map Glyph.symbol).reverse.dropWhile isBlankSymbol).reverse = _
      rw [← List.map_reverse, List.dropWhile_map, ← List.map_reverse]
      rfl
    have hle : (f.glyphs.takeWhile (·.isBlank)).length ≤ (f.glyphs.rdropWhile (·.isBlank)).length := by
      rw [rdropWhile_blank hne f.gapAtEnd, List.length_append]
      exact Nat.le_add_right _ _
    rw [trim_eq_cut hne, hleft, hright, List.length_map, List.length_map]
    exact layout_cut hle (List.rdropWhile_prefix _ _).length_le

theorem trim_trim (f : Fragment) : f.trim.trim = f.trim := by
  by_cases h : ∀ g ∈ f.glyphs, g.isBlank
  · rw [trim_blank h]
    cases f.hasGap <;> rfl
  · obtain ⟨g, hg, hb⟩ : ∃ g ∈ f.glyphs, ¬ g.isBlank := by simpa using h
    have hkept : g ∈ f.trim.glyphs := mem_trim hg hb
    have hglyphs := glyphs_trim_eq f
    have hfirst : f.trim.glyphs.takeWhile (·.isBlank) = [] := by
      have hprefix : f.trim.glyphs <+: f.glyphs.dropWhile (·.isBlank) :=
        hglyphs ▸ List.rdropWhile_prefix _ _
      obtain ⟨a, as, ha⟩ := List.exists_cons_of_ne_nil (List.ne_nil_of_mem hkept)
      obtain ⟨rest, hrest⟩ := ha ▸ hprefix
      rw [ha, List.takeWhile_cons_of_neg (not_of_dropWhile hrest.symm)]
    have hlast : f.trim.glyphs.rdropWhile (·.isBlank) = f.trim.glyphs := by
      rw [hglyphs]
      exact List.rdropWhile_idempotent _ _
    rw [trim_eq_cut ⟨g, hkept, hb⟩, hfirst, hlast]
    exact cut_length f.trim 0

end Fragment

end PortalScript
