import PortalScript.Proofs.Fragment.Hole
import PortalScript.Proofs.Params.Prefix

/-! # Values around resolved text

`HoldsSolid` says how source text `w`, resolved text and source text behind it are read as one
value: as a bare value that starts with the resolved text, as a bare value that starts with `w`, or
between quotes. Other resolved text in the same place is read the same way
(`HoldsSolid.hole_of_keeps`), unless it is blank and the value starts with it. Then it counts for
nothing (`readsValue_hole_blank`). -/

namespace PortalScript

namespace Params

open Fragment

variable {f rest behind left : Fragment} {g : Glyph} {w r b : List Char} {value : Fragment} {x : Char}

/-- Solid text belongs to a value that starts with it, one that starts bare before it, or one that
starts with a quote before it. -/
inductive HoldsSolid (w : List Char) (f left : Fragment) : Fragment → Fragment → Prop
  | first (hw : ∀ c ∈ w, Text.isBlank c) :
      HoldsSolid w f left (f.takeWhile isBareGlyph).trim (left.dropWhile isBareGlyph)
  | bare {s w' : List Char} {d : Char} (hw : w = s ++ d :: w') (hs : ∀ c ∈ s, Text.isBlank c)
      (hd : ¬ Text.isBlank d) (hq : d ≠ '\'') (hb : ∀ c ∈ d :: w', isBareGlyph (.ofScript c)) :
      HoldsSolid w f left ((written (d :: w') ++ f).takeWhile isBareGlyph).trim
        (left.dropWhile isBareGlyph)
  | quoted {s w' : List Char} {behind : Fragment} (hw : w = s ++ '\'' :: w')
      (hs : ∀ c ∈ s, Text.isBlank c) (hq : ∀ c ∈ w', !(Glyph.ofScript c).isWritten '\'')
      (hc : (left.dropUntil '\'').eat? '\'' = some behind)
      (he : behind.skipBlank.startsAt ',' || behind.skipBlank.startsAt ']' || behind.skipBlank.isEmpty) :
      HoldsSolid w f left ((written w' ++ f).takeUntil '\'').quote behind.skipBlank

theorem Encloses.holdsSolid {read : Fragment → Fragment}
    (h : Encloses (w.map Glyph.ofScript) left read behind) (f : Fragment) :
    HoldsSolid w f left (read f) behind := by
  cases h with
  | bare hw hs hd hu =>
    obtain ⟨s, u, rfl, rfl, rfl⟩ := List.map_eq_append_iff.1 hw
    have hs : ∀ c ∈ s, Text.isBlank c := List.forall_mem_map.1 hs
    cases u with
    | nil =>
      rw [List.append_nil]
      exact .first hs
    | cons d u =>
      obtain ⟨hb, hq⟩ := hd (.ofScript d) rfl
      simp only [← written_append_eq_prepend]
      refine .bare rfl hs hb ?_ (List.forall_mem_map.1 hu)
      rintro rfl
      exact hq rfl
  | quoted hw hs hq _ hu hc he =>
    obtain ⟨s, v, rfl, rfl, hv⟩ := List.map_eq_append_iff.1 hw
    obtain ⟨c, u, rfl, rfl, rfl⟩ := List.map_eq_cons_iff.1 hv
    obtain rfl : c = '\'' := of_decide_eq_true hq
    simp only [← written_append_eq_prepend]
    exact .quoted rfl (List.forall_mem_map.1 hs) (List.forall_mem_map.1 hu) hc he

theorem ReadsValue.holdsSolid (hf : f.Solid g left)
    (h : ReadsValue (written w ++ f).skipBlank value behind) (hx : ∃ a ∈ value.glyphs, a.resolved) :
    HoldsSolid w f left value behind := by
  rw [written_append_eq_prepend] at h
  rcases readsValue_local hf.blocked h with ⟨-, -, -, hval, -⟩ | ⟨read, henc, rfl⟩
  · -- the value would end before the resolved text
    obtain ⟨a, ha, hr⟩ := hx
    rw [hval.not_resolved (List.forall_mem_map.2 fun _ _ => rfl) a ha] at hr
    cases hr
  · exact henc.holdsSolid f

theorem isBareGlyph_gap (a : Glyph) (gap : Bool) :
    isBareGlyph { a with afterGap := gap } = isBareGlyph a := rfl

namespace HoldsSolid

theorem behind_suffix (h : HoldsSolid w f left value behind) : behind.glyphs <:+ left.glyphs := by
  cases h with
  | first | bare => exact glyphs_dropWhile _ _
  | quoted hw hs hq hc he =>
    exact (glyphs_dropWhile _ _).trans ((glyphs_of_eat? hc).trans (glyphs_dropWhile _ _))

/-- Only a value with nothing but blanks before the resolved text starts with it. -/
theorem startsResolved_iff (hf : f.Solid g left) (h : HoldsSolid w f left value behind) :
    value.startsResolved ↔ ∀ c ∈ w, Text.isBlank c := by
  have hno {d : Char} {s w' : List Char} (hw : w = s ++ d :: w') (hd : ¬ Text.isBlank d) :
      ¬ ∀ c ∈ w, Text.isBlank c := fun h => hd (h d (by simp [hw]))
  cases h with
  | first hw =>
    have hb : isBareGlyph g := by simp [isBareGlyph, Glyph.isWritten, hf.resolved]
    have ht : (f.takeWhile isBareGlyph).glyphs = g :: left.glyphs.takeWhile isBareGlyph := by
      simp [takeWhile, hf.glyphs, hb]
    rw [startsResolved, head?_trim ht hf.not_blank]
    simpa [hf.resolved] using hw
  | @bare s w' d hw hs hd hq hb =>
    have ht : ((written (d :: w') ++ f).takeWhile isBareGlyph).glyphs = Glyph.ofScript d ::
        (written w' ++ f).glyphs.takeWhile isBareGlyph := by
      have := hb d List.mem_cons_self
      simp [takeWhile, written_append, this]
    rw [startsResolved, head?_trim ht hd]
    simpa [Glyph.ofScript] using hno hw hd
  | quoted hw hs hq hc he =>
    simpa [startsResolved, quote] using hno hw (by decide)

end HoldsSolid

theorem skipBlank_hole {r₁ r₂ : List Char} {d : Char} (hr : ∀ c ∈ r₁, Text.isBlank c)
    (hd : ¬ Text.isBlank d) (b : List Char) :
    (hole (r₁ ++ d :: r₂) b).skipBlank = hole (d :: r₂) b := by
  rw [hole_of_ne_nil (by simp), hole_of_ne_nil (by simp)]
  simp only [skipBlank, dropWhile, List.map_append, List.append_assoc]
  rw [List.dropWhile_append_of_pos]
  · simp [Glyph.isBlank, hd]
  · intro a ha
    obtain ⟨c, hc, rfl⟩ := List.mem_map.1 ha
    exact hr c hc

/-- Whether resolved text `r` before source text `b` is read as part of a value: there is text in it,
or source text of the value before it, or it is empty and the value ends right behind it. -/
def Keeps (value : Fragment) (r b : List Char) : Prop :=
  ¬ Text.allBlank r ∨ ¬ value.startsResolved ∨ r = [] ∧ (b.head? = some ',' ∨ b.head? = some ']')

theorem HoldsSolid.hole_of_keeps (hx : ¬ Text.isBlank x)
    (h : HoldsSolid w (hole [x] b) (written b) value behind) (hk : Keeps value r b) :
    ∃ value' behind', ReadsValue (written w ++ hole r b).skipBlank value' behind' ∧
      ∀ c, behind'.skipBlank.eat? c = behind.skipBlank.eat? c := by
  have hrest := sameBehindGap_hole (r := r) (fun c _ => by simp [isBareGlyph, Glyph.isWritten])
    isBareGlyph_gap b
  have hstart := h.startsResolved_iff (solid_hole hx b)
  cases h with
  | first hw =>
    have hs : (written w ++ hole r b).skipBlank = (hole r b).skipBlank := dropWhile_passes hw _
    rw [hs]
    rcases hk with hk | hk | ⟨rfl, hk⟩
    · rcases passes_or_stops (·.isBlank) r with hr | ⟨r₁, d, r₂, rfl, hr, hd⟩
      · exact absurd (List.all_eq_true.2 hr) hk
      · have hd : ¬ Text.isBlank d := hd
        rw [skipBlank_hole hr hd]
        refine ⟨_, _, .bare_of_mem (a := ⟨d, true, false⟩) ?_ ?_ hd, ?_⟩
        · simp [hole_of_ne_nil, eat?, Glyph.isWritten]
        · simp [hole_of_ne_nil, takeWhile, isBareGlyph, Glyph.isWritten]
        · rw [dropWhile_hole (by simp) (by simp [isBareGlyph, Glyph.isWritten])]
          exact fun c => rfl
    · exact absurd (hstart.2 hw) hk
    · -- the gap itself is the value
      cases b with
      | nil => simp at hk
      | cons d b =>
        have hd : ¬ isBareGlyph (.ofScript d) ∧ ¬ Text.isBlank d ∧ d ≠ '\'' := by
          rcases hk with hk | hk <;> cases hk <;> decide
        obtain ⟨hb, hd, hq⟩ := hd
        have he : hole [] (d :: b) = ⟨⟨d, false, true⟩ :: b.map Glyph.ofScript, false⟩ := by
          simp [hole_eq, markGap, Glyph.ofScript]
        have hbare : isBareGlyph ⟨d, false, true⟩ = false := Bool.eq_false_iff.2 hb
        have hsk : (hole [] (d :: b)).skipBlank = hole [] (d :: b) := by
          simp [he, skipBlank, dropWhile, Glyph.isBlank, hd]
        rw [hsk]
        refine ⟨_, _, .bare ?_ ?_, hrest.skipBlank.eat?⟩
        · simp [he, eat?, Glyph.isWritten, hq]
        · simp [he, takeWhile, dropWhile, hbare, gapAtStart, hasResolved, hasGap]
  | @bare s w' d hw hs hd hq hb =>
    rw [hw, skipBlank, dropWhile_stops hs hd]
    refine ⟨_, _, .bare_of_mem (a := .ofScript d) ?_ ?_ hd, fun c => ?_⟩
    · rw [eat?_written_cons, if_neg hq]
    · rw [takeWhile_passes hb, written_append]
      simp
    · rw [dropWhile_passes hb]
      exact hrest.skipBlank.eat? c
  | @quoted s w' behind hw hs hq hc he =>
    rw [hw, skipBlank, dropWhile_stops hs (by decide)]
    refine ⟨_, _, .quoted (eat?_written_cons _ _ _ _) ?_ he, fun c => rfl⟩
    rw [dropUntil, dropWhile_passes hq, ← hc]
    refine (sameBehindGap_hole ?_ ?_ b).eat? _
    · simp [Glyph.isWritten]
    · exact fun _ _ => rfl

/-- A gap before a value with text in it has no part in how far the value goes. -/
theorem ReadsValue.gap {a : Glyph} {gs : List Glyph} {gapAtEnd : Bool}
    (h : ReadsValue ⟨a :: gs, gapAtEnd⟩ value behind) (ha : ¬ a.isBlank) (hb : isBareGlyph a)
    (gap : Bool) : ∃ value', ReadsValue ⟨{ a with afterGap := gap } :: gs, gapAtEnd⟩ value' behind := by
  cases h with
  | quoted ho hc he => exact ⟨_, .quoted ho hc he⟩
  | bare ho hv =>
    have hb' : isBareGlyph { a with afterGap := gap } := hb
    have hd : dropWhile isBareGlyph ⟨a :: gs, gapAtEnd⟩ =
        dropWhile isBareGlyph ⟨{ a with afterGap := gap } :: gs, gapAtEnd⟩ := by
      simp [dropWhile, hb, hb']
    rw [hd]
    refine ⟨_, .bare_of_mem (a := { a with afterGap := gap }) ho ?_ ha⟩
    simp [takeWhile, hb']

theorem readsValue_hole_blank (hr : Text.allBlank r) (hw : ∀ c ∈ w, Text.isBlank c) (hb : b ≠ [])
    (hk : ¬ (r = [] ∧ (b.head? = some ',' ∨ b.head? = some ']'))) (behind : Fragment) :
    (∃ value, ReadsValue (written w ++ hole r b).skipBlank value behind) ↔
      ∃ value, ReadsValue (written w ++ written b).skipBlank value behind := by
  have hs (f : Fragment) : (written w ++ f).skipBlank = f.skipBlank := dropWhile_passes hw f
  rw [hs, hs]
  by_cases hne : r = []
  · subst hne
    obtain ⟨d, b, rfl⟩ := List.exists_cons_of_ne_nil hb
    have he : hole [] (d :: b) = ⟨⟨d, false, true⟩ :: b.map Glyph.ofScript, false⟩ := by
      simp [hole_eq, markGap, Glyph.ofScript]
    have he' : written (d :: b) = ⟨⟨d, false, false⟩ :: b.map Glyph.ofScript, false⟩ := by
      simp [written_eq, Glyph.ofScript]
    rw [he, he']
    by_cases hd : Text.isBlank d
    · simp [skipBlank, dropWhile, Glyph.isBlank, hd]
    · have hbare : isBareGlyph ⟨d, false, true⟩ := by simpa [isBareGlyph, Glyph.isWritten] using hk
      have hsk {gap : Bool} : skipBlank ⟨⟨d, false, gap⟩ :: b.map Glyph.ofScript, false⟩ =
          ⟨⟨d, false, gap⟩ :: b.map Glyph.ofScript, false⟩ := by
        simp [skipBlank, dropWhile, Glyph.isBlank, hd]
      rw [hsk, hsk]
      constructor
      · rintro ⟨value, h⟩
        exact h.gap hd hbare false
      · rintro ⟨value, h⟩
        exact h.gap hd hbare true
  · rw [skipBlank, dropWhile_hole hne fun c hc => List.all_eq_true.1 hr c hc]
    rfl

end Params

end PortalScript
