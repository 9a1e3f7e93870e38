import PortalScript.Proofs.Fragment.Prefix

/-! # Resolved text before source text

`hole r b` is resolved text `r` before source text `b`. A scan that passes over `r` comes to `b` behind
a gap at most (`sameBehindGap_hole`), and no scanner of grammar looks at gaps (`SameBehindGap`). -/

namespace PortalScript.Fragment

/-- Resolved text before source text. -/
def hole (r b : List Char) : Fragment := ofText r true ++ written b

variable {f g : Fragment} {r b : List Char} {p : Glyph → Bool} {x : Char}

theorem hole_eq (r b : List Char) : hole r b =
    ⟨r.map (⟨·, true, false⟩) ++ markGap r.isEmpty (b.map Glyph.ofScript), r.isEmpty && b.isEmpty⟩ := by
  show append _ _ = _
  unfold append
  cases b <;> simp [ofText, written_eq, markGap, Glyph.ofScript]

theorem hole_of_ne_nil (h : r ≠ []) (b : List Char) :
    hole r b = ⟨r.map (⟨·, true, false⟩) ++ b.map Glyph.ofScript, false⟩ := by
  rw [hole_eq, List.isEmpty_eq_false_iff.2 h]
  cases b <;> simp [markGap, Glyph.ofScript]

theorem solid_hole (hx : ¬ Text.isBlank x) (b : List Char) :
    (hole [x] b).Solid ⟨x, true, false⟩ (written b) := by
  rw [hole_of_ne_nil (by simp)]
  refine ⟨by simp [written_eq], rfl, rfl, hx, ?_⟩
  simp [written_eq, Glyph.ofScript]

/-- The same but for a gap before the first glyph. -/
def SameBehindGap (f g : Fragment) : Prop :=
  (∃ gap, f.glyphs = markGap gap g.glyphs) ∧ (g.glyphs ≠ [] → f.gapAtEnd = g.gapAtEnd)

theorem SameBehindGap.eat? (h : f.SameBehindGap g) (c : Char) : f.eat? c = g.eat? c := by
  obtain ⟨⟨gap, hg⟩, he⟩ := h
  unfold Fragment.eat?
  rw [hg]
  cases hs : g.glyphs with
  | nil => rfl
  | cons a gs =>
    rw [he (by simp [hs])]
    rfl

theorem SameBehindGap.dropWhile (h : f.SameBehindGap g)
    (hp : ∀ a gap, p { a with afterGap := gap } = p a) :
    (f.dropWhile p).SameBehindGap (g.dropWhile p) := by
  obtain ⟨⟨gap, hg⟩, he⟩ := h
  cases hs : g.glyphs with
  | nil =>
    rw [hs] at hg
    exact ⟨⟨gap, by simp [Fragment.dropWhile, hg, hs, markGap]⟩, fun h => by simp [Fragment.dropWhile, hs] at h⟩
  | cons a gs =>
    rw [hs] at hg he
    have he := he (by simp)
    by_cases ha : p a
    · refine ⟨⟨false, ?_⟩, fun _ => he⟩
      simp only [Fragment.dropWhile, hg, hs, markGap, List.dropWhile_cons, hp, ha, if_true]
      cases gs.dropWhile p <;> simp
    · refine ⟨⟨gap, ?_⟩, fun _ => he⟩
      simp [Fragment.dropWhile, hg, hs, markGap, hp, ha]

theorem SameBehindGap.skipBlank (h : f.SameBehindGap g) : f.skipBlank.SameBehindGap g.skipBlank :=
  h.dropWhile fun _ _ => by rfl

theorem sameBehindGap_hole (hr : ∀ c ∈ r, p ⟨c, true, false⟩)
    (hp : ∀ a gap, p { a with afterGap := gap } = p a) (b : List Char) :
    ((hole r b).dropWhile p).SameBehindGap ((written b).dropWhile p) := by
  have hd : (hole r b).dropWhile p =
      (⟨markGap r.isEmpty (b.map Glyph.ofScript), r.isEmpty && b.isEmpty⟩ : Fragment).dropWhile p := by
    rw [hole_eq]
    simp only [Fragment.dropWhile]
    rw [List.dropWhile_append_of_pos]
    intro a ha
    obtain ⟨c, hc, hg⟩ := List.mem_map.1 ha
    exact hg ▸ hr c hc
  rw [hd]
  refine SameBehindGap.dropWhile ⟨⟨r.isEmpty, by rw [written_eq]⟩, fun h => ?_⟩ hp
  cases b with
  | nil => simp [written_eq] at h
  | cons c b => simp [written_eq]

theorem dropWhile_hole (hne : r ≠ []) (hr : ∀ c ∈ r, p ⟨c, true, false⟩) (b : List Char) :
    (hole r b).dropWhile p = (written b).dropWhile p := by
  rw [hole_of_ne_nil hne, written_eq]
  simp only [Fragment.dropWhile]
  rw [List.dropWhile_append_of_pos]
  intro a ha
  obtain ⟨c, hc, hg⟩ := List.mem_map.1 ha
  exact hg ▸ hr c hc

end PortalScript.Fragment
