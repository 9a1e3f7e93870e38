import PortalScript.Proofs.Fragment.Trim
import PortalScript.Proofs.Params.Locality
import PortalScript.Template

/-! # Resolved text put between glyphs

`inserted gap r f` is resolved text `r` before a fragment `f`. Trimming what it stands in takes blanks
away from both ends and does not come to `r`, if there is text that is not blank on both sides
(`trim_inserted`). -/

namespace PortalScript

namespace Fragment
variable {f : Fragment} {gs : List Glyph} {a g : Glyph} {gap : Bool} {r : List Char} {c x : Char}

theorem empty_append (f : Fragment) : (∅ : Fragment) ++ f = f := written_nil_append f

theorem append_empty (f : Fragment) : f ++ (∅ : Fragment) = f := by
  show append f ∅ = f
  simp [append, EmptyCollection.emptyCollection]

theorem append_assoc (f g h : Fragment) : f ++ g ++ h = f ++ (g ++ h) := by
  show append (append f g) h = append f (append g h)
  obtain ⟨gs, _⟩ := g
  obtain ⟨hs, _⟩ := h
  cases gs <;> cases hs <;> simp [append, Bool.or_assoc]

theorem append_eq_prepend (f g : Fragment) : f ++ g = prepend f.glyphs (⟨[], f.gapAtEnd⟩ ++ g) := by
  show append f g = prepend f.glyphs (append _ g)
  obtain ⟨gs, _⟩ := g
  cases gs <;> simp [append, prepend]

/-- Resolved text before a fragment and, if `gap` says so, behind a gap. -/
def inserted (gap : Bool) (r : List Char) (f : Fragment) : Fragment :=
  ⟨[], gap⟩ ++ (ofText r true ++ f)

theorem inserted_cons (gap : Bool) (c : Char) (r : List Char) (f : Fragment) :
    inserted gap (c :: r) f = prepend (⟨c, true, gap⟩ :: r.map (⟨·, true, false⟩)) f := by
  show append _ (append _ _) = _
  obtain ⟨gs, _⟩ := f
  cases gs <;> simp [append, prepend, ofText]

theorem inserted_nil_prepend (gap : Bool) (a : Glyph) (gs : List Glyph) (f : Fragment) :
    inserted gap [] (prepend (a :: gs) f) = prepend ({ a with afterGap := true } :: gs) f := by
  cases gap <;> rfl

theorem mem_markGap {b : Bool} {gs : List Glyph} (h : g ∈ markGap b gs) :
    ∃ a ∈ gs, ∃ gap, g = { a with afterGap := gap } := by
  cases gs with
  | nil => cases h
  | cons a gs =>
    rcases List.mem_cons.1 h with rfl | h
    · exact ⟨a, List.mem_cons_self, _, rfl⟩
    · exact ⟨g, List.mem_cons_of_mem a h, g.afterGap, rfl⟩

theorem map_char_markGap (b : Bool) (gs : List Glyph) :
    (markGap b gs).map (·.char) = gs.map (·.char) := by
  cases gs <;> rfl

theorem text_append (f g : Fragment) : (f ++ g).text = f.text ++ g.text := by
  rw [text, chars, glyphs_append, List.map_append, map_char_markGap, String.ofList_append]
  rfl

@[simp] theorem text_ofText (text : List Char) (resolved : Bool) :
    (ofText text resolved).text = .ofList text := by
  simp [Fragment.text, chars, ofText, Function.comp_def]

/-- Resolved text and the glyphs behind it, with the gap that an empty text leaves. -/
def insertedRun (gap : Bool) (r : List Char) (t : List Glyph) : List Glyph :=
  markGap gap (r.map (⟨·, true, false⟩)) ++ markGap r.isEmpty t

theorem mem_insertedRun {t : List Glyph} (h : g ∈ insertedRun gap r t) :
    g.resolved ∧ g.char ∈ r ∨ ∃ a ∈ t, ∃ gap, g = { a with afterGap := gap } := by
  rcases List.mem_append.1 h with h | h
  · obtain ⟨a, ha, gap, rfl⟩ := mem_markGap h
    obtain ⟨c, hc, rfl⟩ := List.mem_map.1 ha
    exact .inl ⟨rfl, hc⟩
  · exact .inr (mem_markGap h)

theorem map_char_insertedRun (gap : Bool) (r : List Char) (t : List Glyph) :
    (insertedRun gap r t).map (·.char) = r ++ t.map (·.char) := by
  rw [insertedRun, List.map_append, map_char_markGap, map_char_markGap]
  simp [Function.comp_def]

theorem inserted_prepend (gap : Bool) (r : List Char) (t as : List Glyph) (d : Glyph) (f : Fragment) :
    inserted gap r (prepend (t ++ d :: as) f) = prepend (insertedRun gap r t)
      (prepend ({ d with afterGap := r.isEmpty && t.isEmpty || d.afterGap } :: as) f) := by
  cases r with
  | nil =>
    rw [← prepend_append]
    cases t with
    | nil => exact inserted_nil_prepend gap d as f
    | cons b t =>
      rw [List.cons_append, inserted_nil_prepend]
      simp [insertedRun, markGap]
  | cons c r =>
    rw [inserted_cons, ← prepend_append, ← prepend_append]
    cases t <;> simp [insertedRun, markGap]

theorem blocked_inserted (hx : ¬ Text.isBlank x) (gap : Bool) (f : Fragment) :
    (inserted gap [x] f).Blocked ⟨x, true, gap⟩ f :=
  ⟨inserted_cons gap x [] f, rfl, hx⟩

/-- The fragment without its trailing blanks. -/
def trimRight (f : Fragment) : Fragment :=
  ⟨(trimEnd f.gapAtEnd f.glyphs).1, (trimEnd f.gapAtEnd f.glyphs).2⟩

theorem trim_eq_trimRight (h : f.skipBlank.glyphs ≠ []) : f.trim = f.skipBlank.trimRight := by
  unfold trim
  split <;> rename_i hd
  · exact absurd hd h
  · rfl

theorem trimRight_cons (h : ∃ b ∈ a :: f.glyphs, ¬ b.isBlank) :
    (prepend [a] f).trimRight = prepend [a] f.trimRight := by
  have ht : trimEnd f.gapAtEnd (a :: f.glyphs) =
      (a :: (trimEnd f.gapAtEnd f.glyphs).1, (trimEnd f.gapAtEnd f.glyphs).2) := by
    rw [trimEnd]
    split <;> rename_i hn <;> rw [hn]
    rw [if_neg]
    intro ha
    obtain ⟨b, hb, hn'⟩ := h
    rcases List.mem_cons.1 hb with rfl | hb
    · exact hn' ha
    · have hm : b ∈ (trimEnd f.gapAtEnd f.glyphs).1 := mem_trimEnd hb hn'
      rw [hn] at hm
      cases hm
  unfold trimRight prepend
  rw [List.singleton_append, ht]
  rfl

theorem trimRight_prepend (h : ∃ b ∈ f.glyphs, ¬ b.isBlank) (gs : List Glyph) :
    (prepend gs f).trimRight = prepend gs f.trimRight := by
  obtain ⟨b, hb, hn⟩ := h
  have hne : (trimEnd f.gapAtEnd f.glyphs).1 ≠ [] := List.ne_nil_of_mem (mem_trimEnd hb hn)
  unfold trimRight prepend
  rw [trimEnd_append gs hne]

theorem trimRight_inserted (h : ∃ b ∈ f.glyphs, ¬ b.isBlank) (gap : Bool) (r : List Char) :
    (inserted gap r f).trimRight = inserted gap r f.trimRight := by
  cases r with
  | nil =>
    obtain ⟨gs, e⟩ := f
    cases gs with
    | nil =>
      obtain ⟨b, hb, -⟩ := h
      cases hb
    | cons a gs =>
      have h' : ∃ b ∈ { a with afterGap := true } :: gs, ¬ b.isBlank := by
        simpa [Glyph.isBlank] using h
      calc (inserted gap [] (prepend [a] ⟨gs, e⟩)).trimRight
        _ = (prepend [{ a with afterGap := true }] ⟨gs, e⟩).trimRight := by rw [inserted_nil_prepend]
        _ = prepend [{ a with afterGap := true }] (⟨gs, e⟩ : Fragment).trimRight := trimRight_cons h'
        _ = inserted gap [] (prepend [a] (⟨gs, e⟩ : Fragment).trimRight) := by
          rw [inserted_nil_prepend]
        _ = inserted gap [] (prepend [a] ⟨gs, e⟩).trimRight := by rw [trimRight_cons h]
  | cons c r => rw [inserted_cons, trimRight_prepend h, inserted_cons]

theorem skipBlank_prepend (hg : ¬ g.isBlank) (gs as : List Glyph) (f : Fragment) :
    (prepend gs (prepend (g :: as) f)).skipBlank =
      prepend (gs.dropWhile (·.isBlank)) (prepend (g :: as) f) := by
  unfold skipBlank dropWhile prepend
  rw [List.dropWhile_append, List.cons_append, List.dropWhile_cons_of_neg hg]
  split <;> rename_i he
  · rw [List.isEmpty_iff.1 he]
    rfl
  · rfl

theorem trim_prepend (hg : ¬ g.isBlank) (gs : List Glyph) (f : Fragment) :
    (prepend gs (prepend [g] f)).trim =
      prepend (gs.dropWhile (·.isBlank)) (prepend [g] f.trimRight) := by
  have hs := skipBlank_prepend hg gs [] f
  rw [trim_eq_trimRight, hs, trimRight_prepend ⟨g, List.mem_cons_self, hg⟩,
    trimRight_cons ⟨g, List.mem_cons_self, hg⟩]
  rw [hs]
  simp [prepend]

/-- What resolved text stands in is trimmed on both sides of it, if not all is blank there. -/
theorem trim_inserted (hgs : gs.dropWhile (·.isBlank) ≠ []) (hf : ∃ b ∈ f.glyphs, ¬ b.isBlank)
    (gap : Bool) (r : List Char) : (prepend gs (inserted gap r f)).trim =
      prepend (gs.dropWhile (·.isBlank)) (inserted gap r f.trimRight) := by
  have hs : (prepend gs (inserted gap r f)).skipBlank =
      prepend (gs.dropWhile (·.isBlank)) (inserted gap r f) := by
    unfold skipBlank dropWhile prepend
    rw [List.dropWhile_append, if_neg (by simpa using hgs)]
  have hr : ∃ b ∈ (inserted gap r f).glyphs, ¬ b.isBlank := by
    obtain ⟨b, hb, hn⟩ := hf
    cases r with
    | nil =>
      obtain ⟨_ | ⟨a, gs⟩, e⟩ := f
      · cases hb
      · have he := inserted_nil_prepend gap a gs ⟨[], e⟩
        rw [prepend, prepend, List.append_nil, List.append_nil] at he
        rw [he]
        have h : ∃ b ∈ a :: gs, ¬ b.isBlank := ⟨b, hb, hn⟩
        simpa [Glyph.isBlank] using h
    | cons c r =>
      rw [inserted_cons]
      exact ⟨b, List.mem_append_right _ hb, hn⟩
  rw [trim_eq_trimRight, hs, trimRight_prepend hr, trimRight_inserted hf]
  rw [hs]
  simp [prepend, hgs]

theorem isBlank_of_trimRight (h : f.trimRight.glyphs = []) : ∀ g ∈ f.glyphs, g.isBlank := by
  intro g hg
  by_contra hb
  have hm : g ∈ f.trimRight.glyphs := mem_trimEnd hg hb
  rw [h] at hm
  cases hm

theorem gapAtStart_skipBlank_inserted (hr : Text.allBlank r) {t : List Glyph} (ht : ∀ a ∈ t, a.isBlank)
    (hd : ¬ a.isBlank) (gap : Bool) (as : List Glyph) (f : Fragment) :
    (inserted gap r (prepend (t ++ a :: as) f)).skipBlank.gapAtStart =
      (r.isEmpty && t.isEmpty || a.afterGap) := by
  have hm : ∀ b ∈ insertedRun gap r t, b.isBlank := by
    intro b hb
    rcases mem_insertedRun hb with ⟨-, hc⟩ | ⟨b', hb', gap, rfl⟩
    · exact List.all_eq_true.1 hr _ hc
    · exact ht b' hb'
  have hd' : ¬ Glyph.isBlank { a with afterGap := r.isEmpty && t.isEmpty || a.afterGap } := hd
  rw [inserted_prepend, skipBlank_prepend hd', List.dropWhile_eq_nil_iff.2 hm]
  rfl

theorem gapAtStart_skipBlank_inserted_nil (hf : ∀ b ∈ f.glyphs.head?, ¬ b.isBlank) (gap : Bool) :
    (inserted gap [] f).skipBlank.gapAtStart := by
  obtain ⟨gs, e⟩ := f
  cases gs with
  | nil => cases gap <;> rfl
  | cons b gs =>
    have h := gapAtStart_skipBlank_inserted (r := []) rfl (t := []) (by simp) (hf b rfl) gap gs ⟨[], e⟩
    rw [prepend, List.append_nil] at h
    exact h

/-- Where blank text is put, it is the same gap that is left with and without the blanks at the end. -/
theorem gapAtStart_skipBlank_trimRight (hr : Text.allBlank r) (hf : ∃ b ∈ f.glyphs, ¬ b.isBlank)
    (gap gap' : Bool) : (inserted gap r f.trimRight).skipBlank.gapAtStart =
      (inserted gap' r f).skipBlank.gapAtStart := by
  rcases passes_or_stops_at (·.isBlank) f.glyphs with hp | ⟨t, d, ds, hg, ht, hd⟩
  · obtain ⟨b, hb, hn⟩ := hf
    exact absurd (hp b hb) hn
  · have hfull : f = prepend (t ++ d :: ds) ⟨[], f.gapAtEnd⟩ := by
      rw [prepend, List.append_nil, ← hg]
    have htrim : f.trimRight = prepend (t ++ [d]) (prepend ds ⟨[], f.gapAtEnd⟩).trimRight := by
      rw [hfull, ← List.singleton_append, prepend_append, prepend_append,
        trimRight_prepend ⟨d, List.mem_cons_self, hd⟩, trimRight_cons ⟨d, List.mem_cons_self, hd⟩,
        ← prepend_append]
      rfl
    rw [htrim, gapAtStart_skipBlank_inserted hr ht hd]
    conv_rhs => rw [hfull, gapAtStart_skipBlank_inserted hr ht hd]

end Fragment

namespace Template

theorem fragment_nil : fragment [] = ∅ := rfl

theorem fragment_cons (p : Piece) (t : Template) : fragment (p :: t) = p.fragment ++ fragment t := rfl

theorem fragment_append (a b : Template) : fragment (a ++ b) = fragment a ++ fragment b := by
  induction a with
  | nil => exact (Fragment.empty_append _).symm
  | cons p a ih =>
    rw [List.cons_append, fragment, fragment, ih, Fragment.append_assoc]

theorem text_fragment (t : Template) : t.fragment.text = t.render := by
  induction t with
  | nil => rfl
  | cons p t ih =>
    rw [fragment, Fragment.text_append, ih, render, render, List.flatMap_cons, String.ofList_append]
    cases p <;> rw [Piece.fragment, Fragment.text_ofText, Piece.chars]

theorem fragment_around (before after : Template) (r : List Char) :
    fragment (before ++ .resolved r :: after) = Fragment.prepend before.fragment.glyphs
      (Fragment.inserted before.fragment.gapAtEnd r after.fragment) := by
  rw [fragment_append, Fragment.append_eq_prepend]
  rfl

end Template

end PortalScript
