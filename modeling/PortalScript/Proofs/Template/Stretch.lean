import PortalScript.Proofs.Template.Separated

/-! # Stretches of source text

A stretch is a run of glyphs of one source piece: written, with no gap inside. Flattening a separated
template makes stretches only of what stands in one piece (`source_of_joined`), and reading pieces
back off glyphs makes pieces only of stretches (`joined_of_source`). So text cut out of a template in
which no marker is found holds no marker either, however it is cut
(`nextMarker_ofFragment_of_infix`). -/

namespace PortalScript

theorem Marker.cut?_eq_none_iff {cs : List Char} :
    Marker.cut? cs = none ↔ ∀ m : Marker, ¬ m.spelling <:+: cs := by
  constructor
  · rintro h m ⟨l, r, rfl⟩
    induction l with
    | nil => cases m <;> simp [cut?, at?, spelling, Text.after?] at h
    | cons c l ih =>
      simp only [List.cons_append, cut?] at h
      split at h
      · cases h
      · exact ih (by simpa using h)
  · intro h
    cases hc : Marker.cut? cs with
    | none => rfl
    | some p =>
      obtain ⟨l, m, r⟩ := p
      exact absurd ⟨l, r, (eq_append_of_cut? hc).symm⟩ (h m)

/-- Glyphs of one source piece: written, and with no gap between two of them. -/
def Joined (w : List Glyph) : Prop :=
  (∀ g ∈ w, g.resolved = false) ∧ ∀ g ∈ w.tail, g.afterGap = false

theorem joined_of_markGap {gap : Bool} {w gs : List Glyph} (hw : Joined w)
    (h : w <:+: Fragment.markGap gap gs) :
    ∃ w', w' <:+: gs ∧ Joined w' ∧ w'.map Glyph.char = w.map Glyph.char := by
  cases gs with
  | nil => exact ⟨w, h, hw, rfl⟩
  | cons g gs =>
    rcases List.infix_cons_iff.1 h with h | h
    · rcases List.prefix_cons_iff.1 h with rfl | ⟨s, rfl, hs⟩
      · exact ⟨[], List.nil_infix, hw, rfl⟩
      · have hg := hw.1 _ List.mem_cons_self
        refine ⟨g :: s, (List.prefix_cons_iff.2 (.inr ⟨s, rfl, hs⟩)).isInfix, ⟨?_, hw.2⟩, rfl⟩
        intro a ha
        rcases List.mem_cons.1 ha with rfl | ha
        · exact hg
        · exact hw.1 _ (List.mem_cons_of_mem _ ha)
    · exact ⟨w, List.infix_cons_iff.2 (.inr h), hw, rfl⟩

namespace Template

variable {t : Template}

theorem nextMarker_eq_none_iff :
    t.nextMarker = none ↔ ∀ text, .source text ∈ t → Marker.cut? text = none := by
  induction t with
  | nil => simp [nextMarker]
  | cons p t ih =>
    cases p with
    | resolved text => simp [nextMarker, ih]
    | source text =>
      simp only [nextMarker, List.mem_cons, Piece.source.injEq]
      split <;> rename_i hc
      · simp only [reduceCtorEq, false_iff]
        exact fun h => by simp [h text (.inl rfl)] at hc
      · rw [Option.map_eq_none_iff, ih]
        refine ⟨?_, fun h text ht => h text (.inr ht)⟩
        rintro h text (rfl | ht)
        · exact hc
        · exact h text ht

theorem resolved_or_afterGap (ht : ∀ p ∈ t.head?, ¬ p.isSource) :
    ∀ g ∈ t.fragment.glyphs.head?, g.resolved ∨ g.afterGap := by
  match t, ht with
  | [], _ => simp [fragment, EmptyCollection.emptyCollection]
  | .source text :: t, ht => exact absurd rfl (ht _ rfl)
  | .resolved [] :: t, _ =>
    rw [fragment, Fragment.glyphs_append]
    cases (fragment t).glyphs <;> simp [Piece.fragment, Fragment.ofText, Fragment.markGap]
  | .resolved (c :: cs) :: t, _ =>
    rw [fragment, Fragment.glyphs_append]
    simp [Piece.fragment, Fragment.ofText]

/-- Every stretch of a separated template, flattened, stands in one of its source pieces. -/
theorem source_of_joined (ht : Separated t) {w : List Glyph} (hw : Joined w) (hne : w ≠ [])
    (h : w <:+: t.fragment.glyphs) : ∃ text, .source text ∈ t ∧ w.map Glyph.char <:+: text := by
  induction t generalizing w with
  | nil => exact absurd (List.infix_nil.1 h) hne
  | cons p t ih =>
    rw [fragment, Fragment.glyphs_append] at h
    have hrest {w : List Glyph} (hw : Joined w) (hne : w ≠ [])
        (h : w <:+: Fragment.markGap p.fragment.gapAtEnd (fragment t).glyphs) :
        ∃ text, .source text ∈ p :: t ∧ w.map Glyph.char <:+: text := by
      obtain ⟨w', h', hw', hc⟩ := joined_of_markGap hw h
      have hne' : w' ≠ [] := by
        rintro rfl
        exact hne (List.map_eq_nil_iff.1 hc.symm)
      obtain ⟨text, hm, hi⟩ := ih ht.of_cons hw' hne' h'
      exact ⟨text, List.mem_cons_of_mem _ hm, hc ▸ hi⟩
    cases p with
    | resolved text =>
      -- a glyph of the resolved piece is in no stretch
      have hr : ∀ g ∈ w, g ∉ (Piece.resolved text).fragment.glyphs := by
        intro g hg hm
        obtain ⟨c, -, rfl⟩ := List.mem_map.1 hm
        cases hw.1 _ hg
      rcases List.infix_append_iff_ne_nil.1 h with h | h | ⟨l, r, hl, -, rfl, hs, -⟩
      · exact absurd (h.subset (List.head_mem hne)) (hr _ (List.head_mem hne))
      · exact hrest hw hne h
      · obtain ⟨g, l, rfl⟩ := List.exists_cons_of_ne_nil hl
        exact absurd (hs.subset List.mem_cons_self) (hr g List.mem_cons_self)
    | source text =>
      rcases List.infix_append_iff_ne_nil.1 h with h | h | ⟨l, r, hl, hr, rfl, -, hp⟩
      · have hi := h.map Glyph.char
        rw [show (Piece.source text).fragment.glyphs.map Glyph.char = text by
          simp [Piece.fragment, Fragment.ofText, Function.comp_def]] at hi
        exact ⟨text, List.mem_cons_self, hi⟩
      · exact hrest hw hne h
      · -- the stretch would go on in the piece behind, which is not source
        obtain ⟨a, l, rfl⟩ := List.exists_cons_of_ne_nil hl
        obtain ⟨b, r, rfl⟩ := List.exists_cons_of_ne_nil hr
        have hb := resolved_or_afterGap ht.isSource_head b
        have h1 : b.resolved = false := hw.1 b (by simp)
        have h2 : b.afterGap = false := hw.2 b (by simp)
        cases hf : (fragment t).glyphs with
        | nil => simp [hf, Fragment.markGap] at hp
        | cons g gs =>
          rw [hf] at hp hb
          obtain ⟨rfl, -⟩ := List.cons_prefix_cons.1 hp
          simp [Piece.fragment, Fragment.ofText] at h1 h2 hb
          simp_all

theorem stretch_of_attach {gap : Bool} {g : Glyph} {gs : List Glyph} {text : List Char}
    {rest : Template} (h : Piece.attach g (ofGlyphs gap gs) = .source text :: rest) :
    g.resolved = false ∧ ∃ w, w <+: gs ∧ (∀ a ∈ w, a.resolved = false ∧ a.afterGap = false) ∧
      text = g.char :: w.map Glyph.char := by
  induction gs generalizing g text rest with
  | nil =>
    cases gap <;> cases hg : g.resolved <;> simp [ofGlyphs, Piece.attach, hg] at h
    all_goals exact ⟨rfl, [], List.nil_prefix, by simp, h.1.symm⟩
  | cons a gs ih =>
    rw [ofGlyphs] at h
    split at h <;> rename_i ha
    · cases hg : g.resolved <;> simp [Piece.attach, hg] at h
      exact ⟨rfl, [], List.nil_prefix, by simp, h.1.symm⟩
    · match hp : Piece.attach a (ofGlyphs gap gs) with
      | [] | .resolved _ :: _ =>
        rw [hp] at h
        cases hg : g.resolved <;> simp [Piece.attach, hg] at h
        exact ⟨rfl, [], List.nil_prefix, by simp, h.1.symm⟩
      | .source text' :: rest' =>
        obtain ⟨hr, w, hw, hj, rfl⟩ := ih hp
        rw [hp] at h
        cases hg : g.resolved <;> simp [Piece.attach, hg] at h
        refine ⟨rfl, a :: w, List.cons_prefix_cons.2 ⟨rfl, hw⟩, ?_, h.1.symm⟩
        intro b hb
        rcases List.mem_cons.1 hb with rfl | hb
        · exact ⟨hr, by simpa [hr] using ha⟩
        · exact hj b hb

theorem mem_attach_of_mem_ofGlyphs {gap : Bool} {g : Glyph} {gs : List Glyph} {text : List Char}
    (h : .source text ∈ ofGlyphs gap (g :: gs)) :
    .source text ∈ Piece.attach g (ofGlyphs gap gs) := by
  rw [ofGlyphs] at h
  split at h
  · simpa using h
  · exact h

theorem source_mem_attach {g : Glyph} {t : Template} {text : List Char}
    (h : .source text ∈ Piece.attach g t) :
    .source text ∈ t ∨ ∃ rest, Piece.attach g t = .source text :: rest := by
  match t with
  | [] => cases hg : g.resolved <;> simp_all [Piece.attach]
  | .source s :: t => cases hg : g.resolved <;> simp_all [Piece.attach]; tauto
  | .resolved s :: t => cases hg : g.resolved <;> simp_all [Piece.attach]; tauto

theorem joined_of_source {gap : Bool} {gs : List Glyph} {text : List Char}
    (h : .source text ∈ ofGlyphs gap gs) : ∃ w, w <:+: gs ∧ Joined w ∧ w.map Glyph.char = text := by
  induction gs with
  | nil => cases gap <;> simp [ofGlyphs] at h
  | cons g gs ih =>
    rcases source_mem_attach (mem_attach_of_mem_ofGlyphs h) with h | ⟨rest, h⟩
    · obtain ⟨w, hw, hj, hc⟩ := ih h
      exact ⟨w, List.infix_cons_iff.2 (.inr hw), hj, hc⟩
    · obtain ⟨hg, w, hw, hj, rfl⟩ := stretch_of_attach h
      refine ⟨g :: w, (List.cons_prefix_cons.2 ⟨rfl, hw⟩).isInfix, ⟨?_, fun a ha => (hj a ha).2⟩, rfl⟩
      intro a ha
      rcases List.mem_cons.1 ha with rfl | ha
      · exact hg
      · exact (hj a ha).1

theorem nextMarker_ofFragment_of_infix (ht : Separated t) (hn : t.nextMarker = none) {f : Fragment}
    (hf : f.glyphs <:+: t.fragment.glyphs) : (ofFragment f).nextMarker = none := by
  rw [nextMarker_eq_none_iff]
  intro text h
  obtain ⟨w, hw, hj, rfl⟩ := joined_of_source h
  by_cases hne : w = []
  · subst hne; rfl
  · obtain ⟨text, hm, hi⟩ := source_of_joined ht hj hne (hw.trans hf)
    have hc := Marker.cut?_eq_none_iff.1 (nextMarker_eq_none_iff.1 hn text hm)
    exact Marker.cut?_eq_none_iff.2 fun m hm => hc m (hm.trans hi)

end Template

end PortalScript
