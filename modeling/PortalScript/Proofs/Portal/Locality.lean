import PortalScript.Proofs.Params.Locality

/-! # What stands before the parameters of a portal

`OpensTo gs head list` says that a portal that starts with the glyphs `gs` has the head `head` and a
parameter list of which `list` is the start, whatever follows `gs`. Resolved text that is not blank and
belongs to a portal with parameters has the head before it (`reads_action_local`) or else is text of the
template's id (`reads_data_local`). -/

namespace PortalScript.Portal

open Fragment

variable {f left : Fragment} {g : Glyph} {gs list w : List Glyph} {head h : Head} {key : String}
  {es before : List (String × Fragment)}

/-- The glyphs `gs` at the start of a portal hold its head and the start `list` of its list. -/
def OpensTo (gs : List Glyph) (head : Head) (list : List Glyph) : Prop :=
  ∀ (f : Fragment) (h : Head) (es : List (String × Fragment)), Reads (prepend gs f) h es ↔
    h = head ∧ ∃ rest, Params.ReadsList (prepend list f) es rest ∧ rest.skipBlank.isEmpty

theorem readsParams_prepend_iff {rest : Fragment}
    (ho : (prepend gs f).skipBlank.eat? '[' = some (prepend list f)) :
    ReadsParams (prepend gs f) es rest ↔ Params.ReadsList (prepend list f) es rest := by
  constructor
  · intro h
    cases h with
    | none hn => exact absurd (startsAt_iff.2 ⟨_, ho⟩) hn
    | list ho' hl =>
      rw [ho] at ho'
      cases ho'
      exact hl
  · exact .list ho

/-- The glyphs before a list settle all of the portal but what is read from there on. -/
theorem OpensTo.reads_iff (ho : OpensTo gs head list) (hl : Params.LeadsTo list before key w)
    (f : Fragment) : Reads (prepend gs f) h es ↔ h = head ∧ ∃ value behind after rest,
      es = before ++ (key, value) :: after ∧
      Params.ReadsValue (prepend w f).skipBlank value behind ∧
      Params.ReadsTail behind after rest ∧ rest.skipBlank.isEmpty := by
  rw [ho f h es]
  constructor
  · rintro ⟨rfl, rest, hr, he⟩
    obtain ⟨value, behind, after, rfl, hv, ht⟩ := (hl f es rest).1 hr
    exact ⟨rfl, value, behind, after, rest, rfl, hv, ht, he⟩
  · rintro ⟨rfl, value, behind, after, rest, rfl, hv, ht, he⟩
    exact ⟨rfl, rest, (hl f _ rest).2 ⟨value, behind, after, rfl, hv, ht⟩, he⟩

section
variable (hf : f.Blocked g left)
include hf

theorem ReadsParams.opensTo {rest : Fragment} (h : ReadsParams (prepend gs f) es rest) (hes : es ≠ []) :
    ∃ list, list <:+ gs ∧
      ∀ f : Fragment, (prepend gs f).skipBlank.eat? '[' = some (prepend list f) := by
  cases h with
  | none => exact absurd rfl hes
  | list ho hl =>
    obtain ⟨list, hs, -, ho'⟩ := hf.eat?_skipBlank ho
    exact ⟨list, hs, ho'⟩

theorem reads_data_local {inner behind rest : Fragment} (ho : (prepend gs f).eat? '\'' = some inner)
    (hc : (inner.dropUntil '\'').eat? '\'' = some behind)
    (hi : ¬ Text.allBlank (inner.takeUntil '\'').chars) (hp : ReadsParams behind es rest)
    (hes : es ≠ []) : (∃ list, list <:+ gs ∧ OpensTo gs (.data (inner.takeUntil '\'').text) list) ∨
      ∃ q u, gs = q :: u ∧ q.isWritten '\'' ∧ (∀ a ∈ u, !a.isWritten '\'') ∧
        (left.dropUntil '\'').eat? '\'' = some behind := by
  obtain ⟨q, as, rfl, hq, rfl⟩ := hf.eat?_prepend ho
  rcases hf.eat?_dropUntil hc with ⟨u, q', as, rfl, hu, hq', rfl⟩ | ⟨hu, hc⟩
  · have ht (f : Fragment) := takeUntil_prepend_stop hu hq' as f
    have hd (f : Fragment) := eat?_dropUntil_prepend_stop hu hq' as f
    obtain ⟨list, hs, ho'⟩ := hp.opensTo hf hes
    have hsuf : list <:+ q :: (u ++ q' :: as) :=
      hs.trans ((suffix_stop u q' as).trans (List.suffix_cons q _))
    rw [ht] at hi ⊢
    refine .inl ⟨list, hsuf, fun f h es => ⟨fun hr => ?_, ?_⟩⟩
    · cases hr with
      | data ho hc hi hp he =>
        rw [eat?_prepend_cons, if_pos hq] at ho
        cases ho
        rw [hd] at hc
        cases hc
        rw [ht]
        exact ⟨rfl, _, (readsParams_prepend_iff (ho' f)).1 hp, he⟩
      | action ho =>
        rw [eat?_eq_none_of_ne (eat?_prepend_cons .. ▸ if_pos hq) (by decide)] at ho
        cases ho
    · rintro ⟨rfl, rest, hl, he⟩
      rw [← ht f] at hi ⊢
      exact .data (by rw [eat?_prepend_cons, if_pos hq]) (hd f) hi
        ((readsParams_prepend_iff (ho' f)).2 hl) he
  · exact .inr ⟨q, as, rfl, hq, hu, hc⟩

theorem exists_reads_id {q : Glyph} {u : List Glyph} {behind rest : Fragment} (hq : q.isWritten '\'')
    (hu : ∀ a ∈ u, !a.isWritten '\'') (hc : (left.dropUntil '\'').eat? '\'' = some behind)
    (hp : ReadsParams behind es rest) (he : rest.skipBlank.isEmpty) :
    ∃ id, Reads (prepend (q :: u) f) (.data id) es := by
  have ho : (prepend (q :: u) f).eat? '\'' = some (prepend u f) := by
    rw [eat?_prepend_cons, if_pos hq]
  have hc : ((prepend u f).dropUntil '\'').eat? '\'' = some behind := by
    rw [dropUntil, dropWhile_prepend hu, hf.dropWhile_pos (hf.not_isWritten '\'')]
    exact hc
  have hi : ¬ Text.allBlank ((prepend u f).takeUntil '\'').chars := by
    intro h
    have hm := hf.mem_takeWhile hu (hf.not_isWritten '\'')
    exact hf.not_blank (List.all_eq_true.1 h _ (List.mem_map_of_mem hm))
  exact ⟨_, .data ho hc hi hp he⟩

theorem reads_action_local {inner rest : Fragment} {conduit : Option String} {target : TurnRef}
    {act : Action} (ho : (prepend gs f).eat? '@' = some inner)
    (hw : ¬ (inner.takeWhile isHeadGlyph).glyphs.any (·.resolved))
    (hh : readHead (inner.takeWhile isHeadGlyph).chars = .ok (conduit, target, act))
    (hp : ReadsParams (inner.dropWhile isHeadGlyph) es rest) (hes : es ≠ []) :
    ∃ list, list <:+ gs ∧ OpensTo gs (.action conduit target act) list := by
  obtain ⟨q, as, rfl, hq, rfl⟩ := hf.eat?_prepend ho
  rcases passes_or_stops_at isHeadGlyph as with hu | ⟨u, c, as, rfl, hu, hc⟩
  · have hg : isHeadGlyph g := by simp [isHeadGlyph, hf.resolved]
    exact absurd (List.any_eq_true.2 ⟨g, hf.mem_takeWhile hu hg, hf.resolved⟩) hw
  · have ht (f : Fragment) := takeWhile_prepend_stop hu hc as f
    have hd (f : Fragment) := dropWhile_prepend_stop hu hc as f
    rw [ht] at hw hh
    rw [hd] at hp
    obtain ⟨list, hs, ho'⟩ := hp.opensTo hf hes
    have hsuf : list <:+ q :: (u ++ c :: as) :=
      hs.trans ((List.suffix_append u _).trans (List.suffix_cons q _))
    refine ⟨list, hsuf, fun f h es => ⟨fun hr => ?_, ?_⟩⟩
    · cases hr with
      | data ho =>
        rw [eat?_eq_none_of_ne (eat?_prepend_cons .. ▸ if_pos hq) (by decide)] at ho
        cases ho
      | action ho hw' hh' hp he =>
        rw [eat?_prepend_cons, if_pos hq] at ho
        cases ho
        rw [ht, hh] at hh'
        cases hh'
        rw [hd] at hp
        exact ⟨rfl, _, (readsParams_prepend_iff (ho' f)).1 hp, he⟩
    · rintro ⟨rfl, rest, hl, he⟩
      refine .action (by rw [eat?_prepend_cons, if_pos hq]) ?_ ?_ ?_ he
      · rwa [ht]
      · rwa [ht]
      · rw [hd]
        exact (readsParams_prepend_iff (ho' f)).2 hl

end

end PortalScript.Portal
