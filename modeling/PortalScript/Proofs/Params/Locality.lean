import PortalScript.Proofs.Fragment.Trim

/-! # What stands before a value

`LeadsTo gs before key w` says that a list that starts with the glyphs `gs` has the entries `before`
and then one under `key` whose value starts with `w`, whatever follows `gs`. Resolved text that is not
blank and belongs to a list is led to by the glyphs before it (`readsList_local`): up to that text,
reading the list takes no notice of what the text is. -/

namespace PortalScript

namespace Params

open Fragment

variable {f rest behind behind' left : Fragment} {g : Glyph} {gs w : List Glyph} {key : String}
  {value : Fragment} {e e' : String × Fragment} {es : List (String × Fragment)}

/-- What stands behind an entry: the end of the list, or a comma and the rest of it. -/
def ReadsTail (f : Fragment) (es : List (String × Fragment)) (rest : Fragment) : Prop :=
  es = [] ∧ f.skipBlank.eat? ']' = some rest ∨
    ∃ next, f.skipBlank.eat? ',' = some next ∧ ReadsList next es rest

theorem readsList_iff : ReadsList f es rest ↔ es = [] ∧ f.skipBlank.eat? ']' = some rest ∨
    ∃ e behind es', es = e :: es' ∧ ReadsEntry f.skipBlank e behind ∧ ReadsTail behind es' rest := by
  constructor
  · intro h
    cases h with
    | close hb => exact .inl ⟨rfl, hb⟩
    | last he hb => exact .inr ⟨_, _, [], rfl, he, .inl ⟨rfl, hb⟩⟩
    | more he hc hl => exact .inr ⟨_, _, _, rfl, he, .inr ⟨_, hc, hl⟩⟩
  · rintro (⟨rfl, hb⟩ | ⟨e, behind, es', rfl, he, ⟨rfl, hb⟩ | ⟨next, hc, hl⟩⟩)
    · exact .close hb
    · exact .last he hb
    · exact .more he hc hl

theorem readsTail_congr (h : ∀ c, behind.skipBlank.eat? c = behind'.skipBlank.eat? c) :
    ReadsTail behind es rest ↔ ReadsTail behind' es rest := by
  unfold ReadsTail
  rw [h ']', h ',']

theorem ReadsTail.isValueOf (h : ReadsTail f es rest) : ∀ e ∈ es, f.IsValueOf e.2 := by
  intro e he
  rcases h with ⟨rfl, -⟩ | ⟨next, hc, hl⟩
  · cases he
  · exact (hl.isValueOf e he).mono
      ((glyphs_of_eat? hc).trans (glyphs_dropWhile _ _)).isInfix

theorem ReadsEntry.unique (h : ReadsEntry f e rest) (h' : ReadsEntry f e' behind) :
    e = e' ∧ rest = behind := by
  have h := scanEntry_ok_iff.2 h
  rw [scanEntry_ok_iff.2 h'] at h
  cases h
  exact ⟨rfl, rfl⟩

theorem ReadsValue.bare_of_mem {a : Glyph} (ho : f.eat? '\'' = none)
    (ha : a ∈ (f.takeWhile isBareGlyph).glyphs) (hb : ¬ a.isBlank) :
    ReadsValue f (f.takeWhile isBareGlyph).trim (f.dropWhile isBareGlyph) := by
  refine .bare ho ?_
  have hm := mem_trim ha hb
  cases ht : (f.takeWhile isBareGlyph).trim.glyphs with
  | nil =>
    rw [ht] at hm
    cases hm
  | cons c gs => simp [isEmpty, ht]

/-- How a value goes on over resolved text: it starts bare with `u` before that text, or with a quote
and then `u`. What is read depends on what the text is, but not where reading ends. -/
inductive Encloses (w : List Glyph) (left : Fragment) : (Fragment → Fragment) → Fragment → Prop
  | bare {s u : List Glyph} (hw : w = s ++ u) (hs : ∀ a ∈ s, a.isBlank)
      (hd : ∀ a ∈ u.head?, ¬ a.isBlank ∧ ¬ a.isWritten '\'') (hu : ∀ a ∈ u, isBareGlyph a) :
      Encloses w left (fun f => ((prepend u f).takeWhile isBareGlyph).trim) (left.dropWhile isBareGlyph)
  | quoted {s u : List Glyph} {q : Glyph} {behind : Fragment} (hw : w = s ++ q :: u)
      (hs : ∀ a ∈ s, a.isBlank) (hq : q.isWritten '\'') (hb : ¬ q.isBlank)
      (hu : ∀ a ∈ u, !a.isWritten '\'')
      (hc : (left.dropUntil '\'').eat? '\'' = some behind)
      (he : behind.skipBlank.startsAt ',' || behind.skipBlank.startsAt ']' || behind.skipBlank.isEmpty) :
      Encloses w left (fun f => ((prepend u f).takeUntil '\'').quote) behind.skipBlank

section
variable (hf : f.Blocked g left)
include hf

theorem readsEntry_local (h : ReadsEntry (prepend gs f).skipBlank e behind) :
    ∃ key w, w <:+ gs ∧ ∀ f : Fragment, (prepend gs f).skipBlank.eat? ']' = none ∧ ∀ e behind,
      ReadsEntry (prepend gs f).skipBlank e behind ↔
        e.1 = key ∧ ReadsValue (prepend w f).skipBlank e.2 behind := by
  have hkey : ¬ isKeyGlyph g := by simp [isKeyGlyph, hf.resolved]
  cases h with
  | @mk inner value _ hk hc hv =>
    rcases passes_or_stops_at (·.isBlank) gs with hgs | ⟨s, d, as, rfl, hs, hd⟩
    · -- the name would start with the resolved text
      rw [skipBlank, dropWhile_prepend hgs, hf.dropWhile_neg hf.not_blank,
        hf.takeWhile_neg hkey] at hk
      exact absurd rfl hk
    · have hskip (f : Fragment) : (prepend (s ++ d :: as) f).skipBlank = prepend (d :: as) f :=
        dropWhile_prepend_stop hs hd as f
      rw [hskip] at hk hc
      rcases passes_or_stops_at isKeyGlyph (d :: as) with hp | ⟨k, c, w, hw, hp, hn⟩
      · -- the resolved text would stand in place of the colon
        rw [dropWhile_prepend hp, hf.dropWhile_neg hkey, hf.skipBlank_eq, hf.eat?_eq_none] at hc
        cases hc
      · rw [hw] at hk hc
        rw [takeWhile_prepend_stop hp hn] at hk
        rw [dropWhile_prepend_stop hp hn] at hc
        obtain ⟨w', hsuf, -, hc'⟩ := hf.eat?_skipBlank hc
        have hcw : c :: w <:+ s ++ d :: as :=
          hw ▸ (List.suffix_append k _).trans (List.suffix_append s _)
        refine ⟨(⟨k, c.afterGap⟩ : Fragment).text, w', hsuf.trans hcw,
          fun f => ⟨?_, fun e behind => ⟨?_, ?_⟩⟩⟩
        · rw [hskip, eat?_prepend_cons, if_neg]
          intro hd
          cases k with
          | nil => exact hk rfl
          | cons c' k =>
            cases hw
            have := hp d List.mem_cons_self
            simp only [isKeyGlyph, Glyph.isWritten, Bool.and_eq_true, decide_eq_true_eq] at this hd
            rw [hd.2] at this
            exact absurd this.2 (by decide)
        · rintro ⟨-, hcol, hv⟩
          rw [hskip, hw] at hcol ⊢
          rw [dropWhile_prepend_stop hp hn, hc'] at hcol
          cases hcol
          rw [takeWhile_prepend_stop hp hn]
          exact ⟨rfl, hv⟩
        · obtain ⟨key, value⟩ := e
          rintro ⟨rfl, hv⟩
          rw [hskip, hw, ← takeWhile_prepend_stop hp hn w f]
          refine .mk ?_ ?_ hv
          · rw [takeWhile_prepend_stop hp hn]
            exact hk
          · rw [dropWhile_prepend_stop hp hn]
            exact hc' f

theorem exists_delimiter (he : (prepend gs f).skipBlank.startsAt ',' ||
      (prepend gs f).skipBlank.startsAt ']' || (prepend gs f).skipBlank.isEmpty) :
    ∃ a as, a :: as <:+ gs ∧ ∀ f : Fragment, (prepend gs f).skipBlank = prepend (a :: as) f := by
  rcases passes_or_stops_at (·.isBlank) gs with hgs | ⟨s, a, as, rfl, hs, ha⟩
  · rw [skipBlank, dropWhile_prepend hgs, hf.dropWhile_neg hf.not_blank] at he
    simp [hf.not_startsAt, hf.not_isEmpty] at he
  · exact ⟨a, as, List.suffix_append s _, dropWhile_prepend_stop hs ha as⟩

/-- A value before resolved text is read whatever that text is, and the text belongs to a value that
is read past it. -/
theorem readsValue_local (h : ReadsValue (prepend w f).skipBlank value rest) :
    (∃ w', w' <:+ w ∧ rest = prepend w' f ∧ (⟨w, false⟩ : Fragment).IsValueOf value ∧
        ∀ f : Fragment, ReadsValue (prepend w f).skipBlank value (prepend w' f)) ∨
      ∃ read, Encloses w left read rest ∧ value = read f := by
  rcases passes_or_stops_at (·.isBlank) w with hw | ⟨s, d, u, rfl, hs, hd⟩
  · rw [skipBlank, dropWhile_prepend hw, hf.dropWhile_neg hf.not_blank] at h
    cases h with
    | quoted ho =>
      rw [hf.eat?_eq_none] at ho
      cases ho
    | bare ho hv =>
      rw [hf.dropWhile_pos hf.isBareGlyph]
      exact .inr ⟨_, .bare (s := w) (u := []) (by simp) hw (by simp) (by simp), rfl⟩
  · have hskip (f : Fragment) : (prepend (s ++ d :: u) f).skipBlank = prepend (d :: u) f :=
      dropWhile_prepend_stop hs hd u f
    rw [hskip] at h
    cases h with
    | quoted ho hc he =>
      obtain ⟨_, _, heq, hq, rfl⟩ := hf.eat?_prepend ho
      cases heq
      rcases hf.eat?_dropUntil hc with ⟨v, q, u, rfl, hv, hq', rfl⟩ | ⟨hu, hc⟩
      · have htake (f : Fragment) := takeUntil_prepend_stop hv hq' u f
        obtain ⟨c, w', hw', hskip'⟩ := exists_delimiter hf he
        have hval : v <:+: s ++ d :: (v ++ q :: u) :=
          (List.prefix_append v _).isInfix.trans (suffix_stop s d _).isInfix
        have hw : c :: w' <:+ s ++ d :: (v ++ q :: u) :=
          hw'.trans ((suffix_stop v q u).trans (suffix_stop s d _))
        refine .inl ⟨c :: w', hw, hskip' f, .inr ⟨_, hval, by rw [htake]⟩, fun f' => ?_⟩
        rw [htake f, ← htake f', ← hskip' f', hskip]
        refine .quoted (by rw [eat?_prepend_cons, if_pos hq])
          (eat?_dropUntil_prepend_stop hv hq' u f') ?_
        rw [hskip'] at he ⊢
        simpa using he
      · exact .inr ⟨_, .quoted rfl hs hq hd hu hc he, rfl⟩
    | bare ho hv =>
      rw [eat?_prepend_cons] at ho
      split at ho
      · cases ho
      rename_i hq
      rcases passes_or_stops_at isBareGlyph (d :: u) with hu | ⟨v, c, w', hw, hv', hc⟩
      · rw [dropWhile_prepend hu, hf.dropWhile_pos hf.isBareGlyph]
        refine .inr ⟨_, .bare rfl hs ?_ hu, rfl⟩
        rintro a ⟨⟩
        exact ⟨hd, hq⟩
      · have htake (f : Fragment) : (prepend (d :: u) f).takeWhile isBareGlyph = ⟨v, c.afterGap⟩ := by
          rw [hw]
          exact takeWhile_prepend_stop hv' hc w' f
        have hdrop (f : Fragment) : (prepend (d :: u) f).dropWhile isBareGlyph = prepend (c :: w') f := by
          rw [hw]
          exact dropWhile_prepend_stop hv' hc w' f
        have hsuf : d :: u <:+ s ++ d :: u := List.suffix_append s _
        have hval : (⟨s ++ d :: u, false⟩ : Fragment).IsValueOf (⟨v, c.afterGap⟩ : Fragment).trim :=
          .inl ((glyphs_trim _).trans ((hw ▸ List.prefix_append v _).isInfix.trans hsuf.isInfix))
        refine .inl ⟨c :: w', (hw ▸ List.suffix_append v _).trans hsuf, hdrop f, by rwa [htake],
          fun f' => ?_⟩
        rw [htake] at hv
        rw [htake f, ← htake f', ← hdrop f', hskip]
        refine .bare (by rw [eat?_prepend_cons, if_neg hq]) ?_
        rwa [htake]

theorem Encloses.readsValue {read : Fragment → Fragment} (h : Encloses w left read behind) :
    ReadsValue (prepend w f).skipBlank (read f) behind := by
  cases h with
  | @bare s u hw hs hd hu =>
    have hskip : (prepend w f).skipBlank = prepend u f := by
      rw [hw, prepend_append, skipBlank, dropWhile_prepend hs]
      cases u with
      | nil => exact hf.skipBlank_eq
      | cons d u => exact dropWhile_prepend_cons (hd d rfl).1 u f
    have ho : (prepend u f).eat? '\'' = none := by
      cases u with
      | nil => exact hf.eat?_eq_none _
      | cons d u => rw [eat?_prepend_cons, if_neg (hd d rfl).2]
    have hg := hf.mem_takeWhile hu hf.isBareGlyph
    have hd : (prepend u f).dropWhile isBareGlyph = left.dropWhile isBareGlyph := by
      rw [dropWhile_prepend hu, hf.dropWhile_pos hf.isBareGlyph]
    rw [hskip, ← hd]
    exact .bare_of_mem ho hg hf.not_blank
  | @quoted s u q behind hw hs hq hb hu hc he =>
    rw [hw, skipBlank, dropWhile_prepend_stop hs hb]
    refine .quoted (by rw [eat?_prepend_cons, if_pos hq]) ?_ he
    rw [dropUntil, dropWhile_prepend hu, hf.dropWhile_pos (hf.not_isWritten '\'')]
    exact hc

end

/-- The glyphs `gs` at the start of a list hold the entries `before` and the start `w` of a value
under `key`. -/
def LeadsTo (gs : List Glyph) (before : List (String × Fragment)) (key : String) (w : List Glyph) :
    Prop :=
  ∀ (f : Fragment) (es : List (String × Fragment)) (rest : Fragment),
    ReadsList (prepend gs f) es rest ↔ ∃ value behind after, es = before ++ (key, value) :: after ∧
      ReadsValue (prepend w f).skipBlank value behind ∧ ReadsTail behind after rest

theorem leadsTo_nil (h : ∀ f : Fragment, (prepend gs f).skipBlank.eat? ']' = none ∧ ∀ e behind,
      ReadsEntry (prepend gs f).skipBlank e behind ↔
        e.1 = key ∧ ReadsValue (prepend w f).skipBlank e.2 behind) : LeadsTo gs [] key w := by
  intro f es rest
  rw [readsList_iff]
  constructor
  · rintro (⟨rfl, hb⟩ | ⟨e, behind, es, rfl, he, ht⟩)
    · rw [(h f).1] at hb
      cases hb
    · obtain ⟨rfl, hv⟩ := ((h f).2 e behind).1 he
      exact ⟨e.2, behind, es, rfl, hv, ht⟩
  · rintro ⟨value, behind, after, rfl, hv, ht⟩
    exact .inr ⟨_, behind, after, rfl, ((h f).2 _ _).2 ⟨rfl, hv⟩, ht⟩

theorem LeadsTo.cons {before : List (String × Fragment)} {as bs : List Glyph}
    (he : ∀ f : Fragment, ReadsEntry (prepend gs f).skipBlank e (prepend as f))
    (hc : ∀ f : Fragment, (prepend as f).skipBlank.eat? ',' = some (prepend bs f))
    (hl : LeadsTo bs before key w) : LeadsTo gs (e :: before) key w := by
  intro f es rest
  rw [readsList_iff]
  constructor
  · rintro (⟨rfl, hb⟩ | ⟨e', behind, es, rfl, he', ⟨rfl, hb⟩ | ⟨next, hc', hr⟩⟩)
    · rw [(he f).eat?_eq_none (by decide)] at hb
      cases hb
    · obtain ⟨rfl, rfl⟩ := he'.unique (he f)
      rw [eat?_eq_none_of_ne (hc f) (by decide)] at hb
      cases hb
    · obtain ⟨rfl, rfl⟩ := he'.unique (he f)
      rw [hc f] at hc'
      cases hc'
      obtain ⟨value, behind, after, rfl, hv, ht⟩ := (hl f _ _).1 hr
      exact ⟨value, behind, after, rfl, hv, ht⟩
  · rintro ⟨value, behind, after, rfl, hv, ht⟩
    refine .inr ⟨e, _, _, rfl, he f, .inr ⟨_, hc f, ?_⟩⟩
    exact (hl f _ _).2 ⟨value, behind, after, rfl, hv, ht⟩

/-- A list ends before resolved text, or that text is led to by the glyphs before it. The entries before
its own do not depend on it. -/
theorem readsList_local (hf : f.Blocked g left) (h : ReadsList (prepend gs f) es rest) :
    (∃ as, rest = prepend as f ∧ ∀ e ∈ es, (⟨gs, false⟩ : Fragment).IsValueOf e.2) ∨
      ∃ before key read after w behind, w <:+ gs ∧ LeadsTo gs before key w ∧
        es = before ++ (key, read f) :: after ∧ Encloses w left read behind ∧
        ReadsTail behind after rest ∧ ∀ e ∈ before, (⟨gs, false⟩ : Fragment).IsValueOf e.2 := by
  generalize hs : prepend gs f = l at h
  induction h generalizing gs with
  | close hb =>
    subst hs
    obtain ⟨as, -, rfl, -⟩ := hf.eat?_skipBlank hb
    exact .inl ⟨as, rfl, by simp⟩
  | @last _ behind rest e he hb =>
    subst hs
    obtain ⟨key, w, hw, hk⟩ := readsEntry_local hf he
    obtain ⟨rfl, hv⟩ := ((hk f).2 e behind).1 he
    rcases readsValue_local hf hv with ⟨w', -, rfl, hval, -⟩ | ⟨read, henc, hr⟩
    · obtain ⟨as, -, rfl, -⟩ := hf.eat?_skipBlank hb
      refine .inl ⟨as, rfl, fun e' he' => ?_⟩
      cases List.mem_singleton.1 he'
      exact hval.mono hw.isInfix
    · exact .inr ⟨[], e.1, read, [], w, behind, hw, leadsTo_nil hk, by rw [← hr]; rfl, henc,
        .inl ⟨rfl, hb⟩, by simp⟩
  | @more _ behind next rest e es he hc hl ih =>
    subst hs
    obtain ⟨key, w, hw, hk⟩ := readsEntry_local hf he
    obtain ⟨rfl, hv⟩ := ((hk f).2 e behind).1 he
    rcases readsValue_local hf hv with ⟨w', hw', rfl, hval, hv'⟩ | ⟨read, henc, hr⟩
    · obtain ⟨as, has, rfl, hc'⟩ := hf.eat?_skipBlank hc
      have hsuf : as <:+ gs := has.trans (hw'.trans hw)
      have hmono {es : List (String × Fragment)}
          (h : ∀ e ∈ es, (⟨as, false⟩ : Fragment).IsValueOf e.2) :
          ∀ e' ∈ e :: es, (⟨gs, false⟩ : Fragment).IsValueOf e'.2 := by
        intro e' he'
        rcases List.mem_cons.1 he' with rfl | he'
        · exact hval.mono hw.isInfix
        · exact (h e' he').mono hsuf.isInfix
      rcases ih rfl with ⟨as', hr, hes⟩ |
          ⟨before, key', read, after, w'', behind, hw'', hl', rfl, henc, ht, hb⟩
      · exact .inl ⟨as', hr, hmono hes⟩
      · refine .inr ⟨e :: before, key', read, after, w'', behind, hw''.trans hsuf, ?_, rfl, henc, ht,
          hmono hb⟩
        exact .cons (fun f => ((hk f).2 e _).2 ⟨rfl, hv' f⟩) hc' hl'
    · exact .inr ⟨[], e.1, read, es, w, behind, hw, leadsTo_nil hk, by rw [← hr]; rfl, henc,
        .inr ⟨next, hc, hl⟩, by simp⟩

end Params

end PortalScript
