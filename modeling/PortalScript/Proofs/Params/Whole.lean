import PortalScript.Proofs.Fragment.Insert
import PortalScript.Proofs.Text.Trim

/-! # Values that are resolved as a whole

`Frames w left quoted behind` says that a value is all resolved: only blanks stand before it and only
blanks and then a delimiter behind it, or it stands between quotes. Between quotes any text is read, and
as it is. Bare text is read without the blanks at its ends, and if it is blank only where a gap stands
right before the delimiter (`Frames.exists_readsValue`, `Frames.gap_of_readsValue`). -/

namespace PortalScript

namespace Fragment
variable {f : Fragment} {g : Glyph} {gs : List Glyph}

theorem startsResolved_trim (h : f.glyphs = g :: gs) (hr : g.resolved) (hb : ¬ g.isBlank) :
    f.trim.startsResolved ∧ ∃ gs', f.trim.glyphs = g :: gs' := by
  have hh := head?_trim h hb
  refine ⟨?_, List.head?_eq_some_iff.1 hh⟩
  rw [startsResolved, hh]
  exact hr

theorem quote_eq (f : Fragment) : f.quote = prepend [⟨'\'', false, false⟩]
    (prepend (f.glyphs.map (·.closeGap)) (prepend [⟨'\'', false, false⟩] ∅)) := by
  simp [quote, prepend, EmptyCollection.emptyCollection]

theorem trim_quote (f : Fragment) : f.quote.trim = f.quote := by
  have hq : ¬ Glyph.isBlank ⟨'\'', false, false⟩ := by decide
  have h := trim_prepend hq [] (prepend (f.glyphs.map (·.closeGap)) (prepend [⟨'\'', false, false⟩] ∅))
  rw [trimRight_prepend ⟨_, List.mem_cons_self, hq⟩, trimRight_cons ⟨_, List.mem_cons_self, hq⟩] at h
  rw [quote_eq]
  exact h

theorem chars_quote (f : Fragment) : f.quote.unquoted = .ofList f.chars := by
  simp [quote, unquoted, chars, Glyph.closeGap, Function.comp_def]

end Fragment

namespace Value
variable {raw : Fragment} {t : List Char}

/-- The value is a text that stands for itself. -/
def IsText (raw : Fragment) (t : List Char) : Prop :=
  classify raw = .ok (.bare (.ofList t)) ∨ classify raw = .ok (.quoted (.ofList t))

theorem isText_of_startsResolved (h : raw.trim.startsResolved) : IsText raw (Text.trim raw.chars) := by
  unfold IsText classify
  dsimp only
  rw [if_pos h, Fragment.text, Fragment.chars_trim]
  exact .inl rfl

theorem isText_nil (gap : Bool) : IsText ⟨[], gap⟩ [] := by
  cases gap <;> exact .inl rfl

theorem isText_quote (f : Fragment) : IsText f.quote f.chars := by
  have hl : Link.isToken f.quote.chars = false := rfl
  have hq : f.quote.isQuoted := by
    have hlast : f.quote.glyphs.getLast? = some ⟨'\'', false, false⟩ := by
      rw [Fragment.quote, ← List.cons_append, List.getLast?_concat]
    rw [Fragment.isQuoted, hlast]
    simp [Fragment.quote, Fragment.length, Glyph.isWritten]
  unfold IsText classify
  dsimp only
  rw [Fragment.trim_quote, hl, hq, ← Fragment.chars_quote]
  exact .inr rfl

end Value

namespace Params

open Fragment

variable {left behind behind' rest e value : Fragment} {g d : Glyph} {w t ds : List Glyph}
  {r : List Char} {after : List (String × Fragment)} {read : Fragment → Fragment} {x : Char}
  {gap quoted : Bool}

/-- Between the glyphs `w` and the fragment `left` there is the place of a whole value, bare or between
quotes, behind which reading goes on at `behind`. -/
inductive Frames (w : List Glyph) : Fragment → Bool → Fragment → Prop
  | bare {t ds : List Glyph} {d : Glyph} {e : Fragment} (hw : ∀ a ∈ w, a.isBlank)
      (ht : ∀ a ∈ t, a.isBlank ∧ isBareGlyph a) (hd : ¬ isBareGlyph d) :
      Frames w (prepend (t ++ d :: ds) e) false (prepend (d :: ds) e)
  | quoted {s : List Glyph} {q q' : Glyph} {behind : Fragment} (hw : w = s ++ [q])
      (hs : ∀ a ∈ s, a.isBlank) (hq : q.isWritten '\'') (hb : ¬ q.isBlank) (hq' : q'.isWritten '\'')
      (he : behind.skipBlank.startsAt ',' || behind.skipBlank.startsAt ']' || behind.skipBlank.isEmpty) :
      Frames w (prepend [q'] behind) true behind.skipBlank

theorem not_isBlank_of_not_isBareGlyph (hd : ¬ isBareGlyph d) : ¬ d.isBlank ∧ ¬ d.isWritten '\'' := by
  obtain ⟨c, _ | _, gap⟩ := d
  · have hc : c = ',' ∨ c = ']' := by simpa [isBareGlyph, Glyph.isWritten, or_iff_not_imp_left] using hd
    rcases hc with rfl | rfl
    · exact ⟨show ¬ Text.isBlank ',' by decide, by simp [Glyph.isWritten]⟩
    · exact ⟨show ¬ Text.isBlank ']' by decide, by simp [Glyph.isWritten]⟩
  · exact absurd (by simp [isBareGlyph, Glyph.isWritten]) hd

theorem Frames.exists_not_isBlank (h : Frames w left quoted behind) :
    ∃ b ∈ left.glyphs, ¬ b.isBlank := by
  cases h with
  | @bare t ds d e hw ht hd =>
    refine ⟨d, ?_, (not_isBlank_of_not_isBareGlyph hd).1⟩
    exact List.mem_append_left _ (List.mem_append_right _ List.mem_cons_self)
  | @quoted s q q' behind hw hs hq hb hq' he =>
    refine ⟨q', List.mem_append_left _ List.mem_cons_self, ?_⟩
    simp only [Glyph.isWritten, Bool.and_eq_true, decide_eq_true_eq] at hq'
    rw [Glyph.isBlank, hq'.2]
    decide

theorem ReadsTail.glyphs_ne_nil (h : ReadsTail behind after rest) : behind.glyphs ≠ [] := by
  intro hn
  have he (c : Char) : behind.skipBlank.eat? c = none := by
    simp [skipBlank, Fragment.dropWhile, eat?, hn]
  rcases h with ⟨-, hb⟩ | ⟨next, hc, -⟩
  · rw [he] at hb
    cases hb
  · rw [he] at hc
    cases hc

/-- What a value is of which all was resolved, to the text `r`. -/
def wholeValue (quoted : Bool) (r : List Char) : Fragment :=
  if quoted then (ofText r true).quote else ofText r true

theorem Encloses.whole_bare (hx : ¬ Text.isBlank x) (h : Encloses w left read behind)
    (hv : read (inserted gap [x] left) = ofText [x] true) (ht : ReadsTail behind after rest) :
    Frames w left false behind ∧
      ∀ z, ¬ Text.isBlank z → read (inserted gap [z] left) = ofText [z] true := by
  cases h with
  | @bare s u hw hs hd hu =>
    have hread {z : Char} (hz : ¬ Text.isBlank z) :
        ((prepend u (inserted gap [z] left)).takeWhile isBareGlyph).trim =
          prepend (u.dropWhile (·.isBlank))
            (prepend [⟨z, true, gap⟩] (left.takeWhile isBareGlyph).trimRight) := by
      have hf := blocked_inserted hz gap left
      rw [takeWhile_prepend hu, hf.takeWhile_pos hf.isBareGlyph, trim_prepend hf.not_blank]
    dsimp only at hv ⊢
    rw [hread hx] at hv
    have hg := congrArg glyphs hv
    have hu' : u = [] := by
      cases u with
      | nil => rfl
      | cons a u =>
        have hl := congrArg List.length hg
        simp only [List.dropWhile_cons_of_neg (hd a rfl).1, prepend, ofText, List.length_append,
          List.length_cons, List.length_map, List.length_nil] at hl
        omega
    subst hu'
    have hgap : gap = false := congrArg Glyph.afterGap (List.cons.inj hg).1
    have hend : (left.takeWhile isBareGlyph).trimRight = ⟨[], false⟩ :=
      congrArg₂ Fragment.mk (List.cons.inj hg).2 (congrArg gapAtEnd hv)
    refine ⟨?_, fun z hz => ?_⟩
    · have hblank := isBlank_of_trimRight (congrArg glyphs hend)
      rw [List.append_nil] at hw
      rcases passes_or_stops_at isBareGlyph left.glyphs with hp | ⟨t, d, ds, hg, hp, hn⟩
      · exact absurd (List.dropWhile_eq_nil_iff.2 hp) ht.glyphs_ne_nil
      · have hleft : left = prepend (t ++ d :: ds) ⟨[], left.gapAtEnd⟩ := by
          rw [prepend, List.append_nil, ← hg]
        rw [hleft, takeWhile_prepend_stop hp hn] at hblank
        rw [hleft, dropWhile_prepend_stop hp hn]
        exact .bare (hw ▸ hs) (fun a ha => ⟨hblank a ha, hp a ha⟩) hn
    · rw [hread hz, hend, hgap]
      rfl
  | quoted => cases hv

theorem Encloses.whole_quoted (hx : ¬ Text.isBlank x) (h : Encloses w left read behind)
    (hv : read (inserted gap [x] left) = (ofText [x] true).quote) : Frames w left true behind ∧
      ∀ z, ¬ Text.isBlank z → read (inserted gap [z] left) = (ofText [z] true).quote := by
  cases h with
  | @bare s u hw hs hd hu =>
    have hf := blocked_inserted hx gap left
    dsimp only at hv
    rw [takeWhile_prepend hu, hf.takeWhile_pos hf.isBareGlyph, trim_prepend hf.not_blank] at hv
    have hg := congrArg (List.head? ∘ glyphs) hv
    cases u with
    | nil => cases hg
    | cons a u =>
      simp only [Function.comp_apply, List.dropWhile_cons_of_neg (hd a rfl).1] at hg
      obtain rfl : a = ⟨'\'', false, false⟩ := Option.some.inj hg
      exact absurd rfl (hd _ rfl).2
  | @quoted s u q behind hw hs hq hb hu hc he =>
    have hread {z : Char} (hz : ¬ Text.isBlank z) : ((prepend u (inserted gap [z] left)).takeUntil '\'') =
        prepend u (prepend [⟨z, true, gap⟩] (left.takeUntil '\'')) := by
      have hf := blocked_inserted hz gap left
      rw [takeUntil, takeWhile_prepend hu, hf.takeWhile_pos (hf.not_isWritten '\'')]
      rfl
    dsimp only at hv ⊢
    rw [hread hx] at hv
    have hl := congrArg (List.length ∘ glyphs) hv
    simp only [Function.comp_apply, quote, prepend, ofText, List.length_append, List.length_cons,
      List.length_map, List.length_nil] at hl
    have hu' : u = [] := List.length_eq_zero_iff.1 (by omega)
    have ht : (left.takeUntil '\'').glyphs = [] := List.length_eq_zero_iff.1 (by omega)
    refine ⟨?_, fun z hz => ?_⟩
    · obtain ⟨_ | ⟨a, as⟩, b⟩ := left
      · cases hc
      · have ha : a.isWritten '\'' := by
          by_contra ha
          rw [takeUntil, takeWhile, List.takeWhile_cons_of_pos (by simpa using ha)] at ht
          cases ht
        have hstop : (prepend [a] ⟨as, b⟩).dropUntil '\'' = prepend [a] ⟨as, b⟩ :=
          dropWhile_prepend_cons (by simpa using ha) [] _
        replace hc : ((prepend [a] ⟨as, b⟩).dropUntil '\'').eat? '\'' = some behind := hc
        rw [hstop, eat?_prepend_cons, if_pos ha] at hc
        cases hc
        exact .quoted (by rw [hw, hu']) hs hq hb ha he
    · rw [hread hz, hu', quote, prepend, prepend, ht]
      rfl

/-- Text in the place of a value is all of the value, whatever it is, if that is so for one character. -/
theorem Encloses.whole (hx : ¬ Text.isBlank x) (h : Encloses w left read behind)
    (hv : read (inserted gap [x] left) = wholeValue quoted [x]) (ht : ReadsTail behind after rest) :
    Frames w left quoted behind ∧
      ∀ z, ¬ Text.isBlank z → read (inserted gap [z] left) = wholeValue quoted [z] := by
  cases quoted with
  | false => exact h.whole_bare hx hv ht
  | true => exact h.whole_quoted hx hv

theorem skipBlank_inserted (gap : Bool) (r : List Char) (e : Fragment) (ds : List Glyph)
    (hw : ∀ a ∈ w, a.isBlank) (ht : ∀ a ∈ t, a.isBlank ∧ isBareGlyph a) (hd : ¬ isBareGlyph d) :
    ∃ m b, (prepend w (inserted gap r (prepend (t ++ d :: ds) e))).skipBlank =
        prepend m (prepend ({ d with afterGap := b } :: ds) e) ∧
      (∀ a ∈ m, isBareGlyph a) ∧ Text.trim (m.map (·.char)) = Text.trim r ∧
      (m = [] ∧ Text.allBlank r ∨
        ∃ a m', m = a :: m' ∧ a.resolved ∧ ¬ a.isBlank ∧ ¬ Text.allBlank r) := by
  have hmem : ∀ a ∈ insertedRun gap r t, a.resolved ∧ a.char ∈ r ∨ a.isBlank ∧ isBareGlyph a := by
    intro a ha
    rcases mem_insertedRun ha with h | ⟨b, hb, gap, rfl⟩
    · exact .inl h
    · exact .inr (ht b hb)
  have hskip : (prepend w (inserted gap r (prepend (t ++ d :: ds) e))).skipBlank = prepend
      ((insertedRun gap r t).dropWhile (·.isBlank))
      (prepend ({ d with afterGap := r.isEmpty && t.isEmpty || d.afterGap } :: ds) e) := by
    have hd' : ¬ Glyph.isBlank { d with afterGap := r.isEmpty && t.isEmpty || d.afterGap } :=
      (not_isBlank_of_not_isBareGlyph hd).1
    rw [skipBlank, dropWhile_prepend hw, inserted_prepend]
    exact skipBlank_prepend hd' _ ds e
  have hleft : ((insertedRun gap r t).dropWhile (·.isBlank)).map (·.char) =
      Text.trimLeft (r ++ t.map (·.char)) := by
    rw [← map_char_insertedRun gap, Text.trimLeft, List.dropWhile_map]
    rfl
  have hsub := (List.dropWhile_sublist (p := (·.isBlank)) (l := insertedRun gap r t)).subset
  refine ⟨_, _, hskip, fun a ha => ?_, ?_, ?_⟩
  · rcases hmem a (hsub ha) with h | h
    · simp [isBareGlyph, Glyph.isWritten, h.1]
    · exact h.2
  · rw [hleft, Text.trim_trimLeft, Text.trim_append_blank]
    intro c hc
    obtain ⟨a, ha, rfl⟩ := List.mem_map.1 hc
    exact (ht a ha).1
  · cases hm : (insertedRun gap r t).dropWhile (·.isBlank) with
    | nil =>
      rw [hm] at hleft
      refine .inl ⟨rfl, List.all_eq_true.2 fun c hc => ?_⟩
      exact List.dropWhile_eq_nil_iff.1 hleft.symm c (List.mem_append_left _ hc)
    | cons a m =>
      have hb : ¬ a.isBlank := not_of_dropWhile hm
      have ha := hmem a (hsub (hm ▸ List.mem_cons_self))
      obtain ⟨hr, hc⟩ := ha.resolve_right fun h => hb h.1
      exact .inr ⟨a, m, rfl, hr, hb, fun h => hb (List.all_eq_true.1 h _ hc)⟩

theorem readsValue_bare_iff (ds : List Glyph) (e : Fragment) {m : List Glyph}
    (hm : ∀ a ∈ m, isBareGlyph a) (hd : ¬ isBareGlyph d) (hq : ∀ a ∈ m.head?, ¬ a.isWritten '\'') :
    ReadsValue (prepend m (prepend (d :: ds) e)) value behind ↔
      ¬ ((⟨m, d.afterGap⟩ : Fragment).trim.isEmpty && !(⟨m, d.afterGap⟩ : Fragment).hasResolved) ∧
        value = (⟨m, d.afterGap⟩ : Fragment).trim ∧ behind = prepend (d :: ds) e := by
  have htake : (prepend m (prepend (d :: ds) e)).takeWhile isBareGlyph = ⟨m, d.afterGap⟩ := by
    rw [← prepend_append, takeWhile_prepend_stop hm hd]
  have hdrop : (prepend m (prepend (d :: ds) e)).dropWhile isBareGlyph = prepend (d :: ds) e := by
    rw [← prepend_append, dropWhile_prepend_stop hm hd]
  have hopen : (prepend m (prepend (d :: ds) e)).eat? '\'' = none := by
    cases m with
    | nil => rw [prepend_nil, eat?_prepend_cons, if_neg (not_isBlank_of_not_isBareGlyph hd).2]
    | cons a m => rw [eat?_prepend_cons, if_neg (hq a rfl)]
  constructor
  · intro h
    cases h with
    | quoted ho =>
      rw [hopen] at ho
      cases ho
    | bare ho hv =>
      rw [htake] at hv ⊢
      exact ⟨hv, rfl, hdrop⟩
  · rintro ⟨hv, rfl, hbehind⟩
    rw [← htake] at hv ⊢
    rw [hbehind, ← hdrop]
    exact hdrop.symm ▸ .bare hopen hv

theorem not_isWritten_of_resolved {a : Glyph} (h : a.resolved) (c : Char) : ¬ a.isWritten c := by
  simp [Glyph.isWritten, h]

theorem isText_trim {f : Fragment} {a : Glyph} {m : List Glyph} (hf : f.glyphs = a :: m)
    (hr : a.resolved) (hb : ¬ a.isBlank) :
    ¬ f.trim.isEmpty ∧ Value.IsText f.trim (Text.trim f.chars) := by
  obtain ⟨-, gs, hg⟩ := startsResolved_trim hf hr hb
  refine ⟨by simp [isEmpty, hg], ?_⟩
  have ht := Value.isText_of_startsResolved (startsResolved_trim hg hr hb).1
  rwa [chars_trim, Text.trim_trim] at ht

theorem exists_readsValue_quoted {s : List Glyph} {q q' : Glyph} (hs : ∀ a ∈ s, a.isBlank)
    (hq : q.isWritten '\'') (hb : ¬ q.isBlank) (hq' : q'.isWritten '\'')
    (he : behind.skipBlank.startsAt ',' || behind.skipBlank.startsAt ']' || behind.skipBlank.isEmpty)
    (gap : Bool) (r : List Char) :
    ∃ value, ReadsValue (prepend (s ++ [q]) (inserted gap r (prepend [q'] behind))).skipBlank value
      behind.skipBlank ∧ Value.IsText value r := by
  have hrun := inserted_prepend gap r [] [] q' behind
  generalize hclose : Glyph.mk q'.char q'.resolved _ = c at hrun
  rw [List.nil_append, ← prepend_append] at hrun
  have hc : c.isWritten '\'' := hclose ▸ hq'
  have hres : ∀ a ∈ insertedRun gap r [], !a.isWritten '\'' := by
    intro a ha
    rcases mem_insertedRun ha with ⟨hr, -⟩ | ⟨b, hb, -⟩
    · simp [Glyph.isWritten, hr]
    · cases hb
  have hstop : ¬ !c.isWritten '\'' := by simpa using hc
  have htake := takeWhile_prepend_stop hres hstop [] behind
  have hdrop := dropWhile_prepend_stop hres hstop [] behind
  rw [← hrun] at htake hdrop
  rw [skipBlank, dropWhile_prepend_stop hs hb]
  refine ⟨_, .quoted (by rw [eat?_prepend_cons, if_pos hq, prepend_nil]) ?_ he, ?_⟩
  · rw [dropUntil, hdrop, eat?_prepend_cons, if_pos hc, prepend_nil]
  · have hchars := map_char_insertedRun gap r []
    rw [List.map_nil, List.append_nil] at hchars
    rw [takeUntil, htake]
    nth_rewrite 2 [← hchars]
    exact Value.isText_quote _

/-- A value that is all resolved is the resolved text, without the blanks at its ends if it stands
bare. -/
theorem Frames.exists_readsValue (h : Frames w left quoted behind) (gap : Bool) (r : List Char)
    (hr : quoted ∨ ¬ Text.allBlank r ∨ (inserted gap r left).skipBlank.gapAtStart) :
    ∃ value behind', ReadsValue (prepend w (inserted gap r left)).skipBlank value behind' ∧
      Value.IsText value (if quoted then r else Text.trim r) ∧
      ∀ c, behind'.skipBlank.eat? c = behind.skipBlank.eat? c := by
  cases h with
  | @bare t ds d e hw ht hd =>
    obtain ⟨m, b, hs, hbare, htrim, hm⟩ := skipBlank_inserted gap r e ds hw ht hd
    have hd' : ¬ isBareGlyph { d with afterGap := b } := hd
    have hend : ∀ c, (prepend ({ d with afterGap := b } :: ds) e).skipBlank.eat? c =
        (prepend (d :: ds) e).skipBlank.eat? c := by
      intro c
      have hs (d : Glyph) (hd : ¬ isBareGlyph d) :
          (prepend (d :: ds) e).skipBlank = prepend (d :: ds) e :=
        skipBlank_prepend (not_isBlank_of_not_isBareGlyph hd).1 [] ds e
      rw [hs _ hd, hs _ hd']
      rfl
    rw [hs, if_neg Bool.false_ne_true, ← htrim]
    rcases hm with ⟨rfl, hb⟩ | ⟨a, m, rfl, ha, hab, hnb⟩
    · have hgap : b := by
        have hr := (hr.resolve_left Bool.false_ne_true).resolve_left (not_not_intro hb)
        rw [skipBlank, dropWhile_prepend hw] at hs
        rwa [skipBlank, hs] at hr
      have hv := (readsValue_bare_iff ds e hbare hd' (by simp)).2
        ⟨by simp [hasResolved, hasGap, hgap], rfl, rfl⟩
      exact ⟨_, _, hv, Value.isText_nil _, hend⟩
    · obtain ⟨hne, ht⟩ := isText_trim (f := ⟨a :: m, b⟩) rfl ha hab
      have hq : ∀ a' ∈ (a :: m).head?, ¬ a'.isWritten '\'' := by
        rintro _ ⟨⟩
        exact not_isWritten_of_resolved ha '\''
      have hv := (readsValue_bare_iff ds e hbare hd' hq).2 ⟨by simp [hne], rfl, rfl⟩
      exact ⟨_, _, hv, ht, hend⟩
  | quoted hw hs hq hb hq' he =>
    obtain ⟨value, hv, ht⟩ := exists_readsValue_quoted hs hq hb hq' he gap r
    rw [hw, if_pos rfl]
    exact ⟨value, _, hv, ht, fun _ => rfl⟩

/-- A bare value of blanks is read only where a gap stands right before what ends it. -/
theorem Frames.gap_of_readsValue (h : Frames w left false behind) (hr : Text.allBlank r)
    (hv : ReadsValue (prepend w (inserted gap r left)).skipBlank value behind') :
    (inserted gap r left).skipBlank.gapAtStart := by
  cases h with
  | @bare t ds d e hw ht hd =>
    obtain ⟨m, b, hs, hbare, -, hm⟩ := skipBlank_inserted gap r e ds hw ht hd
    rcases hm with ⟨rfl, -⟩ | ⟨a, m, rfl, -, -, hnb⟩
    · have hd' : ¬ isBareGlyph { d with afterGap := b } := hd
      rw [hs, readsValue_bare_iff ds e hbare hd' (by simp)] at hv
      have hb : b := by simpa [hasResolved, hasGap, trim, isEmpty] using hv.1
      rw [skipBlank, dropWhile_prepend hw] at hs
      rw [skipBlank, hs]
      exact hb
    · exact absurd hr hnb

end Params

end PortalScript
