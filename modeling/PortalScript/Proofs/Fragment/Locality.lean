import PortalScript.Proofs.Portal.Values

/-! # Glyphs before a fragment

The scanners read `prepend gs f` from the left. Where one stops among the glyphs `gs`, it does so
whatever `f` is. Where `f` is `Blocked`, that is, starts with resolved text that is not blank, no
scanner of grammar gets into `f` unless it takes all such text (`Blocked.eat?_skipBlank`). -/

namespace PortalScript.Fragment

/-- The fragment behind some glyphs. -/
def prepend (gs : List Glyph) (f : Fragment) : Fragment := ⟨gs ++ f.glyphs, f.gapAtEnd⟩

variable {f f' : Fragment} {gs as bs : List Glyph} {a g : Glyph} {c : Char} {p : Glyph → Bool}

@[simp] theorem prepend_nil (f : Fragment) : prepend [] f = f := rfl

theorem prepend_append (as bs : List Glyph) (f : Fragment) :
    prepend (as ++ bs) f = prepend as (prepend bs f) := by
  simp [prepend]

theorem eat?_prepend_cons (a : Glyph) (as : List Glyph) (f : Fragment) (c : Char) :
    (prepend (a :: as) f).eat? c = if a.isWritten c then some (prepend as f) else none := rfl

@[simp] theorem startsAt_prepend_cons (a : Glyph) (as : List Glyph) (f : Fragment) (c : Char) :
    (prepend (a :: as) f).startsAt c = a.isWritten c := rfl

@[simp] theorem isEmpty_prepend_cons (a : Glyph) (as : List Glyph) (f : Fragment) :
    (prepend (a :: as) f).isEmpty = false := rfl

theorem suffix_stop (as : List Glyph) (a : Glyph) (bs : List Glyph) : bs <:+ as ++ a :: bs :=
  (List.suffix_cons a bs).trans (List.suffix_append as (a :: bs))

theorem passes_or_stops_at (p : Glyph → Bool) (gs : List Glyph) : (∀ a ∈ gs, p a) ∨
    ∃ as a bs, gs = as ++ a :: bs ∧ (∀ b ∈ as, p b) ∧ ¬ p a := by
  induction gs with
  | nil => exact .inl (by simp)
  | cons a gs ih =>
    by_cases ha : p a
    · rcases ih with ih | ⟨as, b, bs, rfl, has, hb⟩
      · exact .inl (List.forall_mem_cons.2 ⟨ha, ih⟩)
      · exact .inr ⟨a :: as, b, bs, rfl, List.forall_mem_cons.2 ⟨ha, has⟩, hb⟩
    · exact .inr ⟨[], a, gs, rfl, by simp, ha⟩

theorem not_of_dropWhile (h : gs.dropWhile p = a :: as) : ¬ p a := by
  have hhead := List.head?_dropWhile_not p gs
  rw [h] at hhead
  exact Bool.eq_false_iff.1 hhead

theorem dropWhile_prepend (h : ∀ a ∈ gs, p a) (f : Fragment) :
    (prepend gs f).dropWhile p = f.dropWhile p := by
  unfold dropWhile prepend
  rw [List.dropWhile_append_of_pos h]

theorem dropWhile_prepend_stop (h : ∀ b ∈ as, p b) (ha : ¬ p a) (bs : List Glyph) (f : Fragment) :
    (prepend (as ++ a :: bs) f).dropWhile p = prepend (a :: bs) f := by
  rw [prepend_append, dropWhile_prepend h]
  unfold dropWhile prepend
  rw [List.cons_append, List.dropWhile_cons_of_neg ha]

theorem dropWhile_prepend_cons (ha : ¬ p a) (bs : List Glyph) (f : Fragment) :
    (prepend (a :: bs) f).dropWhile p = prepend (a :: bs) f :=
  dropWhile_prepend_stop (List.forall_mem_nil _) ha bs f

theorem takeWhile_prepend (h : ∀ a ∈ gs, p a) (f : Fragment) :
    (prepend gs f).takeWhile p = prepend gs (f.takeWhile p) := by
  unfold takeWhile
  rw [dropWhile_prepend h]
  unfold prepend
  rw [List.takeWhile_append_of_pos h]

theorem takeWhile_prepend_stop (h : ∀ b ∈ as, p b) (ha : ¬ p a) (bs : List Glyph) (f : Fragment) :
    (prepend (as ++ a :: bs) f).takeWhile p = ⟨as, a.afterGap⟩ := by
  unfold takeWhile
  rw [dropWhile_prepend_stop h ha]
  have ht : (prepend (as ++ a :: bs) f).glyphs.takeWhile p = as := by
    rw [prepend, List.append_assoc, List.takeWhile_append_of_pos h, List.cons_append,
      List.takeWhile_cons_of_neg ha, List.append_nil]
  rw [ht]
  rfl

theorem eat?_dropUntil_prepend_stop (h : ∀ b ∈ as, !b.isWritten c) (ha : a.isWritten c)
    (bs : List Glyph) (f : Fragment) :
    ((prepend (as ++ a :: bs) f).dropUntil c).eat? c = some (prepend bs f) := by
  rw [dropUntil, dropWhile_prepend_stop h (by simpa using ha), eat?_prepend_cons, if_pos ha]

theorem takeUntil_prepend_stop (h : ∀ b ∈ as, !b.isWritten c) (ha : a.isWritten c) (bs : List Glyph)
    (f : Fragment) : (prepend (as ++ a :: bs) f).takeUntil c = ⟨as, a.afterGap⟩ :=
  takeWhile_prepend_stop h (by simpa using ha) bs f

/-- The fragment starts with resolved text that is not blank. -/
structure Blocked (f : Fragment) (g : Glyph) (rest : Fragment) : Prop where
  eq : f = prepend [g] rest
  resolved : g.resolved
  not_blank : ¬ g.isBlank

namespace Blocked
variable {rest : Fragment} (hf : f.Blocked g rest)
include hf

theorem eat?_eq_none (c : Char) : f.eat? c = none := by
  rw [hf.eq, eat?_prepend_cons, if_neg]
  simp [Glyph.isWritten, hf.resolved]

theorem not_startsAt (c : Char) : ¬ f.startsAt c := by
  rw [startsAt_eq_isSome, hf.eat?_eq_none]
  exact Bool.false_ne_true

theorem not_isEmpty : ¬ f.isEmpty := by
  rw [hf.eq]
  exact Bool.false_ne_true

theorem dropWhile_pos (hp : p g) : f.dropWhile p = rest.dropWhile p := by
  rw [hf.eq]
  exact dropWhile_prepend (by simpa using hp) rest

theorem dropWhile_neg (hp : ¬ p g) : f.dropWhile p = f := by
  rw [hf.eq]
  exact dropWhile_prepend_cons hp [] rest

theorem takeWhile_neg (hp : ¬ p g) : f.takeWhile p = ⟨[], g.afterGap⟩ := by
  rw [hf.eq]
  exact takeWhile_prepend_stop (List.forall_mem_nil _) hp [] rest

theorem takeWhile_pos (hp : p g) : f.takeWhile p = prepend [g] (rest.takeWhile p) := by
  rw [hf.eq]
  exact takeWhile_prepend (by simpa using hp) rest

theorem mem_takeWhile (hgs : ∀ a ∈ gs, p a) (hp : p g) : g ∈ ((prepend gs f).takeWhile p).glyphs := by
  rw [takeWhile_prepend hgs, hf.takeWhile_pos hp]
  exact List.mem_append_right _ List.mem_cons_self

theorem skipBlank_eq : f.skipBlank = f := hf.dropWhile_neg hf.not_blank

theorem not_isEmpty_skipBlank (as : List Glyph) : ¬ (prepend as f).skipBlank.isEmpty := by
  rcases passes_or_stops_at (·.isBlank) as with has | ⟨bs, b, cs, rfl, hbs, hb⟩
  · rw [skipBlank, dropWhile_prepend has, hf.dropWhile_neg hf.not_blank]
    exact hf.not_isEmpty
  · rw [skipBlank, dropWhile_prepend_stop hbs hb]
    exact Bool.false_ne_true

theorem isBareGlyph : Params.isBareGlyph g := by
  simp [Params.isBareGlyph, Glyph.isWritten, hf.resolved]

theorem not_isWritten (c : Char) : !g.isWritten c := by
  simp [Glyph.isWritten, hf.resolved]

/-- A written character that is read before the resolved text is read whatever follows. -/
theorem eat?_prepend (h : (prepend gs f).eat? c = some f') :
    ∃ a as, gs = a :: as ∧ a.isWritten c ∧ f' = prepend as f := by
  cases gs with
  | nil =>
    rw [prepend_nil, hf.eat?_eq_none] at h
    cases h
  | cons a as =>
    rw [eat?_prepend_cons] at h
    split at h <;> rename_i ha
    · cases h
      exact ⟨a, as, rfl, ha, rfl⟩
    · cases h

theorem eat?_skipBlank (h : (prepend gs f).skipBlank.eat? c = some f') :
    ∃ as, as <:+ gs ∧ f' = prepend as f ∧
      ∀ f : Fragment, (prepend gs f).skipBlank.eat? c = some (prepend as f) := by
  rcases passes_or_stops_at (·.isBlank) gs with hgs | ⟨as, a, bs, rfl, has, ha⟩
  · rw [skipBlank, dropWhile_prepend hgs, hf.dropWhile_neg hf.not_blank, hf.eat?_eq_none] at h
    cases h
  · rw [skipBlank, dropWhile_prepend_stop has ha] at h
    obtain ⟨a, bs, he, hw, rfl⟩ := hf.eat?_prepend h
    cases he
    refine ⟨_, suffix_stop as a _, rfl, fun f => ?_⟩
    rw [skipBlank, dropWhile_prepend_stop has ha, eat?_prepend_cons, if_pos hw]

theorem eat?_dropUntil (h : ((prepend gs f).dropUntil c).eat? c = some f') :
    (∃ as a bs, gs = as ++ a :: bs ∧ (∀ b ∈ as, !b.isWritten c) ∧ a.isWritten c ∧ f' = prepend bs f) ∨
      (∀ a ∈ gs, !a.isWritten c) ∧ (rest.dropUntil c).eat? c = some f' := by
  rcases passes_or_stops_at (!·.isWritten c) gs with hgs | ⟨as, a, bs, rfl, has, ha⟩
  · rw [dropUntil, dropWhile_prepend hgs, hf.dropWhile_pos (hf.not_isWritten c)] at h
    exact .inr ⟨hgs, h⟩
  · have ha : a.isWritten c := by simpa using ha
    rw [eat?_dropUntil_prepend_stop has ha] at h
    cases h
    exact .inl ⟨as, a, bs, rfl, has, ha, rfl⟩

end Blocked

end PortalScript.Fragment
