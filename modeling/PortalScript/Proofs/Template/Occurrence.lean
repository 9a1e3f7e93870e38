import Mathlib.Data.List.Basic
import PortalScript.Template.Substitution

/-! # Whole-token occurrences

`cutToken?` finds the first occurrence of a token that touches no other token character
(`cutToken?_some`, `cutToken?_none`), and `substituteSource` replaces all of them. So a stretch of
source text is left as it is just if no such occurrence overlaps it (`kept_substituteSource_iff`). -/

namespace PortalScript.Template

/-- No token character touches an occurrence between `u` and `v`. -/
def WholeToken (u v : List Char) : Prop := isBoundary u.getLast? ∧ isBoundary v.head?

variable {k cs b r u v pre t post : List Char} {left : Option Char} {c : Char}

theorem getLast?_cons_or (c : Char) (u : List Char) (left : Option Char) :
    (c :: u).getLast?.or left = u.getLast?.or (some c) := by
  cases h : u.getLast? <;> simp [List.getLast?_cons, h]

/-- The character before the text counts where nothing of the text stands before the occurrence. -/
theorem cutToken?_none (hk : k ≠ []) (h : cutToken? k left cs = none) (hu : cs = u ++ (k ++ v)) :
    ¬ (isBoundary (u.getLast?.or left) ∧ isBoundary v.head?) := by
  induction cs generalizing u left with
  | nil => simp [hk] at hu
  | cons c cs ih =>
    simp only [cutToken?] at h
    split at h
    · cases h
    rename_i hf
    cases u with
    | nil =>
      rw [List.nil_append] at hu
      rw [Text.after?_eq_some_iff.2 hu] at hf
      simpa [Option.filter] using hf
    | cons d u =>
      obtain ⟨rfl, htail⟩ := List.cons.inj hu
      rw [getLast?_cons_or]
      exact ih (Option.map_eq_none_iff.1 h) htail

theorem cutToken?_some (h : cutToken? k left cs = some (b, r)) :
    isBoundary (b.getLast?.or left) ∧ isBoundary r.head? ∧ ∀ u v, cs = u ++ (k ++ v) →
      isBoundary (u.getLast?.or left) → isBoundary v.head? → b.length ≤ u.length := by
  induction cs generalizing b left with
  | nil => simp [cutToken?] at h
  | cons c cs ih =>
    simp only [cutToken?] at h
    split at h <;> rename_i hf
    · cases h
      obtain ⟨-, hb⟩ := Option.filter_eq_some_iff.1 hf
      rw [Bool.and_eq_true] at hb
      exact ⟨hb.1, hb.2, fun u v _ _ _ => Nat.zero_le _⟩
    · obtain ⟨⟨b', r'⟩, hb, he⟩ := Option.map_eq_some_iff.1 h
      cases he
      obtain ⟨hl, hr, hmin⟩ := ih hb
      refine ⟨?_, hr, fun u v hu hul hv => ?_⟩
      · rwa [getLast?_cons_or]
      · cases u with
        | nil =>
          rw [List.nil_append] at hu
          rw [Text.after?_eq_some_iff.2 hu] at hf
          have : isBoundary left = true := hul
          simp [Option.filter, this, hv] at hf
        | cons d u =>
          obtain ⟨rfl, htail⟩ := List.cons.inj hu
          rw [getLast?_cons_or] at hul
          exact Nat.succ_le_succ (hmin u v htail hul hv)

theorem substituteSource_of_none {cs replacement text : List Char}
    (h : cutToken? (c :: cs) none text = none) :
    substituteSource c cs replacement text = ([.source text], 0) := by
  rw [substituteSource]
  split <;> rename_i hc
  · rfl
  · rw [h] at hc
    cases hc

theorem substituteSource_of_some {cs replacement text before rest : List Char}
    (h : cutToken? (c :: cs) none text = some (before, rest)) :
    substituteSource c cs replacement text =
      (.source before :: .resolved replacement :: (substituteSource c cs replacement rest).1,
        (substituteSource c cs replacement rest).2 + 1) := by
  rw [substituteSource]
  split <;> rename_i hc <;> rw [h] at hc <;> cases hc
  rfl

/-- The text that stood where the pieces now stand, resolved pieces having taken the place of `k`. -/
def origin (k : List Char) (t : Template) : List Char :=
  t.flatMap fun
    | .source text => text
    | .resolved _ => k

/-- The stretch `t` between `pre` and `post` stands in one source piece. -/
def Kept (k pre t post : List Char) (pieces : Template) : Prop :=
  ∃ before x y after, pieces = before ++ .source (x ++ (t ++ y)) :: after ∧
    origin k before ++ x = pre ∧ y ++ origin k after = post

@[simp] theorem origin_source (k text : List Char) (t : Template) :
    origin k (.source text :: t) = text ++ origin k t := rfl

@[simp] theorem origin_resolved (k text : List Char) (t : Template) :
    origin k (.resolved text :: t) = k ++ origin k t := rfl

theorem origin_substituteSource (c : Char) (cs replacement text : List Char) :
    origin (c :: cs) (substituteSource c cs replacement text).1 = text := by
  fun_induction substituteSource c cs replacement text with
  | case1 text h => simp [origin]
  | case2 text before rest h pieces n hp ih =>
    rw [hp] at ih
    rw [eq_append_of_cutToken? h, ← ih]
    simp [origin]

/-- A token never overlaps itself. -/
def NoOverlap (k : List Char) : Prop := ∀ p s q, k = p ++ s → k = s ++ q → p = [] ∨ s = []

/-- The stretch `t` behind `pre` shares no character with a token of length `n` behind `u`. -/
def Apart (u : List Char) (n : Nat) (pre t : List Char) : Prop :=
  u.length + n ≤ pre.length ∨ pre.length + t.length ≤ u.length

section
variable {replacement : List Char} {pieces : Template}

theorem kept_of_before (h : pre ++ (t ++ post) = b ++ (k ++ r))
    (hl : pre.length + t.length ≤ b.length) (ho : origin k pieces = r) :
    Kept k pre t post (.source b :: .resolved replacement :: pieces) := by
  obtain ⟨y, rfl⟩ : pre ++ t <+: b := by
    refine List.prefix_of_prefix_length_le ⟨post, ?_⟩ (List.prefix_append b (k ++ r)) (by simpa using hl)
    rw [← h, List.append_assoc]
  refine ⟨[], pre, y, .resolved replacement :: pieces, by simp, by simp [origin], ?_⟩
  rw [origin_resolved, ho]
  simpa using h.symm

theorem kept_cons_iff (hk : k ≠ []) :
    Kept k (b ++ (k ++ pre)) t post (.source b :: .resolved replacement :: pieces) ↔
      Kept k pre t post pieces := by
  constructor
  · rintro ⟨before, x, y, after, hp, hx, hy⟩
    match before, hp with
    | [], hp =>
      obtain ⟨hb, -⟩ := List.cons.inj hp
      have hb := congrArg List.length (Piece.source.inj hb)
      have hx := congrArg List.length hx
      have := List.length_pos_iff.2 hk
      simp [origin] at hb hx
      omega
    | [_], hp => cases hp
    | .source _ :: .resolved _ :: before, hp =>
      cases hp
      refine ⟨before, x, y, after, rfl, ?_, hy⟩
      simpa using hx
  · rintro ⟨before, x, y, after, rfl, rfl, hy⟩
    exact ⟨.source b :: .resolved replacement :: before, x, y, after, rfl, by simp, hy⟩

theorem not_kept (h : ¬ Apart b k.length pre t) :
    ¬ Kept k pre t post (.source b :: .resolved replacement :: pieces) := by
  rintro ⟨before, x, y, after, hp, rfl, hy⟩
  refine h ?_
  match before, hp with
  | [], hp =>
    obtain ⟨hb, -⟩ := List.cons.inj hp
    have hb := congrArg List.length (Piece.source.inj hb)
    simp [origin, Apart] at hb ⊢
    omega
  | [_], hp => cases hp
  | .source _ :: .resolved _ :: before, hp =>
    cases hp
    simp [Apart]

end

theorem exists_of_wholeToken (hself : NoOverlap k) (hne : u.length ≠ b.length)
    (hu : b ++ (k ++ r) = u ++ (k ++ v)) (hl : b.length ≤ u.length) :
    ∃ u', u = b ++ (k ++ u') ∧ r = u' ++ (k ++ v) := by
  obtain ⟨d, rfl⟩ : b <+: u :=
    List.prefix_of_prefix_length_le (List.prefix_append b (k ++ r)) ⟨k ++ v, hu.symm⟩ hl
  have hd : d ≠ [] := by
    rintro rfl
    simp at hne
  rw [List.append_assoc] at hu
  have hu := List.append_cancel_left hu
  rcases List.append_eq_append_iff.1 hu with ⟨u', rfl, hr⟩ | ⟨s, rfl, hs⟩
  · exact ⟨u', rfl, hr⟩
  · -- the two occurrences overlap unless one ends where the other starts
    obtain ⟨q, hq⟩ : s <+: d ++ s := List.prefix_of_prefix_length_le ⟨r, hs.symm⟩
      (List.prefix_append (d ++ s) v) (by simp)
    rcases hself d s q rfl hq.symm with h | rfl
    · exact absurd h hd
    · exact ⟨[], by simp, by simpa using hs.symm⟩

theorem wholeToken_append (hu : u ≠ []) : WholeToken (b ++ (k ++ u)) v ↔ WholeToken u v := by
  unfold WholeToken
  rw [List.getLast?_append_of_ne_nil _ (by simp [hu]), List.getLast?_append_of_ne_nil _ hu]

theorem apart_append_iff {n : Nat} :
    Apart (b ++ (k ++ u)) n (b ++ (k ++ pre)) t ↔ Apart u n pre t := by
  simp only [Apart, List.length_append]
  omega

/-- A stretch of source text is left as it is just if no whole-token occurrence overlaps it. -/
theorem kept_substituteSource_iff {cs replacement : List Char} (hc : isTokenChar c)
    (hself : NoOverlap (c :: cs)) (pre t post : List Char) :
    Kept (c :: cs) pre t post (substituteSource c cs replacement (pre ++ (t ++ post))).1 ↔
      ∀ u v, pre ++ (t ++ post) = u ++ (c :: cs ++ v) → WholeToken u v →
        Apart u (c :: cs).length pre t := by
  generalize htext : pre ++ (t ++ post) = text
  fun_induction substituteSource c cs replacement text generalizing pre with
  | case1 text h =>
    subst htext
    constructor
    · intro _ u v hu hw
      refine absurd ?_ (cutToken?_none (by simp) h hu)
      rw [Option.or_none]
      exact hw
    · intro _
      exact ⟨[], pre, post, [], by simp, by simp [origin], by simp [origin]⟩
  | case2 text b r h pieces n hp ih =>
    obtain ⟨hb, hr, hmin⟩ := cutToken?_some h
    rw [Option.or_none] at hb
    have htb : text = b ++ (c :: cs ++ r) := by
      rw [← List.append_assoc]
      exact eq_append_of_cutToken? h
    have hlen := congrArg List.length (htext.trans htb)
    simp only [List.length_append] at hlen
    rcases Classical.em (Apart b (c :: cs).length pre t) with (hl | hl) | ha
    · obtain ⟨pre, rfl⟩ : b ++ (c :: cs) <+: pre := by
        refine List.prefix_of_prefix_length_le ⟨r, ?_⟩ ⟨t ++ post, htext⟩ (by simpa using hl)
        rw [htb, List.append_assoc]
      have hr' : pre ++ (t ++ post) = r := by
        have := htext.trans htb
        simpa using this
      have ih := ih pre hr'
      rw [hp] at ih
      rw [List.append_assoc, kept_cons_iff (by simp), ih]
      constructor
      · intro hall u v hu hw
        by_cases hne : u.length = b.length
        · exact .inl (by simp [hne])
        · obtain ⟨u, rfl, hu'⟩ := exists_of_wholeToken hself hne (htb.symm.trans hu) (hmin u v hu
            (by simpa using hw.1) hw.2)
          have hw' : WholeToken u v := by
            cases u with
            | nil => exact ⟨rfl, hw.2⟩
            | cons a u => exact (wholeToken_append (by simp)).1 hw
          exact apart_append_iff.2 (hall u v hu' hw')
      · intro hall u v hu hw
        have hu' : text = b ++ (c :: cs ++ u) ++ (c :: cs ++ v) := by
          rw [htb, hu]
          simp
        refine apart_append_iff.1 (hall _ v hu' ?_)
        cases u with
        | nil =>
          -- what is behind the first occurrence would start with a token character
          rw [hu] at hr
          simp [isBoundary, hc] at hr
        | cons a u => exact (wholeToken_append (by simp)).2 hw
    · have ho : origin (c :: cs) pieces = r := by
        have := origin_substituteSource c cs replacement r
        rwa [hp] at this
      refine iff_of_true (kept_of_before (htext.trans htb) hl ho) fun u v hu hw => .inr ?_
      exact Nat.le_trans hl (hmin u v hu (by simpa using hw.1) hw.2)
    · exact iff_of_false (not_kept ha) fun hall => ha (hall b r htb ⟨hb, hr⟩)

end PortalScript.Template
