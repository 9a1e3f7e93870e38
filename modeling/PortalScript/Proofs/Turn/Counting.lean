import Mathlib.Data.List.Basic
import PortalScript.Resolution.Lookup

/-! # Counting turns from the latest

The turn that a reference names stands where the turns of its author, counted from there to the end of
the history, are as many as the index says (`TurnRef.position_eq_some_iff`). There is one unless the
index is 0 or above the number of that author's turns (`TurnRef.position_eq_none_iff`), and it is the
turn that is selected (`TurnRef.select_eq_bind_position`). -/

namespace PortalScript

section
variable {α : Type} {p : α → Bool} {l : List α} {a : α} {k m n : Nat}

theorem map_fst_filter_zipIdx (p : α → Bool) (l : List α) (n : Nat) :
    ((l.zipIdx n).reverse.filter (p ·.1)).map (·.1) = l.reverse.filter p := by
  rw [← List.zipIdx_map_fst n l, ← List.map_reverse, List.filter_map, List.zipIdx_map_fst]
  rfl

theorem length_filter_zipIdx (p : α → Bool) (l : List α) (n : Nat) :
    ((l.zipIdx n).reverse.filter (p ·.1)).length = l.countP p := by
  rw [← List.length_map (·.1), map_fst_filter_zipIdx, ← List.countP_eq_length_filter,
    List.countP_reverse]

theorem getElem?_filter_zipIdx : ((l.zipIdx n).reverse.filter (p ·.1))[k]? = some (a, m) ↔
    ∃ i, m = n + i ∧ l[i]? = some a ∧ p a ∧ (l.drop i).countP p = k + 1 := by
  induction l generalizing n with
  | nil => simp
  | cons b l ih =>
    have hlength := length_filter_zipIdx p l (n + 1)
    rw [List.zipIdx_cons, List.reverse_cons, List.filter_append, List.getElem?_append, hlength]
    split <;> rename_i hk
    · -- the element counted stands behind the first one
      rw [ih]
      constructor
      · rintro ⟨i, rfl, ha, hp, hc⟩
        exact ⟨i + 1, by omega, ha, hp, hc⟩
      · rintro ⟨i | i, rfl, ha, hp, hc⟩
        · cases ha
          rw [List.drop_zero, List.countP_cons_of_pos hp] at hc
          omega
        · exact ⟨i, by omega, ha, hp, hc⟩
    · rw [List.filter_cons, List.filter_nil]
      constructor
      · intro h
        split at h <;> rename_i hb
        · rw [List.getElem?_singleton] at h
          split at h <;> cases h
          refine ⟨0, rfl, rfl, hb, ?_⟩
          rw [List.drop_zero, List.countP_cons_of_pos hb]
          omega
        · cases h
      · rintro ⟨i | i, rfl, ha, hp, hc⟩
        · cases ha
          rw [List.drop_zero, List.countP_cons_of_pos hp] at hc
          rw [if_pos hp, List.getElem?_singleton, if_pos (by omega)]
        · have hrest : (l.drop i).countP p ≤ l.countP p := (List.drop_sublist i l).countP_le
          rw [List.drop_succ_cons] at hc
          omega

end

namespace TurnRef
variable {r : TurnRef} {history : History} {i : Nat} {turn : Turn}

theorem getElem?_turns {author : Author} {k : Nat} :
    (history.zipIdx.reverse.filter (·.1.author = author))[k]? = some (turn, i) ↔
      history[i]? = some turn ∧ turn.author = author ∧
        History.countBy (history.drop i) author = k + 1 := by
  rw [getElem?_filter_zipIdx (p := fun turn : Turn => decide (turn.author = author))]
  simp [History.countBy]

/-- As many turns of the author as the index says stand at the place and behind it, the one at the place
among them. -/
theorem position_eq_some_iff : r.position history = some i ↔
    (∃ turn, history[i]? = some turn ∧ turn.author = r.author) ∧
      History.countBy (history.drop i) r.author = r.index := by
  unfold position
  split <;> rename_i hr
  · constructor
    · rintro ⟨⟩
    · rintro ⟨⟨turn, ht, ha⟩, hc⟩
      rw [hr, History.countBy, List.countP_eq_zero] at hc
      have hm : turn ∈ history.drop i := List.mem_of_getElem? (i := 0) (by simpa using ht)
      exact absurd (decide_eq_true ha) (hc turn hm)
  · have hindex : r.index - 1 + 1 = r.index := by omega
    rw [Option.map_eq_some_iff]
    constructor
    · rintro ⟨⟨turn, i⟩, hm, rfl⟩
      obtain ⟨ht, ha, hc⟩ := getElem?_turns.1 hm
      exact ⟨⟨turn, ht, ha⟩, hc.trans hindex⟩
    · rintro ⟨⟨turn, ht, ha⟩, hc⟩
      exact ⟨(turn, i), getElem?_turns.2 ⟨ht, ha, hc.trans hindex.symm⟩, rfl⟩

theorem position_eq_none_iff :
    r.position history = none ↔ r.index = 0 ∨ history.countBy r.author < r.index := by
  unfold position
  split <;> rename_i hr
  · simp [hr]
  · have hlength := length_filter_zipIdx (fun turn : Turn => decide (turn.author = r.author)) history 0
    rw [Option.map_eq_none_iff, List.getElem?_eq_none_iff, hlength, History.countBy]
    omega

theorem select_eq_bind_position (r : TurnRef) (history : History) :
    r.select history = (r.position history).bind (history[·]?) := by
  unfold select position
  split
  · rfl
  · rw [← map_fst_filter_zipIdx _ history 0, List.getElem?_map]
    rcases he : (history.zipIdx.reverse.filter (·.1.author = r.author))[r.index - 1]? with - | ⟨turn, i⟩
    · rfl
    · exact (getElem?_turns.1 he).1.symm

theorem select_eq_some_iff :
    r.select history = some turn ↔ ∃ i, r.position history = some i ∧ history[i]? = some turn := by
  rw [select_eq_bind_position, Option.bind_eq_some_iff]

theorem select_eq_none_iff : r.select history = none ↔ r.position history = none := by
  rw [select_eq_bind_position]
  cases hp : r.position history with
  | none => simp
  | some i =>
    obtain ⟨⟨turn, ht, -⟩, -⟩ := position_eq_some_iff.1 hp
    simp [ht]

end TurnRef

namespace TurnLink
variable {l : TurnLink} {history : History}

theorem select_eq_error_iff {e : LinkFailure} : l.select history = .error e ↔
    l.target.select history = none ∧
      e = .outOfRange l.target (history.countBy l.target.author) := by
  unfold select
  rcases l.target.select history with - | (content | ⟨chat, thoughts⟩)
  · simp [eq_comm]
  · simp
  · simp

end TurnLink

/-- The turn that a reference selects is the one at the place it gives, and there is none just if there is
no such place. That is the place of a turn of the author from which on there are as many turns of that author
as the index says. There is none just if the index is 0 or above the number of the author's turns, which
is what a link to the turn then reports. -/
theorem TurnRef.position_exact (r : TurnRef) (history : History) :
    r.select history = (r.position history).bind (history[·]?) ∧
    (r.select history = none ↔ r.position history = none) ∧
    (∀ i, r.position history = some i ↔
      (∃ turn, history[i]? = some turn ∧ turn.author = r.author) ∧
        History.countBy (history.drop i) r.author = r.index) ∧
    (r.position history = none ↔ r.index = 0 ∨ history.countBy r.author < r.index) ∧
    ∀ conduit thoughts e, TurnLink.select ⟨conduit, r, thoughts⟩ history = .error e ↔
      (r.index = 0 ∨ history.countBy r.author < r.index) ∧
        e = .outOfRange r (history.countBy r.author) := by
  refine ⟨select_eq_bind_position r history, select_eq_none_iff, fun i => position_eq_some_iff,
    position_eq_none_iff, fun conduit thoughts e => ?_⟩
  rw [TurnLink.select_eq_error_iff, select_eq_none_iff, position_eq_none_iff]

end PortalScript
