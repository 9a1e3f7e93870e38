import PortalScript.Proofs.Table.Entries

/-! # Inserting twice

An entry changes no other, and a listed name keeps its place. So of two insertions under one name the
second decides (`insert_insert`), a listed name may be written before or after any other (`insert_comm`),
and inserting the same entries once more changes nothing (`insertAll_insertAll`). -/

namespace PortalScript.Table
variable {α : Type} {t : Table α} {key k : String} {v w : α} {es : List (String × α)}

/-- The table with all entries inserted in their order. -/
def insertAll (t : Table α) (es : List (String × α)) : Table α :=
  es.foldl (fun t e => t.insert e.1 e.2) t

theorem insertEntry_insertEntry (es : List (String × α)) :
    insertEntry key w (insertEntry key v es) = insertEntry key w es := by
  induction es with
  | nil => simp [insertEntry]
  | cons e es ih =>
    by_cases h : e.1 = key
    · simp [insertEntry, h]
    · simp [insertEntry, h, ih]

theorem insert_insert (t : Table α) (key : String) (v w : α) :
    (t.insert key v).insert key w = t.insert key w :=
  congrArg Table.mk (insertEntry_insertEntry t.entries)

/-- A listed name keeps its place when another name is inserted. -/
theorem insertEntry_comm (hk : key ∈ es.map (·.1)) (hne : k ≠ key) :
    insertEntry k w (insertEntry key v es) = insertEntry key v (insertEntry k w es) := by
  induction es with
  | nil => simp at hk
  | cons e es ih =>
    by_cases h : e.1 = key
    · simp [insertEntry, h, Ne.symm hne]
    · have hk : key ∈ es.map (·.1) := (List.mem_cons.1 hk).resolve_left (Ne.symm h)
      by_cases h' : e.1 = k
      · simp [insertEntry, h', hne]
      · simp [insertEntry, h, h', ih hk]

theorem insert_comm (hk : key ∈ t.keys) (hne : k ≠ key) (v w : α) :
    (t.insert key v).insert k w = (t.insert k w).insert key v :=
  congrArg Table.mk (insertEntry_comm hk hne)

theorem insertEntry_eq_self (h : lookup key es = some v) : insertEntry key v es = es := by
  induction es with
  | nil => cases h
  | cons e es ih =>
    obtain ⟨k, w⟩ := e
    by_cases hk : k = key
    · simp only [lookup, hk, if_pos, Option.some.injEq] at h
      simp [insertEntry, hk, h]
    · simp only [lookup, hk, if_false] at h
      simp [insertEntry, hk, ih h]

theorem insert_eq_self (h : t.get? key = some v) : t.insert key v = t :=
  congrArg Table.mk (insertEntry_eq_self h)

theorem mem_keys_insert : k ∈ (t.insert key v).keys ↔ k = key ∨ k ∈ t.keys := by
  rw [keys_insert]
  split <;> rename_i h
  · exact ⟨.inr, fun hk => hk.elim (fun he => he ▸ h) id⟩
  · rw [List.mem_append, List.mem_singleton, or_comm]

theorem mem_keys_insertAll (h : k ∈ t.keys) (es : List (String × α)) : k ∈ (t.insertAll es).keys := by
  induction es generalizing t with
  | nil => exact h
  | cons e es ih => exact ih (mem_keys_insert.2 (.inr h))

theorem get?_insertAll_of_not_mem (h : k ∉ es.map (·.1)) : (t.insertAll es).get? k = t.get? k := by
  induction es generalizing t with
  | nil => rfl
  | cons e es ih =>
    rw [List.map_cons, List.mem_cons, not_or] at h
    show ((t.insert e.1 e.2).insertAll es).get? k = _
    rw [ih h.2, get?_insert, if_neg (Ne.symm h.1)]

/-- What is written under a listed name is lost where that name is written again. -/
theorem insertAll_insert (ht : key ∈ t.keys) (hes : key ∈ es.map (·.1)) (v : α) :
    (t.insert key v).insertAll es = t.insertAll es := by
  induction es generalizing t with
  | nil => simp at hes
  | cons e es ih =>
    show ((t.insert key v).insert e.1 e.2).insertAll es = (t.insert e.1 e.2).insertAll es
    by_cases h : e.1 = key
    · rw [h, insert_insert]
    · have hes : key ∈ es.map (·.1) := (List.mem_cons.1 hes).resolve_left (Ne.symm h)
      rw [insert_comm ht h, ih (mem_keys_insert.2 (.inr ht)) hes]

theorem insertAll_insertAll (t : Table α) (es : List (String × α)) :
    (t.insertAll es).insertAll es = t.insertAll es := by
  induction es generalizing t with
  | nil => rfl
  | cons e es ih =>
    show (((t.insert e.1 e.2).insertAll es).insert e.1 e.2).insertAll es =
      (t.insert e.1 e.2).insertAll es
    by_cases h : e.1 ∈ es.map (·.1)
    · rw [insertAll_insert (mem_keys_insertAll (mem_keys_insert.2 (.inl rfl)) es) h, ih]
    · have hget : ((t.insert e.1 e.2).insertAll es).get? e.1 = some e.2 := by
        rw [get?_insertAll_of_not_mem h, get?_insert, if_pos rfl]
      rw [insert_eq_self hget, ih]

end PortalScript.Table
