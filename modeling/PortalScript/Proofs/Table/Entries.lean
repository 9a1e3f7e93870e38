import Mathlib.Data.List.Induction
import Mathlib.Data.List.Nodup
import PortalScript.Table

/-! # The table of a list of entries

In the table of a list of entries each name stands where it came first (`keys_ofList`), for the value
that came last (`get?_ofList`), and it stands there once (`nodup_keys_ofList`). -/

namespace PortalScript.Table
variable {α : Type} {key k : String} {v v' a b : α} {before after es es' : List (String × α)}
  {e : String × α} {t : Table α}

/-! ## Values -/

theorem lookup_append (key : String) (es es' : List (String × α)) :
    lookup key (es ++ es') = (lookup key es).or (lookup key es') := by
  induction es with
  | nil => rfl
  | cons e es ih =>
    rw [List.cons_append, lookup, lookup, ih]
    split <;> rfl

theorem ofList_concat (es : List (String × α)) (e : String × α) :
    ofList (es ++ [e]) = (ofList es).insert e.1 e.2 := by
  rw [ofList, List.foldl_append]
  rfl

/-- The last entry under a name counts. -/
theorem get?_ofList (key : String) (es : List (String × α)) :
    (ofList es).get? key = lookup key es.reverse := by
  induction es using List.reverseRecOn with
  | nil => rfl
  | append_singleton es e ih =>
    rw [ofList_concat, get?_insert, ih, List.reverse_concat]
    rfl

theorem get?_ofList_append (key k : String) (v : α) (before after : List (String × α)) :
    (ofList (before ++ (k, v) :: after)).get? key = (lookup key after.reverse).or
      (if k = key then some v else lookup key before.reverse) := by
  rw [get?_ofList, List.reverse_append, List.reverse_cons, List.append_assoc, lookup_append]
  rfl

theorem get?_ofList_last (h : ∀ e ∈ after, e.1 ≠ key) (v : α) (before : List (String × α)) :
    (ofList (before ++ (key, v) :: after)).get? key = some v := by
  have hn : lookup key after.reverse = none := by
    rw [lookup_eq_none_iff]
    exact fun e he => h e (List.mem_reverse.1 he)
  rw [get?_ofList_append, hn, if_pos rfl, Option.none_or]

/-- An entry on which the value of a name depends is the last one under that name. -/
theorem eq_of_get?_ne (ha : (ofList (before ++ (k, v) :: after)).get? key = some a)
    (hb : (ofList (before ++ (k, v') :: after)).get? key = some b) (hab : a ≠ b) :
    k = key ∧ (∀ e ∈ after, e.1 ≠ key) ∧ v = a := by
  rw [get?_ofList_append] at ha hb
  have hn : lookup key after.reverse = none := by
    cases hl : lookup key after.reverse with
    | none => rfl
    | some z =>
      rw [hl] at ha hb
      exact absurd (Option.some.inj (ha.symm.trans hb)) hab
  rw [hn, Option.none_or] at ha hb
  have hk : k = key := by
    by_contra hk
    rw [if_neg hk] at ha hb
    exact hab (Option.some.inj (ha.symm.trans hb))
  rw [if_pos hk] at ha
  refine ⟨hk, fun e he => ?_, Option.some.inj ha⟩
  exact lookup_eq_none_iff.1 hn e (List.mem_reverse.2 he)

theorem lookup_eq_some_iff (h : (es.map (·.1)).Nodup) : lookup key es = some v ↔ (key, v) ∈ es := by
  induction es with
  | nil => simp [lookup]
  | cons e es ih =>
    obtain ⟨k, w⟩ := e
    rw [List.map_cons, List.nodup_cons] at h
    rw [lookup, List.mem_cons, Prod.mk.injEq]
    split <;> rename_i hk
    · subst hk
      have hv : (k, v) ∉ es := fun hm => h.1 (List.mem_map.2 ⟨_, hm, rfl⟩)
      simp [hv, eq_comm]
    · simp [ih h.2, Ne.symm hk]

theorem lookup_eq_some_iff_append : lookup key es = some v ↔
    ∃ front rest, es = front ++ (key, v) :: rest ∧ ∀ e ∈ front, e.1 ≠ key := by
  induction es with
  | nil => simp [lookup]
  | cons e es ih =>
    obtain ⟨k, w⟩ := e
    rw [lookup]
    split <;> rename_i hk
    · subst hk
      constructor
      · rintro ⟨⟩
        exact ⟨[], es, rfl, by simp⟩
      · rintro ⟨front, rest, he, hfront⟩
        cases front with
        | nil =>
          cases he
          rfl
        | cons d front =>
          obtain ⟨rfl, -⟩ := List.cons.inj he
          exact absurd rfl (hfront _ List.mem_cons_self)
    · rw [ih]
      constructor
      · rintro ⟨front, rest, rfl, hfront⟩
        exact ⟨(k, w) :: front, rest, rfl, List.forall_mem_cons.2 ⟨hk, hfront⟩⟩
      · rintro ⟨front, rest, he, hfront⟩
        cases front with
        | nil =>
          cases he
          exact absurd rfl hk
        | cons d front =>
          obtain ⟨rfl, rfl⟩ := List.cons.inj he
          exact ⟨front, rest, rfl, (List.forall_mem_cons.1 hfront).2⟩

theorem isSome_lookup_iff : (lookup key es).isSome ↔ key ∈ es.map (·.1) := by
  rw [Option.isSome_iff_ne_none, ne_eq, lookup_eq_none_iff]
  simp

theorem lookup_map_of_mem {keys : List String} (h : key ∈ keys) (value : String → α) :
    lookup key (keys.map fun key => (key, value key)) = some (value key) := by
  induction keys with
  | nil => cases h
  | cons k keys ih =>
    rw [List.map_cons, lookup]
    split <;> rename_i hk
    · rw [hk]
    · exact ih ((List.mem_cons.1 h).resolve_left fun he => hk he.symm)

theorem lookup_perm (hp : es.Perm es') (h : (es.map (·.1)).Nodup) (key : String) :
    lookup key es = lookup key es' := by
  have h' : (es'.map (·.1)).Nodup := (hp.map _).nodup h
  refine Option.ext fun v => ?_
  rw [lookup_eq_some_iff h, lookup_eq_some_iff h', hp.mem_iff]

/-! ## Entries and names -/

theorem mem_of_mem_insertEntry {k : String} {v : α} (h : e ∈ insertEntry k v es) :
    e = (k, v) ∨ e ∈ es := by
  induction es with
  | nil => exact .inl (List.mem_singleton.1 h)
  | cons a es ih =>
    rw [insertEntry] at h
    split at h <;> rename_i ha
    · rcases List.mem_cons.1 h with rfl | h
      · exact .inl (by rw [ha])
      · exact .inr (List.mem_cons_of_mem _ h)
    · rcases List.mem_cons.1 h with rfl | h
      · exact .inr List.mem_cons_self
      · exact (ih h).imp_right (List.mem_cons_of_mem _)

theorem mem_of_mem_foldl_insert (h : e ∈ (es.foldl (fun t (k, v) => t.insert k v) t).entries) :
    e ∈ t.entries ∨ e ∈ es := by
  induction es generalizing t with
  | nil => exact .inl h
  | cons a es ih =>
    rcases ih h with h | h
    · rcases mem_of_mem_insertEntry h with rfl | h
      · exact .inr List.mem_cons_self
      · exact .inl h
    · exact .inr (List.mem_cons_of_mem _ h)

theorem mem_of_mem_ofList (h : e ∈ (Table.ofList es).entries) : e ∈ es :=
  (mem_of_mem_foldl_insert h).resolve_left List.not_mem_nil

theorem keys_insert (t : Table α) (key : String) (v : α) :
    (t.insert key v).keys = if key ∈ t.keys then t.keys else t.keys ++ [key] := by
  show (insertEntry key v t.entries).map (·.1) =
    if key ∈ t.entries.map (·.1) then t.entries.map (·.1) else t.entries.map (·.1) ++ [key]
  induction t.entries with
  | nil => rfl
  | cons e es ih =>
    by_cases h : e.1 = key
    · simp [insertEntry, h]
    · simp only [insertEntry, h, if_false, List.map_cons, List.mem_cons, Ne.symm h, false_or, ih]
      split <;> rfl

theorem keys_ofList (es : List (String × α)) : (ofList es).keys = (es.map (·.1)).eraseDups := by
  induction es using List.reverseRecOn with
  | nil => rfl
  | append_singleton es e ih =>
    rw [ofList_concat, keys_insert, ih, List.map_append, List.eraseDups_append]
    by_cases h : e.1 ∈ es.map (·.1)
    · simp [List.removeAll, List.mem_eraseDups, h]
    · simp [List.removeAll, List.mem_eraseDups, List.eraseDups_cons, h]

theorem nodup_keys_insert (h : t.keys.Nodup) : (t.insert key v).keys.Nodup := by
  rw [keys_insert]
  split <;> rename_i hk
  · exact h
  · exact List.Nodup.append h (List.nodup_singleton key) (by simpa using hk)

theorem nodup_keys_ofList (es : List (String × α)) : (ofList es).keys.Nodup := by
  induction es using List.reverseRecOn with
  | nil => exact List.nodup_nil
  | append_singleton es e ih =>
    rw [ofList_concat]
    exact nodup_keys_insert ih

end PortalScript.Table
