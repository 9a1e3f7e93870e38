/-! # Tables

A `Table` maps names to values and remembers the order in which the names first came. Main
statement: after `insert` a name finds the new value and every other name what it found before
(`get?_insert`). -/

namespace PortalScript

/-- Named values in the order of their names' first insertion. -/
structure Table (α : Type) where
  entries : List (String × α) := []
deriving Repr, DecidableEq

namespace Table
variable {α : Type}

instance : EmptyCollection (Table α) := ⟨⟨[]⟩⟩
instance : Inhabited (Table α) := ⟨∅⟩

/-- Replaces the value of a listed name in its place, and lists a new name last. -/
def insertEntry (key : String) (value : α) : List (String × α) → List (String × α)
  | [] => [(key, value)]
  | (k, v) :: rest => if k = key then (k, value) :: rest else (k, v) :: insertEntry key value rest

/-- The table in which `key` stands for `value`. A name keeps its first position. -/
def insert (t : Table α) (key : String) (value : α) : Table α := ⟨insertEntry key value t.entries⟩

/-- The value of the first entry under `key`. -/
def lookup (key : String) : List (String × α) → Option α
  | [] => none
  | (k, v) :: rest => if k = key then some v else lookup key rest

def get? (t : Table α) (key : String) : Option α := lookup key t.entries

/-- The table of the entries in their order; the last value of a repeated name wins. -/
def ofList (entries : List (String × α)) : Table α :=
  entries.foldl (fun t (k, v) => t.insert k v) ∅

def keys (t : Table α) : List String := t.entries.map (·.1)

def size (t : Table α) : Nat := t.entries.length

def isEmpty (t : Table α) : Bool := t.entries.isEmpty

theorem lookup_insertEntry (key k : String) (v : α) (es : List (String × α)) :
    lookup k (insertEntry key v es) = if key = k then some v else lookup k es := by
  induction es with
  | nil => simp [insertEntry, lookup]
  | cons e es ih =>
    obtain ⟨k', v'⟩ := e
    by_cases h : k' = key
    · subst h
      by_cases hk : k' = k <;> simp [insertEntry, lookup, hk]
    · by_cases hk : k' = k
      · subst hk
        simp [insertEntry, lookup, h, Ne.symm h]
      · simp [insertEntry, lookup, h, hk, ih]

theorem lookup_eq_none_iff {key : String} {es : List (String × α)} :
    lookup key es = none ↔ ∀ e ∈ es, e.1 ≠ key := by
  induction es with
  | nil => simp [lookup]
  | cons e es ih =>
    obtain ⟨k, v⟩ := e
    by_cases h : k = key <;> simp [lookup, h, ih]

theorem get?_insert (t : Table α) (key k : String) (v : α) :
    (t.insert key v).get? k = if key = k then some v else t.get? k :=
  lookup_insertEntry key k v t.entries

end Table

end PortalScript
