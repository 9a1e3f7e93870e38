import Mathlib.Data.List.Basic

/-! # Slices of a text by bytes

A character takes one to four bytes. `slice?` reads the characters between two byte offsets, and there
are none to read where an offset lies behind the end of the text, within a character, or before the other
one: what is read stands in the text behind as many bytes as the first offset says
(`slice?_eq_some_iff`). -/

namespace PortalScript.Text

/-- How many bytes a text takes. -/
def size : List Char → Nat
  | [] => 0
  | c :: cs => c.utf8Size + size cs

/-- The first `n` bytes of a text and what stands behind them. -/
def cutBytes? : Nat → List Char → Option (List Char × List Char)
  | 0, cs => some ([], cs)
  | _ + 1, [] => none
  | n + 1, c :: cs =>
    if c.utf8Size ≤ n + 1 then
      (cutBytes? (n + 1 - c.utf8Size) cs).map fun (front, rest) => (c :: front, rest)
    else none

/-- What stands between two byte offsets. -/
def slice? (start stop : Nat) (cs : List Char) : Option (List Char) := do
  let (front, _) ← cutBytes? stop cs
  let (_, part) ← cutBytes? start front
  return part

@[simp] theorem size_nil : size [] = 0 := rfl

@[simp] theorem size_cons (c : Char) (cs : List Char) : size (c :: cs) = c.utf8Size + size cs := rfl

@[simp] theorem size_append (a b : List Char) : size (a ++ b) = size a + size b := by
  induction a with
  | nil => simp
  | cons c a ih => simp [ih, Nat.add_assoc]

variable {n start stop : Nat} {cs a b part : List Char}

/-- A text is cut where the bytes of a part of it end. -/
theorem cutBytes?_eq_some_iff : cutBytes? n cs = some (a, b) ↔ cs = a ++ b ∧ n = size a := by
  have hzero (cs : List Char) : 0 = size cs ↔ cs = [] := by
    cases cs with
    | nil => simp
    | cons c cs =>
      have := c.utf8Size_pos
      simp only [size_cons, reduceCtorEq, iff_false]
      omega
  fun_induction cutBytes? n cs generalizing a b with
  | case1 cs =>
    rw [Option.some.injEq, Prod.mk.injEq, hzero]
    constructor
    · rintro ⟨rfl, rfl⟩
      exact ⟨rfl, rfl⟩
    · rintro ⟨rfl, rfl⟩
      exact ⟨rfl, rfl⟩
  | case2 n =>
    simp only [reduceCtorEq, false_iff, not_and]
    intro h
    rw [(List.append_eq_nil_iff.1 h.symm).1]
    exact Nat.succ_ne_zero n
  | case3 n c cs hle ih =>
    simp only [Option.map_eq_some_iff, Prod.exists, Prod.mk.injEq, ih]
    constructor
    · rintro ⟨front, rest, ⟨rfl, hn⟩, rfl, rfl⟩
      refine ⟨rfl, ?_⟩
      rw [size_cons]
      omega
    · rintro ⟨h, hn⟩
      cases a with
      | nil => cases hn
      | cons d a =>
        obtain ⟨rfl, rfl⟩ := List.cons.inj h
        rw [size_cons] at hn
        exact ⟨a, b, ⟨rfl, by omega⟩, rfl, rfl⟩
  | case4 n c cs hle =>
    simp only [reduceCtorEq, false_iff, not_and]
    rintro h hn
    cases a with
    | nil => cases hn
    | cons d a =>
      obtain ⟨rfl, -⟩ := List.cons.inj h
      rw [size_cons] at hn
      omega

theorem slice?_eq_some_iff : slice? start stop cs = some part ↔
    ∃ a c, cs = a ++ part ++ c ∧ start = size a ∧ stop = size (a ++ part) := by
  simp only [slice?, Option.bind_eq_bind, Option.bind_eq_some_iff, Prod.exists, Option.pure_def,
    Option.some.injEq, cutBytes?_eq_some_iff]
  constructor
  · rintro ⟨front, c, ⟨rfl, hstop⟩, a, part, ⟨rfl, hstart⟩, rfl⟩
    exact ⟨a, c, rfl, hstart, hstop⟩
  · rintro ⟨a, c, rfl, hstart, hstop⟩
    exact ⟨a ++ part, c, ⟨rfl, hstop⟩, a, part, ⟨rfl, hstart⟩, rfl⟩

theorem slice?_self (cs : List Char) : slice? 0 (size cs) cs = some cs :=
  slice?_eq_some_iff.2 ⟨[], [], by simp, rfl, rfl⟩

/-- An offset within a character is none at which a text can be cut. -/
example : slice? 2 3 "aé~".toList = none ∧ slice? 1 3 "aé~".toList = some ['é'] := by decide

end PortalScript.Text
