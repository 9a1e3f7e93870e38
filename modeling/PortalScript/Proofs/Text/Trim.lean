import Mathlib.Data.List.TakeWhile
import PortalScript.Text.Alphanumeric
import PortalScript.Text.Blank
import PortalScript.Text.Split

/-! # Trimmed texts

The blank characters are few, so a class of characters is free of them if it has none of the list
(`not_isBlank_of_class`). Trimming takes blanks from both ends of a text and stops at the first character
that is none, so doing it again changes nothing (`trim_trim`), and neither do more blanks at the end
(`trim_append_blank`). -/

namespace PortalScript.Text

variable {s : List Char} {c : Char}

/-- The blank characters by number. -/
def blanks : List Nat := [9, 10, 11, 12, 13, 0x20, 0x85, 0xA0, 0x1680, 0x2000, 0x2001, 0x2002, 0x2003,
  0x2004, 0x2005, 0x2006, 0x2007, 0x2008, 0x2009, 0x200A, 0x2028, 0x2029, 0x202F, 0x205F, 0x3000]

theorem mem_blanks (h : isBlank c) : c.toNat ∈ blanks := by
  simp only [isBlank, Bool.or_eq_true, Bool.and_eq_true, decide_eq_true_eq, beq_iff_eq] at h
  rcases h with (((((((((⟨h, h'⟩ | h) | h) | h) | h) | ⟨h, h'⟩) | h) | h) | h) | h) | h
  any_goals
    rw [h]
    decide
  · have hr : List.range' 9 5 ⊆ blanks := by decide
    exact hr (List.mem_range'_1.2 ⟨h, by omega⟩)
  · have hr : List.range' 0x2000 11 ⊆ blanks := by decide +kernel
    exact hr (List.mem_range'_1.2 ⟨h, by omega⟩)

theorem not_isBlank_of_class {p : Char → Bool} (hp : ∀ n ∈ blanks, p (.ofNat n) = false) (h : p c) :
    ¬ isBlank c := by
  intro hb
  have := hp _ (mem_blanks hb)
  rw [Char.ofNat_toNat, h] at this
  cases this

theorem not_isBlank_of_isAlphanumeric (h : isAlphanumeric c) : ¬ isBlank c :=
  not_isBlank_of_class (by decide +kernel) h

theorem trimRight_cons (hc : ¬ isBlank c) (cs : List Char) :
    trimRight (c :: cs) = c :: trimRight cs := by
  rw [trimRight]
  split <;> rename_i h
  · rw [if_neg hc, h]
  · rfl

theorem trimRight_concat (hc : ¬ isBlank c) (cs : List Char) :
    trimRight (cs ++ [c]) = cs ++ [c] := by
  induction cs with
  | nil => exact trimRight_cons hc []
  | cons d cs ih =>
    rw [List.cons_append, trimRight, ih]
    split <;> rename_i h
    · simp at h
    · rfl

theorem trimRight_blank (hs : ∀ c ∈ s, isBlank c) : trimRight s = [] := by
  induction s with
  | nil => rfl
  | cons c s ih =>
    rw [trimRight, ih fun d hd => hs d (List.mem_cons_of_mem c hd)]
    exact if_pos (hs c List.mem_cons_self)

theorem trimRight_append_blank (hs : ∀ c ∈ s, isBlank c) (cs : List Char) :
    trimRight (cs ++ s) = trimRight cs := by
  induction cs with
  | nil => exact trimRight_blank hs
  | cons c cs ih => rw [List.cons_append, trimRight, trimRight, ih]

theorem trimRight_trimRight (cs : List Char) : trimRight (trimRight cs) = trimRight cs := by
  induction cs with
  | nil => rfl
  | cons c cs ih =>
    rw [trimRight]
    split <;> rename_i h
    · split <;> rename_i hc
      · rfl
      · exact trimRight_cons hc []
    · rw [trimRight, ih]
      split <;> rename_i h'
      · exact absurd h' h
      · rfl

theorem trimLeft_cases (cs : List Char) : (allBlank cs ∧ trimLeft cs = []) ∨
    ∃ c ds, trimLeft cs = c :: ds ∧ ¬ isBlank c := by
  cases h : trimLeft cs with
  | nil => exact .inl ⟨List.all_eq_true.2 (List.dropWhile_eq_nil_iff.1 h), rfl⟩
  | cons c ds =>
    have hc := List.head?_dropWhile_not isBlank cs
    rw [← trimLeft, h] at hc
    exact .inr ⟨c, ds, rfl, Bool.eq_false_iff.1 hc⟩

theorem trim_trimLeft (cs : List Char) : trim (trimLeft cs) = trim cs := by
  rcases trimLeft_cases cs with ⟨-, h⟩ | ⟨c, ds, h, hc⟩
  · simp only [trim, h]
    rfl
  · have hl : trimLeft (c :: ds) = c :: ds := List.dropWhile_cons_of_neg hc
    rw [trim, h, hl, trim, h]

theorem trim_trim (cs : List Char) : trim (trim cs) = trim cs := by
  rcases trimLeft_cases cs with ⟨-, h⟩ | ⟨c, ds, h, hc⟩
  · simp only [trim, h]
    rfl
  · have ht : trim cs = c :: trimRight ds := by rw [trim, h, trimRight_cons hc]
    have hl : trimLeft (c :: trimRight ds) = c :: trimRight ds := List.dropWhile_cons_of_neg hc
    rw [ht, trim, hl, trimRight_cons hc, trimRight_trimRight]

theorem trim_append_blank (hs : ∀ c ∈ s, isBlank c) (cs : List Char) : trim (cs ++ s) = trim cs := by
  rw [trim, trimLeft, List.dropWhile_append]
  split <;> rename_i h
  · rw [List.dropWhile_eq_nil_iff.2 hs, trim, trimLeft, List.isEmpty_iff.1 h]
  · exact trimRight_append_blank hs _

theorem exists_append_trimRight (cs : List Char) :
    ∃ s, cs = trimRight cs ++ s ∧ ∀ c ∈ s, isBlank c := by
  induction cs with
  | nil => exact ⟨[], rfl, by simp⟩
  | cons c cs ih =>
    obtain ⟨s, hs, hb⟩ := ih
    rw [trimRight]
    split <;> rename_i h
    · rw [h, List.nil_append] at hs
      split <;> rename_i hc
      · exact ⟨c :: cs, rfl, List.forall_mem_cons.2 ⟨hc, hs ▸ hb⟩⟩
      · exact ⟨cs, rfl, hs ▸ hb⟩
    · exact ⟨s, congrArg (c :: ·) hs, hb⟩

theorem trimLeft_append {a : List Char} (h : ¬ allBlank a) (b : List Char) :
    trimLeft (a ++ b) = trimLeft a ++ b := by
  rcases trimLeft_cases a with ⟨ha, -⟩ | ⟨c, ds, ha, -⟩
  · exact absurd ha h
  · rw [trimLeft, List.dropWhile_append, ← trimLeft, ha]
    rfl

theorem trimLeft_blank_append (hs : ∀ c ∈ s, isBlank c) (cs : List Char) :
    trimLeft (s ++ cs) = trimLeft cs := List.dropWhile_append_of_pos hs

theorem after?_trimLeft_iff {p cs rest : List Char} (hp : p.head?.any fun c => !isBlank c) :
    after? p (trimLeft cs) = some rest ↔ ∃ s, cs = s ++ p ++ rest ∧ ∀ c ∈ s, isBlank c := by
  obtain ⟨c, ps, rfl⟩ : ∃ c ps, p = c :: ps := by
    cases p with
    | nil => cases hp
    | cons c ps => exact ⟨c, ps, rfl⟩
  rw [after?_eq_some_iff]
  refine ⟨fun h => ⟨cs.takeWhile isBlank, ?_, fun d hd => List.mem_takeWhile_imp hd⟩, ?_⟩
  · rw [List.append_assoc, ← h]
    exact List.takeWhile_append_dropWhile.symm
  · rintro ⟨s, rfl, hs⟩
    rw [List.append_assoc, trimLeft_blank_append hs]
    exact List.dropWhile_cons_of_neg (by simpa using hp)

end PortalScript.Text
