import Mathlib.Data.List.Induction
import PortalScript.Text.Numeral

/-! # Numbers read back

A number that was written out is read back as itself, if it keeps the limit (`readNat?_toString`), and
no two numbers are written alike, padded or not (`padded_inj`). A numeral is its value written out, behind
zeros (`exists_eq_replicate_append`). -/

namespace PortalScript.Text
variable {cs : List Char} {c : Char}

theorem digitsValue_toString (n : Nat) : digitsValue (toString n).toList = n := by
  rw [Nat.toString_eq_repr, Nat.toList_repr]
  have h := Nat.ofDigitChars_ten_toDigits (n := n)
  rwa [Nat.ofDigitChars_eq_foldl] at h

theorem isNumeral_toString (n : Nat) : isNumeral (toString n).toList := by
  rw [Nat.toString_eq_repr, Nat.toList_repr, isNumeral, Bool.and_eq_true]
  refine ⟨by simp [Nat.toDigits_ne_nil], List.all_eq_true.2 fun c hc => ?_⟩
  exact Nat.isDigit_of_mem_toDigits (b := 10) (by omega) (by omega) hc

theorem isNumeral_iff : isNumeral cs ↔ cs ≠ [] ∧ ∀ c ∈ cs, c.isDigit := by
  simp [isNumeral]

theorem digitsValue_concat (cs : List Char) (c : Char) :
    digitsValue (cs ++ [c]) = 10 * digitsValue cs + (c.toNat - '0'.toNat) := by
  rw [digitsValue, List.foldl_append]
  rfl

theorem digitsValue_replicate_append (zeros : Nat) (cs : List Char) :
    digitsValue (.replicate zeros '0' ++ cs) = digitsValue cs := by
  induction zeros with
  | zero => rfl
  | succ zeros ih => exact ih

theorem digitsValue_padded (width n : Nat) : digitsValue (padded width n).toList = n := by
  rw [padded, String.toList_append, String.toList_ofList, digitsValue_replicate_append,
    digitsValue_toString]

theorem padded_inj {width m n : Nat} : padded width m = padded width n ↔ m = n :=
  ⟨fun h => by rw [← digitsValue_padded width m, h, digitsValue_padded], congrArg (padded width)⟩

theorem isNumeral_replicate_append (zeros : Nat) (h : isNumeral cs) :
    isNumeral (.replicate zeros '0' ++ cs) := by
  rw [isNumeral_iff] at h ⊢
  refine ⟨fun hn => h.1 (List.append_eq_nil_iff.1 hn).2, fun c hc => ?_⟩
  rcases List.mem_append.1 hc with hc | hc
  · cases List.eq_of_mem_replicate hc
    rfl
  · exact h.2 c hc

theorem toNat_of_isDigit (h : c.isDigit) : 48 ≤ c.toNat ∧ c.toNat ≤ 57 := by
  simp only [Char.isDigit, Bool.and_eq_true, decide_eq_true_eq, ge_iff_le, UInt32.le_iff_toNat_le] at h
  exact h

theorem toDigits_of_isDigit (h : c.isDigit) : Nat.toDigits 10 (c.toNat - '0'.toNat) = [c] := by
  obtain ⟨hlow, hhigh⟩ := toNat_of_isDigit h
  show Nat.toDigits 10 (c.toNat - 48) = [c]
  have hchar : ∀ d < 10, Nat.digitChar d = .ofNat (48 + d) := by decide
  rw [Nat.toDigits_of_lt_base (by omega), hchar _ (by omega), Nat.add_sub_cancel' hlow, Char.ofNat_toNat]

/-- A numeral is that of its value behind zeros. -/
theorem exists_eq_replicate_append (h : isNumeral cs) :
    ∃ zeros, cs = .replicate zeros '0' ++ (toString (digitsValue cs)).toList := by
  obtain ⟨hne, hd⟩ := isNumeral_iff.1 h
  simp only [Nat.toString_eq_repr, Nat.toList_repr]
  clear h
  induction cs using List.reverseRecOn with
  | nil => exact absurd rfl hne
  | append_singleton cs c ih =>
    have hc := toDigits_of_isDigit (hd c (by simp))
    rw [digitsValue_concat]
    by_cases hcs : cs = []
    · subst hcs
      refine ⟨0, ?_⟩
      rw [digitsValue, List.foldl_nil, Nat.mul_zero, Nat.zero_add, hc]
      rfl
    obtain ⟨zeros, hz⟩ := ih hcs fun d hm => hd d (List.mem_append_left _ hm)
    refine (Nat.eq_zero_or_pos (digitsValue cs)).elim (fun hv => ⟨zeros + 1, ?_⟩) fun hv => ⟨zeros, ?_⟩
    · rw [hv, Nat.toDigits_zero] at hz
      rw [hv, Nat.mul_zero, Nat.zero_add, hc, List.replicate_succ', ← hz]
    · obtain ⟨hlow, hhigh⟩ := toNat_of_isDigit (hd c (by simp))
      have hlast : c.toNat - '0'.toNat < 10 := by
        show c.toNat - 48 < 10
        omega
      rw [← Nat.toDigits_append_toDigits (by omega) hv hlast, hc, ← List.append_assoc, ← hz]

theorem readNat?_of_isNumeral {cs : List Char} (h : isNumeral cs) (limit : Nat) :
    readNat? limit cs = ofDigits? limit cs := by
  unfold readNat?
  split
  · simp [isNumeral] at h
  · rfl

theorem readNat?_toString (limit n : Nat) :
    readNat? limit (toString n).toList = if n ≤ limit then some n else none := by
  rw [readNat?_of_isNumeral (isNumeral_toString n), ofDigits?, isNumeral_toString, digitsValue_toString]
  simp

end PortalScript.Text
