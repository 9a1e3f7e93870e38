import Mathlib.Data.List.Basic
import PortalScript.Text.Split

/-! # Parts of a text

Parts without the separator are what their joined text splits into (`splitOn_joinWith`). A text put
behind another one goes on in its last part (`splitOn_append`). -/

namespace PortalScript.Text
variable {sep c : Char} {cs ds before rest : List Char} {parts : List (List Char)}

theorem splitOn_eq (sep : Char) (cs : List Char) : splitOn sep cs = cs.splitOn sep := by
  induction cs with
  | nil => simp [splitOn]
  | cons c cs ih =>
    rw [splitOn, List.splitOn_cons_eq_if_modifyHead, ← ih]
    split <;> rename_i hc
    · simp [hc]
    · rw [if_neg (by simpa using hc)]
      split <;> rename_i h
      · exact absurd h (splitOn_ne_nil sep cs)
      · rw [h]
        rfl

theorem joinWith_eq (sep : Char) (parts : List (List Char)) :
    joinWith sep parts = [sep].intercalate parts := by
  fun_induction joinWith sep parts with
  | case1 => rfl
  | case2 part => simp
  | case3 part parts hne ih =>
    obtain ⟨next, parts, rfl⟩ := List.exists_cons_of_ne_nil hne
    rw [ih, List.intercalate_cons_cons, List.append_assoc]
    rfl

theorem splitOn_joinWith (h : ∀ part ∈ parts, sep ∉ part) (hne : parts ≠ []) :
    splitOn sep (joinWith sep parts) = parts := by
  rw [splitOn_eq, joinWith_eq, List.splitOn_intercalate sep h hne]

theorem mem_joinWith {part : List Char} (hp : part ∈ parts) (hc : c ∈ part) :
    c ∈ joinWith sep parts := by
  fun_induction joinWith sep parts with
  | case1 => cases hp
  | case2 => exact List.mem_singleton.1 hp ▸ hc
  | case3 first parts hne ih =>
    rcases List.mem_cons.1 hp with rfl | hp
    · exact List.mem_append_left _ hc
    · exact List.mem_append_right _ (List.mem_cons_of_mem _ (ih hp))

theorem splitOn_append (sep : Char) (cs ds : List Char) : ∃ init last first rest,
    splitOn sep cs = init ++ [last] ∧ splitOn sep ds = first :: rest ∧
      splitOn sep (cs ++ ds) = init ++ (last ++ first) :: rest := by
  induction cs with
  | nil =>
    obtain ⟨first, rest, h⟩ := List.exists_cons_of_ne_nil (splitOn_ne_nil sep ds)
    exact ⟨[], [], first, rest, rfl, h, h⟩
  | cons c cs ih =>
    obtain ⟨init, last, first, rest, hcs, hds, h⟩ := ih
    simp only [List.cons_append, splitOn, hcs, h]
    split
    · exact ⟨[] :: init, last, first, rest, rfl, hds, rfl⟩
    · cases init with
      | nil => exact ⟨[], c :: last, first, rest, rfl, hds, rfl⟩
      | cons part init => exact ⟨(c :: part) :: init, last, first, rest, rfl, hds, rfl⟩

theorem not_mem_of_mem_splitOn {sep : Char} {cs part : List Char} (h : part ∈ splitOn sep cs) :
    sep ∉ part := by
  induction cs generalizing part with
  | nil =>
    rw [splitOn, List.mem_singleton] at h
    simp [h]
  | cons c cs ih =>
    rw [splitOn] at h
    split at h <;> rename_i hc
    · rcases List.mem_cons.1 h with rfl | h
      · simp
      · exact ih h
    · split at h <;> rename_i hs
      · exact absurd hs (splitOn_ne_nil sep cs)
      · rename_i p ps
        rcases List.mem_cons.1 h with rfl | h
        · rintro hm
          rcases List.mem_cons.1 hm with rfl | hm
          · exact hc rfl
          · exact ih (hs ▸ List.mem_cons_self) hm
        · exact ih (hs ▸ List.mem_cons_of_mem _ h)

theorem eq_of_append_cons {c : Char} {a b x y : List Char} (ha : c ∉ a) (hb : c ∉ b)
    (h : a ++ c :: x = b ++ c :: y) : a = b := by
  have ht {a x : List Char} (ha : c ∉ a) : (a ++ c :: x).takeWhile (· != c) = a := by
    rw [List.takeWhile_append_of_pos, List.takeWhile_cons_of_neg (by simp), List.append_nil]
    intro d hd
    simp only [bne_iff_ne, ne_eq]
    rintro rfl
    exact ha hd
  rw [← ht (x := x) ha, h, ht hb]

theorem cutAt?_eq_some_iff :
    cutAt? [c] cs = some (before, rest) ↔ cs = before ++ c :: rest ∧ c ∉ before := by
  induction cs generalizing before with
  | nil => simp [cutAt?]
  | cons d cs ih =>
    rw [cutAt?]
    by_cases hd : c = d
    · subst hd
      cases before with
      | nil => simp [after?]
      | cons b before =>
        refine ⟨fun h => by simp [after?] at h, ?_⟩
        rintro ⟨⟨⟩, hb⟩
        exact absurd List.mem_cons_self hb
    · have hafter : after? [c] (d :: cs) = none := if_neg hd
      simp only [hafter, Option.map_eq_some_iff, Prod.mk.injEq, Prod.exists]
      cases before with
      | nil => simp [Ne.symm hd]
      | cons b before =>
        simp only [List.cons.injEq, List.cons_append, List.mem_cons, not_or]
        constructor
        · rintro ⟨before', rest', h, ⟨rfl, rfl⟩, rfl⟩
          obtain ⟨rfl, hb⟩ := ih.1 h
          exact ⟨⟨rfl, rfl⟩, hd, hb⟩
        · rintro ⟨⟨rfl, rfl⟩, -, hb⟩
          exact ⟨before, rest, ih.2 ⟨rfl, hb⟩, ⟨rfl, rfl⟩, rfl⟩

theorem cutAt?_eq_none_iff {p : List Char} : cutAt? p cs = none ↔ ¬ p <:+: cs := by
  induction cs with
  | nil => simp [cutAt?]
  | cons c cs ih =>
    rw [cutAt?, List.infix_cons_iff]
    split <;> rename_i h
    · have hp : p <+: c :: cs := ⟨_, (after?_eq_some_iff.1 h).symm⟩
      simp [hp]
    · have hp : ¬ p <+: c :: cs := by
        rintro ⟨rest, hr⟩
        rw [after?_eq_some_iff.2 hr.symm] at h
        cases h
      rw [Option.map_eq_none_iff, ih, or_iff_right hp]

/-- A text without `sep` that a text with `sep` starts with ends in front of it. -/
theorem isPrefix_of_isPrefix_append_cons {p u v : List Char} (hp : sep ∉ p)
    (h : p <+: u ++ sep :: v) : p <+: u := by
  obtain ⟨rest, hrest⟩ := h
  rcases List.append_eq_append_iff.1 hrest with ⟨w, hu, -⟩ | ⟨w, rfl, hw⟩
  · exact ⟨w, hu.symm⟩
  · cases w with
    | nil => simp
    | cons d w =>
      obtain ⟨rfl, -⟩ := List.cons.inj hw
      simp at hp

/-- Where a text without `sep` is not in what stands in front of `sep`, it is looked for behind it. -/
theorem cutAt?_append_cons {p u : List Char} (hp : sep ∉ p) (hu : ¬ p <:+: u) (v : List Char) :
    cutAt? p (u ++ sep :: v) =
      (cutAt? p v).map fun (before, rest) => (u ++ sep :: before, rest) := by
  have hafter {w : List Char} (hw : ¬ p <:+: w) : after? p (w ++ sep :: v) = none := by
    cases h : after? p (w ++ sep :: v) with
    | none => rfl
    | some rest =>
      have hprefix : p <+: w ++ sep :: v := ⟨rest, (after?_eq_some_iff.1 h).symm⟩
      exact absurd (isPrefix_of_isPrefix_append_cons hp hprefix).isInfix hw
  induction u with
  | nil =>
    have h : after? p (sep :: v) = none := hafter hu
    rw [List.nil_append, cutAt?, h]
    rfl
  | cons d u ih =>
    have h : after? p (d :: (u ++ sep :: v)) = none := hafter hu
    rw [List.cons_append, cutAt?, h, ih fun hi => hu (hi.trans (List.suffix_cons d u).isInfix),
      Option.map_map]
    rfl

theorem cutAt?_append_self (p v : List Char) : cutAt? p (p ++ v) = some ([], v) := by
  cases p with
  | nil =>
    cases v with
    | nil => rfl
    | cons d v => rfl
  | cons d p =>
    have h : after? (d :: p) (d :: (p ++ v)) = some v := after?_eq_some_iff.2 rfl
    rw [List.cons_append, cutAt?, h]

theorem length_le_of_cutAt? {p u v : List Char} (h : cutAt? p cs = some (before, rest))
    (hu : cs = u ++ (p ++ v)) : before.length ≤ u.length := by
  induction cs generalizing before u with
  | nil =>
    rw [cutAt?] at h
    split at h
    · cases h
      exact Nat.zero_le _
    · cases h
  | cons c cs ih =>
    rw [cutAt?] at h
    split at h <;> rename_i ha
    · cases h
      exact Nat.zero_le _
    · obtain ⟨⟨before, rest⟩, hb, he⟩ := Option.map_eq_some_iff.1 h
      cases he
      cases u with
      | nil =>
        rw [List.nil_append] at hu
        rw [after?_eq_some_iff.2 hu] at ha
        cases ha
      | cons d u =>
        obtain ⟨rfl, htail⟩ := List.cons.inj hu
        exact Nat.succ_le_succ (ih hb htail)

end PortalScript.Text
