/-! # Cutting texts

`after? p cs` is what follows `p` at the start of `cs`; `cutAt? p cs` divides `cs` around the first
occurrence of `p`; `splitOn c cs` lists the parts of `cs` between occurrences of the character `c`. -/

namespace PortalScript.Text

/-- What follows `p` in a text that starts with `p`. -/
def after? : List Char → List Char → Option (List Char)
  | [], cs => some cs
  | _ :: _, [] => none
  | p :: ps, c :: cs => if p = c then after? ps cs else none

/-- The parts before and behind the first occurrence of `p`. -/
def cutAt? (p : List Char) : List Char → Option (List Char × List Char)
  | [] => if p = [] then some ([], []) else none
  | c :: cs =>
    match after? p (c :: cs) with
    | some rest => some ([], rest)
    | none => (cutAt? p cs).map fun (before, rest) => (c :: before, rest)

/-- The parts between occurrences of `sep`, empty ones included; a text without `sep` is its own
only part. -/
def splitOn (sep : Char) : List Char → List (List Char)
  | [] => [[]]
  | c :: cs =>
    if c = sep then [] :: splitOn sep cs
    else
      match splitOn sep cs with
      | [] => [[c]]
      | part :: parts => (c :: part) :: parts

/-- The parts with `sep` between each two of them. -/
def joinWith (sep : Char) : List (List Char) → List Char
  | [] => []
  | [part] => part
  | part :: parts => part ++ sep :: joinWith sep parts

theorem after?_eq_some_iff {p cs rest : List Char} : after? p cs = some rest ↔ cs = p ++ rest := by
  induction p generalizing cs with
  | nil => simp [after?]
  | cons a p ih =>
    cases cs with
    | nil => simp [after?]
    | cons c cs =>
      by_cases h : a = c
      · simp [after?, h, ih]
      · simp [after?, h, Ne.symm h]

theorem eq_append_of_cutAt? {p cs before rest : List Char} (h : cutAt? p cs = some (before, rest)) :
    cs = before ++ p ++ rest := by
  induction cs generalizing before rest with
  | nil => simp [cutAt?] at h; simp [h]
  | cons c cs ih =>
    simp only [cutAt?] at h
    split at h
    · rename_i r hr
      cases h
      simpa using after?_eq_some_iff.1 hr
    · obtain ⟨⟨b, r⟩, hb, he⟩ := Option.map_eq_some_iff.1 h
      cases he
      simp [ih hb]

theorem splitOn_ne_nil (sep : Char) (cs : List Char) : splitOn sep cs ≠ [] := by
  cases cs with
  | nil => simp [splitOn]
  | cons c cs =>
    simp only [splitOn]
    split
    · simp
    · split <;> simp

theorem joinWith_splitOn (sep : Char) (cs : List Char) : joinWith sep (splitOn sep cs) = cs := by
  induction cs with
  | nil => rfl
  | cons c cs ih =>
    simp only [splitOn]
    split
    · rename_i hc
      subst hc
      obtain ⟨p, ps, hp⟩ := List.exists_cons_of_ne_nil (splitOn_ne_nil c cs)
      rw [hp] at ih ⊢
      simp [joinWith, ih]
    · split
      · rename_i h; exact absurd h (splitOn_ne_nil sep cs)
      · rename_i p ps hp
        rw [hp] at ih
        cases ps with
        | nil => simpa [joinWith] using ih
        | cons q qs => simpa [joinWith] using ih

end PortalScript.Text
