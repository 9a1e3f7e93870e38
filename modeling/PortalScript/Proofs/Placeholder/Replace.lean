import Mathlib.Data.List.Infix
import PortalScript.Params
import PortalScript.Placeholder
import PortalScript.Proofs.Text.Split

/-! # Placeholders read from left to right

`replace` reads a text one character at a time and replaces the placeholder of a listed key wherever it
starts. `fill` looks for two opening braces, and where no such placeholder starts with them it goes on
behind both. So it pairs the braces of a run from the left: what it replaces are the placeholders with
an even number of opening braces right before them (`fillChars_eq`), and it is `replace` for all values
just if no placeholder has an odd number (`fill_eq_replace_iff`). -/

namespace PortalScript.Placeholder

/-- The placeholder of a key as it stands in a template. -/
def spelling (key : String) : List Char := '{' :: '{' :: (key.toList ++ ['}', '}'])

/-- Keys are words of the characters of parameter names. -/
def IsWord (key : String) : Prop := key.toList ≠ [] ∧ ∀ c ∈ key.toList, Params.isKeyChar c

/-- The first value listed whose placeholder starts a text, and what stands behind the placeholder. -/
def start? (values : List (String × String)) (cs : List Char) : Option (String × List Char) :=
  values.findSome? fun e => (Text.after? (spelling e.1) cs).map (e.2, ·)

variable {values : List (String × String)} {key value : String} {cs u v rest : List Char} {n : Nat}

theorem exists_of_start? (h : start? values cs = some (value, rest)) :
    ∃ key, (key, value) ∈ values ∧ cs = spelling key ++ rest := by
  obtain ⟨⟨key, value⟩, hm, he⟩ := List.exists_of_findSome?_eq_some h
  obtain ⟨rest, hr, he⟩ := Option.map_eq_some_iff.1 he
  cases he
  exact ⟨key, hm, Text.after?_eq_some_iff.1 hr⟩

theorem start?_eq_none_iff : start? values cs = none ↔ ∀ e ∈ values, ¬ spelling e.1 <+: cs := by
  rw [start?, List.findSome?_eq_none_iff]
  refine forall₂_congr fun e he => ?_
  rw [Option.map_eq_none_iff, ← not_iff_not, not_not, ← ne_eq, Option.ne_none_iff_exists']
  exact exists_congr fun rest => Text.after?_eq_some_iff.trans eq_comm

theorem start?_eq_none_of_not_open (h : ¬ ['{', '{'] <+: cs) : start? values cs = none := by
  rw [start?_eq_none_iff]
  rintro e - ⟨rest, rfl⟩
  exact h ⟨e.1.toList ++ ['}', '}'] ++ rest, rfl⟩

/-- The text in which, read from left to right, each placeholder of a listed key is replaced by the
first value listed for it. -/
def replaceChars (values : List (String × String)) : List Char → List Char
  | [] => []
  | c :: cs =>
    match _h : start? values (c :: cs) with
    | some (value, rest) => value.toList ++ replaceChars values rest
    | none => c :: replaceChars values cs
termination_by cs => cs.length
decreasing_by
  · obtain ⟨key, -, hk⟩ := exists_of_start? _h
    rw [hk]
    simp [spelling]; omega
  · simp

/-- The text in which each placeholder of a listed key is replaced by the first value listed for it. -/
def replace (values : List (String × String)) (body : String) : String :=
  .ofList (replaceChars values body.toList)

/-- As `replaceChars`, but only placeholders with an even number of opening braces before them count;
`n` is how many stand right before the text. -/
def replacePaired (values : List (String × String)) (n : Nat) : List Char → List Char
  | [] => []
  | c :: cs =>
    match _h : if n % 2 = 0 then start? values (c :: cs) else none with
    | some (value, rest) => value.toList ++ replacePaired values 0 rest
    | none => c :: replacePaired values (if c = '{' then n + 1 else 0) cs
termination_by cs => cs.length
decreasing_by
  · split at _h
    · obtain ⟨key, -, hk⟩ := exists_of_start? _h
      rw [hk]
      simp [spelling]; omega
    · cases _h
  · simp

/-- How many opening braces stand at the end of a text. -/
def bracesAtEnd (cs : List Char) : Nat := (cs.reverse.takeWhile (· = '{')).length

theorem bracesAtEnd_concat (cs : List Char) (c : Char) :
    bracesAtEnd (cs ++ [c]) = if c = '{' then bracesAtEnd cs + 1 else 0 := by
  unfold bracesAtEnd
  by_cases h : c = '{' <;> simp [h]

theorem bracesAtEnd_spelling (u : List Char) (key : String) : bracesAtEnd (u ++ spelling key) = 0 := by
  have h : u ++ spelling key = (u ++ '{' :: '{' :: (key.toList ++ ['}'])) ++ ['}'] := by simp [spelling]
  rw [h, bracesAtEnd_concat]
  rfl

/-! ### Words and their placeholders -/

namespace IsWord

theorem not_brace (h : IsWord key) : '{' ∉ key.toList ∧ '}' ∉ key.toList := by
  have hopen : Params.isKeyChar '{' = false := by decide +kernel
  have hclose : Params.isKeyChar '}' = false := by decide +kernel
  constructor <;> intro hm
  · exact absurd (h.2 _ hm) (by simp [hopen])
  · exact absurd (h.2 _ hm) (by simp [hclose])

theorem not_open (h : IsWord key) (hs : spelling key = u ++ rest) (hu : u ≠ []) (hr : rest ≠ [])
    (v : List Char) : ¬ ['{', '{'] <+: rest ++ v := by
  obtain ⟨c, u, rfl⟩ := List.exists_cons_of_ne_nil hu
  obtain ⟨d, rest, rfl⟩ := List.exists_cons_of_ne_nil hr
  have hmem : '{' ∉ key.toList ++ ['}', '}'] := by simp [h.not_brace.1]
  obtain ⟨-, hbehind⟩ := List.cons.inj hs
  rintro ⟨w, hw⟩
  obtain ⟨hd, hw⟩ := List.cons.inj hw
  cases u with
  | nil =>
    obtain ⟨-, hkey⟩ := List.cons.inj hbehind
    have hne : rest ≠ [] := by
      rw [← hkey]
      simp
    obtain ⟨a, rest, rfl⟩ := List.exists_cons_of_ne_nil hne
    obtain ⟨ha, -⟩ := List.cons.inj hw
    refine hmem ?_
    rw [hkey, ha]
    exact List.mem_cons_self
  | cons a u =>
    obtain ⟨-, hkey⟩ := List.cons.inj hbehind
    refine hmem ?_
    rw [hkey, hd]
    exact List.mem_append_right _ List.mem_cons_self

theorem spelling_isPrefix {key' : String} (h : IsWord key)
    (hs : spelling key ++ rest = u ++ (spelling key' ++ v)) (hu : u ≠ []) :
    ∃ w, u = spelling key ++ w ∧ rest = w ++ (spelling key' ++ v) := by
  rcases List.append_eq_append_iff.1 hs with ⟨w, rfl, hw⟩ | ⟨w, hw, hr⟩
  · exact ⟨w, rfl, hw⟩
  · by_cases hne : w = []
    · subst hne
      exact ⟨[], by simpa using hw.symm, by simpa using hr.symm⟩
    · refine absurd ⟨key'.toList ++ ['}', '}'] ++ v, ?_⟩ (h.not_open hw hu hne rest)
      rw [← hr]
      rfl

theorem eq_of_spelling {key' : String} (h : IsWord key) (h' : IsWord key')
    (hs : spelling key ++ u = spelling key' ++ v) : key = key' := by
  have hbrace : key.toList ++ '}' :: '}' :: u = key'.toList ++ '}' :: '}' :: v := by
    simpa [spelling] using hs
  exact String.toList_inj.1 (Text.eq_of_append_cons h.not_brace.2 h'.not_brace.2 hbrace)

end IsWord

theorem start?_spelling (hw : ∀ e ∈ values, IsWord e.1) (hk : IsWord key)
    (h : Table.lookup key values = some value) (rest : List Char) :
    start? values (spelling key ++ rest) = some (value, rest) := by
  induction values with
  | nil => cases h
  | cons e values ih =>
    obtain ⟨he, hvalues⟩ := List.forall_mem_cons.1 hw
    rw [start?, List.findSome?_cons]
    rw [Table.lookup] at h
    by_cases hkey : e.1 = key
    · subst hkey
      rw [if_pos rfl] at h
      cases h
      rw [Text.after?_eq_some_iff.2 rfl]
      rfl
    · rw [if_neg hkey] at h
      have ha : Text.after? (spelling e.1) (spelling key ++ rest) = none := by
        rw [Option.eq_none_iff_forall_not_mem]
        intro r hr
        exact hkey (he.eq_of_spelling hk (Text.after?_eq_some_iff.1 hr).symm)
      rw [ha]
      exact ih hvalues h

/-! ### Reading past text in which no placeholder starts -/

theorem replaceChars_of_start? (h : start? values cs = some (value, rest)) :
    replaceChars values cs = value.toList ++ replaceChars values rest := by
  obtain ⟨key, -, rfl⟩ := exists_of_start? h
  rw [spelling, List.cons_append] at h ⊢
  rw [replaceChars]
  split <;> rename_i h'
  · cases h.symm.trans h'
    rfl
  · cases h.symm.trans h'

theorem replacePaired_of_start? (hn : n % 2 = 0) (h : start? values cs = some (value, rest)) :
    replacePaired values n cs = value.toList ++ replacePaired values 0 rest := by
  obtain ⟨key, -, rfl⟩ := exists_of_start? h
  rw [spelling, List.cons_append] at h ⊢
  rw [replacePaired]
  split <;> rename_i h' <;> rw [if_pos hn] at h'
  · cases h.symm.trans h'
    rfl
  · cases h.symm.trans h'

theorem replaceChars_cons {c : Char} (h : start? values (c :: cs) = none) :
    replaceChars values (c :: cs) = c :: replaceChars values cs := by
  rw [replaceChars]
  split <;> rename_i h'
  · cases h.symm.trans h'
  · rfl

theorem replacePaired_cons {c : Char} (h : n % 2 = 0 → start? values (c :: cs) = none) :
    replacePaired values n (c :: cs) =
      c :: replacePaired values (if c = '{' then n + 1 else 0) cs := by
  rw [replacePaired]
  split <;> rename_i h'
  · split at h' <;> rename_i hn
    · cases (h hn).symm.trans h'
    · cases h'
  · rfl

/-- No listed placeholder starts in `u`, with `v` behind it. -/
def NoneStarts (values : List (String × String)) (u v : List Char) : Prop :=
  ∀ s w, u = s ++ w → w ≠ [] → start? values (w ++ v) = none

theorem NoneStarts.cons {c : Char} (h : NoneStarts values (c :: u) v) :
    start? values (c :: (u ++ v)) = none ∧ NoneStarts values u v :=
  ⟨h [] (c :: u) rfl (List.cons_ne_nil _ _), fun s w hw => h (c :: s) w (congrArg (c :: ·) hw)⟩

theorem replaceChars_append (h : NoneStarts values u v) :
    replaceChars values (u ++ v) = u ++ replaceChars values v := by
  induction u with
  | nil => rfl
  | cons c u ih =>
    rw [List.cons_append, replaceChars_cons h.cons.1, ih h.cons.2, List.cons_append]

theorem replacePaired_append (h : NoneStarts values u v) (pre : List Char) :
    replacePaired values (bracesAtEnd pre) (u ++ v) =
      u ++ replacePaired values (bracesAtEnd (pre ++ u)) v := by
  induction u generalizing pre with
  | nil => rw [List.append_nil, List.nil_append, List.nil_append]
  | cons c u ih =>
    rw [List.cons_append, replacePaired_cons fun _ => h.cons.1, ← bracesAtEnd_concat, ih h.cons.2,
      List.append_assoc, List.singleton_append, List.cons_append]

theorem replacePaired_zero_append (h : NoneStarts values u v) :
    replacePaired values 0 (u ++ v) = u ++ replacePaired values (bracesAtEnd u) v :=
  replacePaired_append h []

theorem IsWord.noneStarts (h : IsWord key) (hs : spelling key = '{' :: u) :
    NoneStarts values u v := by
  rintro s w rfl hw
  exact start?_eq_none_of_not_open (h.not_open hs (List.cons_ne_nil _ _) hw v)

theorem replacePaired_add_two (values : List (String × String)) (n : Nat) (cs : List Char) :
    replacePaired values (n + 2) cs = replacePaired values n cs := by
  induction cs generalizing n with
  | nil => rw [replacePaired, replacePaired]
  | cons c cs ih =>
    by_cases hn : n % 2 = 0 ∧ start? values (c :: cs) ≠ none
    · obtain ⟨hn, hs⟩ := hn
      obtain ⟨⟨value, rest⟩, hs⟩ := Option.ne_none_iff_exists'.1 hs
      rw [replacePaired_of_start? (by omega) hs, replacePaired_of_start? hn hs]
    · have hs : n % 2 = 0 → start? values (c :: cs) = none := fun h => by
        by_contra hs
        exact hn ⟨h, hs⟩
      rw [replacePaired_cons (by rwa [Nat.add_mod_right]), replacePaired_cons hs]
      split
      · rw [Nat.add_right_comm, ih]
      · rfl

/-! ### What `fill` replaces -/

/-- Nothing starts before the first two opening braces, and no opening brace stands right before
them. -/
theorem noneStarts_of_cutAt? (values : List (String × String)) {body before inner : List Char}
    (h : Text.cutAt? ['{', '{'] body = some (before, inner)) :
    body = before ++ '{' :: '{' :: inner ∧ NoneStarts values before ('{' :: '{' :: inner) ∧
      bracesAtEnd before = 0 := by
  have hbody : body = before ++ '{' :: '{' :: inner := by
    rw [Text.eq_append_of_cutAt? h]
    simp
  refine ⟨hbody, ?_, ?_⟩
  · rintro s w rfl hw
    refine start?_eq_none_of_not_open ?_
    rintro ⟨x, hx⟩
    have hl := Text.length_le_of_cutAt? h (u := s) (v := x) (by rw [hbody, hx, List.append_assoc])
    have := List.length_pos_iff.2 hw
    rw [List.length_append] at hl
    omega
  · rcases List.eq_nil_or_concat' before with rfl | ⟨before, c, rfl⟩
    · rfl
    · rw [bracesAtEnd_concat, if_neg]
      rintro rfl
      have hl := Text.length_le_of_cutAt? h (u := before) (v := '{' :: inner) (by simp [hbody])
      rw [List.length_append, List.length_singleton] at hl
      omega

theorem noneStarts_of_not_closed (values : List (String × String)) {body before inner : List Char}
    (ho : Text.cutAt? ['{', '{'] body = some (before, inner))
    (hc : Text.cutAt? ['}', '}'] inner = none) : NoneStarts values body [] := by
  rintro s w rfl -
  rw [List.append_nil, start?_eq_none_iff]
  rintro e - ⟨x, rfl⟩
  refine Text.cutAt?_eq_none_iff.1 hc ?_
  have hs : s ++ (spelling e.1 ++ x) = s ++ (['{', '{'] ++ (e.1.toList ++ ['}', '}'] ++ x)) := rfl
  obtain ⟨s, rfl⟩ : before <+: s := by
    have hl := Text.length_le_of_cutAt? ho hs
    have hb := (noneStarts_of_cutAt? values ho).1
    exact List.prefix_of_prefix_length_le ⟨_, hb.symm⟩ (List.prefix_append s _) hl
  have hb := (noneStarts_of_cutAt? values ho).1
  rw [List.append_assoc, List.append_cancel_left_eq] at hb
  match s, hb with
  | [], hb =>
    obtain ⟨-, hb⟩ := List.cons.inj hb
    obtain ⟨-, hb⟩ := List.cons.inj hb
    exact ⟨e.1.toList, x, hb⟩
  | [c], hb =>
    obtain ⟨-, hb⟩ := List.cons.inj hb
    obtain ⟨-, hb⟩ := List.cons.inj hb
    exact ⟨'{' :: e.1.toList, x, by simpa using hb⟩
  | c :: d :: s, hb =>
    obtain ⟨-, hb⟩ := List.cons.inj hb
    obtain ⟨-, hb⟩ := List.cons.inj hb
    exact ⟨s ++ '{' :: '{' :: e.1.toList, x, by simpa [spelling] using hb⟩

/-- The text up to the first two closing braces is the only key whose placeholder can start there. -/
theorem eq_of_cutAt? {inner key' : List Char} (hk : IsWord key)
    (hc : Text.cutAt? ['}', '}'] inner = some (key', rest))
    (hs : '{' :: '{' :: inner = spelling key ++ v) : key' = key.toList := by
  have hi : inner = key.toList ++ (['}', '}'] ++ v) := by simpa [spelling] using hs
  have hl := Text.length_le_of_cutAt? hc hi
  have hr := Text.eq_append_of_cutAt? hc
  rw [List.append_assoc] at hr
  obtain ⟨w, hw⟩ : key' <+: key.toList :=
    List.prefix_of_prefix_length_le ⟨_, hr.symm⟩ ⟨_, hi.symm⟩ hl
  rw [hi, ← hw, List.append_assoc, List.append_cancel_left_eq] at hr
  cases w with
  | nil => simpa using hw
  | cons c w =>
    -- the key would hold a closing brace
    obtain ⟨rfl, -⟩ := List.cons.inj hr
    refine absurd ?_ hk.not_brace.2
    rw [← hw]
    simp

/-- `fill` replaces the placeholders with an even number of opening braces before them. -/
theorem fillChars_eq (hw : ∀ e ∈ values, IsWord e.1) (body : List Char) :
    fillChars values body = replacePaired values 0 body := by
  fun_induction fillChars values body with
  | case1 body ho =>
    have hnone : NoneStarts values body [] := by
      rintro s w rfl -
      refine start?_eq_none_of_not_open fun h => Text.cutAt?_eq_none_iff.1 ho ?_
      rw [List.append_nil] at h
      exact h.isInfix.trans (List.suffix_append s w).isInfix
    have := replacePaired_zero_append hnone
    simpa [replacePaired] using this.symm
  | case2 body before inner ho hc =>
    have := replacePaired_zero_append (noneStarts_of_not_closed values ho hc)
    simpa [replacePaired] using this.symm
  | case3 body before inner ho key rest hc value hv ih =>
    obtain ⟨rfl, hnone, hbraces⟩ := noneStarts_of_cutAt? values ho
    have hk : IsWord (.ofList key) := by
      by_contra hk
      refine absurd hv ?_
      rw [Table.lookup_eq_none_iff.2]
      · simp
      · intro e he hkey
        exact hk (hkey ▸ hw e he)
    have hs : '{' :: '{' :: inner = spelling (.ofList key) ++ rest := by
      simp [spelling, Text.eq_append_of_cutAt? hc]
    rw [replacePaired_zero_append hnone, hbraces, ih]
    rw [hs, replacePaired_of_start? rfl (start?_spelling hw hk hv rest)]
    simp
  | case4 body before inner ho key rest hc hv ih =>
    obtain ⟨rfl, hnone, hbraces⟩ := noneStarts_of_cutAt? values ho
    have hs : start? values ('{' :: '{' :: inner) = none := by
      rw [start?_eq_none_iff]
      rintro e he ⟨v, hv'⟩
      have hkey := eq_of_cutAt? (hw e he) hc hv'.symm
      refine Table.lookup_eq_none_iff.1 hv e he ?_
      rw [hkey, String.ofList_toList]
    rw [replacePaired_zero_append hnone, hbraces, ih]
    rw [replacePaired_cons fun _ => hs, if_pos rfl, replacePaired_cons (by simp), if_pos rfl,
      replacePaired_add_two]

/-! ### When all placeholders are replaced -/

/-- All placeholders in `cs`, which stands behind `pre`, have an even number of opening braces right
before them. -/
def Paired (values : List (String × String)) (pre cs : List Char) : Prop :=
  ∀ e ∈ values, ∀ u v, cs = u ++ (spelling e.1 ++ v) → bracesAtEnd (pre ++ u) % 2 = 0

variable {pre : List Char}

namespace Paired

theorem cons {c : Char} (hs : start? values (c :: cs) = none) (h : Paired values (pre ++ [c]) cs) :
    Paired values pre (c :: cs) := by
  intro e he u v hu
  cases u with
  | nil => exact absurd ⟨v, hu.symm⟩ (start?_eq_none_iff.1 hs e he)
  | cons d u =>
    obtain ⟨rfl, htail⟩ := List.cons.inj hu
    have := h e he u v htail
    rwa [List.append_assoc, List.singleton_append] at this

theorem tail {c : Char} (h : Paired values pre (c :: cs)) : Paired values (pre ++ [c]) cs := by
  intro e he u v hu
  have := h e he (c :: u) v (congrArg (c :: ·) hu)
  rwa [List.append_assoc, List.singleton_append]

theorem spelling_append (hk : IsWord key) (hn : bracesAtEnd pre % 2 = 0)
    (h : Paired values (pre ++ spelling key) rest) : Paired values pre (spelling key ++ rest) := by
  intro e he u v hu
  by_cases hne : u = []
  · rw [hne, List.append_nil]
    exact hn
  · obtain ⟨w, rfl, hw⟩ := hk.spelling_isPrefix hu hne
    have := h e he w v hw
    rwa [List.append_assoc] at this

theorem of_spelling_append (h : Paired values pre (spelling key ++ rest)) :
    Paired values (pre ++ spelling key) rest := by
  intro e he u v hu
  have := h e he (spelling key ++ u) v (by rw [hu, List.append_assoc])
  rwa [List.append_assoc]

end Paired

theorem replacePaired_eq (h : Paired values pre cs) :
    replacePaired values (bracesAtEnd pre) cs = replaceChars values cs := by
  fun_induction replaceChars values cs generalizing pre with
  | case1 => rw [replacePaired]
  | case2 c cs value rest hs ih =>
    obtain ⟨key, hm, hk⟩ := exists_of_start? hs
    rw [hk] at h
    have hn : bracesAtEnd pre % 2 = 0 := by
      have := h (key, value) hm [] rest rfl
      rwa [List.append_nil] at this
    rw [replacePaired_of_start? hn hs, ← ih h.of_spelling_append, bracesAtEnd_spelling]
  | case3 c cs hs ih =>
    rw [replacePaired_cons fun _ => hs, ← bracesAtEnd_concat, ih h.tail]

/-- Where the values are empty, replacing all placeholders leaves the shorter text, and one as long only
where nothing else is replaced otherwise. -/
theorem length_replaceChars_le (hw : ∀ e ∈ values, IsWord e.1) (he : ∀ e ∈ values, e.2 = "")
    (pre cs : List Char) :
    (replaceChars values cs).length ≤ (replacePaired values (bracesAtEnd pre) cs).length ∧
      ((replaceChars values cs).length = (replacePaired values (bracesAtEnd pre) cs).length →
        Paired values pre cs) := by
  generalize hlen : cs.length = len
  induction len using Nat.strongRecOn generalizing pre cs with
  | ind len ih =>
    cases cs with
    | nil =>
      refine ⟨by rw [replaceChars, replacePaired], fun _ e _ u v hu => ?_⟩
      simp [spelling] at hu
    | cons c cs =>
      subst hlen
      cases hs : start? values (c :: cs) with
      | none =>
        obtain ⟨hle, heq⟩ := ih cs.length (Nat.lt_succ_self _) (pre ++ [c]) cs rfl
        rw [bracesAtEnd_concat] at hle heq
        rw [replaceChars_cons hs, replacePaired_cons fun _ => hs]
        simp only [List.length_cons, Nat.add_le_add_iff_right, Nat.add_right_cancel_iff]
        exact ⟨hle, fun h => .cons hs (heq h)⟩
      | some p =>
        obtain ⟨value, rest⟩ := p
        obtain ⟨key, hm, hk⟩ := exists_of_start? hs
        obtain rfl : value = "" := he _ hm
        by_cases hn : bracesAtEnd pre % 2 = 0
        · have hlt : rest.length < (c :: cs).length := by
            rw [hk]
            simp [spelling]; omega
          obtain ⟨hle, heq⟩ := ih rest.length hlt (pre ++ spelling key) rest rfl
          rw [bracesAtEnd_spelling] at hle heq
          rw [replaceChars_of_start? hs, replacePaired_of_start? hn hs]
          refine ⟨by simpa using hle, fun h => ?_⟩
          rw [hk]
          exact .spelling_append (hw _ hm) hn (heq (by simpa using h))
        · -- what is left as it is here is longer
          obtain ⟨u, hu⟩ : ∃ u, spelling key = '{' :: u := ⟨_, rfl⟩
          obtain ⟨rfl, rfl⟩ : c = '{' ∧ cs = u ++ rest := by
            rw [hu] at hk
            exact List.cons.inj hk
          have hnone : NoneStarts values u rest := (hw _ hm).noneStarts hu
          have hall := replaceChars_append hnone
          obtain ⟨hle, -⟩ := ih (u ++ rest).length (Nat.lt_succ_self _) (pre ++ ['{']) (u ++ rest) rfl
          rw [bracesAtEnd_concat, hall] at hle
          rw [replaceChars_of_start? hs, replacePaired_cons fun h => absurd h hn]
          simp only [String.toList_empty, List.nil_append, List.length_cons, List.length_append] at hle ⊢
          exact ⟨by omega, fun h => by omega⟩

/-- `fill` replaces the placeholders of the listed keys that have an even number of opening braces right
before them, and no others. So it replaces all of them, whatever the values are, just if there is no
odd number of opening braces right before any. -/
theorem fill_eq_replace_iff {keys : List String} (hk : ∀ key ∈ keys, IsWord key) (body : String) :
    (∀ values, values.map (·.1) = keys →
      fill values body = .ofList (replacePaired values 0 body.toList)) ∧
    ((∀ values, values.map (·.1) = keys → fill values body = replace values body) ↔
      ∀ key ∈ keys, ∀ u v, body.toList = u ++ (spelling key ++ v) → bracesAtEnd u % 2 = 0) := by
  have hfill : ∀ values, values.map (·.1) = keys →
      fill values body = .ofList (replacePaired values 0 body.toList) := by
    intro values hv
    have hw : ∀ e ∈ values, IsWord e.1 := fun e he => hk _ (hv ▸ List.mem_map.2 ⟨e, he, rfl⟩)
    rw [fill, fillChars_eq hw]
  refine ⟨hfill, fun h key hm u v hu => ?_, fun h values hv => ?_⟩
  · -- with empty values, one placeholder that is left makes the text longer
    have hv : (keys.map fun key => (key, "")).map (·.1) = keys := by simp [Function.comp_def]
    have hw : ∀ e ∈ keys.map fun key => (key, ""), IsWord e.1 := by simpa using hk
    have heq := (hfill _ hv).symm.trans (h _ hv)
    rw [replace, String.ofList_inj] at heq
    obtain ⟨-, hp⟩ := length_replaceChars_le hw (by simp) [] body.toList
    exact hp (congrArg List.length heq.symm) (key, "") (List.mem_map.2 ⟨key, hm, rfl⟩) u v hu
  · have hp : Paired values [] body.toList := fun e he u v hu =>
      h _ (hv ▸ List.mem_map.2 ⟨e, he, rfl⟩) u v hu
    rw [hfill values hv, replace]
    exact congrArg String.ofList (replacePaired_eq hp)

/-- One placeholder behind two opening braces, and one behind a single one. -/
theorem fill_braces :
    let body := "{{{{name}}}} {{{name}}}"
    IsWord "name" ∧ fill [("name", "Ada")] body = "{{Ada}} {{{name}}}" ∧
      ¬ ∀ values, values.map (·.1) = ["name"] → fill values body = replace values body := by
  intro body
  have hchars : "name".toList.all Params.isKeyChar := by decide +kernel
  have hw : IsWord "name" := ⟨by decide, List.all_eq_true.1 hchars⟩
  have hkeys : ∀ key ∈ ["name"], IsWord key := fun key hk => List.mem_singleton.1 hk ▸ hw
  obtain ⟨hfill, hall⟩ := fill_eq_replace_iff hkeys body
  refine ⟨hw, (hfill [("name", "Ada")] rfl).trans (by decide +kernel), fun h => ?_⟩
  have := hall.1 h "name" List.mem_cons_self ("{{{{name}}}} ".toList ++ ['{']) ['}'] (by decide +kernel)
  revert this
  decide +kernel

/-- A third opening brace before a placeholder: `fill` leaves it, and `replace` does not. -/
theorem fill_ne_replace_three : IsWord "name" ∧
    fill [("name", "Ada")] "{{{name}}}" = "{{{name}}}" ∧
    replace [("name", "Ada")] "{{{name}}}" = "{Ada}" := by
  have hchars : "name".toList.all Params.isKeyChar := by decide +kernel
  exact ⟨⟨by decide, List.all_eq_true.1 hchars⟩, by decide +kernel, by decide +kernel⟩

end PortalScript.Placeholder
