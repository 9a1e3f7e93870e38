import PortalScript.Proofs.Placeholder.Replace
import PortalScript.Proofs.Table.Entries

/-! # Bodies are divided by their keys alone

`divide` cuts a body into characters that stay and placeholders that get a text. It asks which keys are
listed and never what is listed for them, and `fill` is that division with the texts in the place of the
placeholders (`fillChars_eq_flatMap`). So no text can make a placeholder or break one: for all texts
together there is one division only (`division_unique`). -/

namespace PortalScript.Placeholder

/-- A part of a body: a character that stays, or a placeholder that gets a text. -/
inductive Part
  | literal (c : Char)
  | placeholder (key : String)
deriving Repr, DecidableEq

namespace Part

/-- The part as it stands in the body. -/
def spelled : Part → List Char
  | literal c => [c]
  | placeholder key => spelling key

/-- The part with the first text listed for its key; a placeholder without a text stays. -/
def filled (values : List (String × String)) : Part → List Char
  | literal c => [c]
  | placeholder key => ((Table.lookup key values).map String.toList).getD (spelling key)

end Part

/-- The parts of a body: the placeholders of listed keys, and all other characters. -/
def divide (listed : String → Bool) (body : List Char) : List Part :=
  match _ho : Text.cutAt? ['{', '{'] body with
  | none => body.map .literal
  | some (before, inner) =>
    match _hc : Text.cutAt? ['}', '}'] inner with
    | none => body.map .literal
    | some (key, rest) =>
      if listed (.ofList key) then
        before.map .literal ++ .placeholder (.ofList key) :: divide listed rest
      else before.map .literal ++ .literal '{' :: .literal '{' :: divide listed inner
termination_by body.length
decreasing_by
  · rw [Text.eq_append_of_cutAt? _ho, Text.eq_append_of_cutAt? _hc]
    simp; omega
  · rw [Text.eq_append_of_cutAt? _ho]
    simp; omega

variable {values values' : List (String × String)} {keys : List String} {listed : String → Bool}
  {parts : List Part} {before inner rest key : List Char}

/-! ### The division and what it is made from -/

theorem flatMap_literal {f : Part → List Char} (hf : ∀ c, f (.literal c) = [c]) (cs : List Char) :
    (cs.map Part.literal).flatMap f = cs := by
  simp [List.flatMap_map, hf]

theorem flatMap_spelled_literal (cs : List Char) : (cs.map Part.literal).flatMap Part.spelled = cs :=
  flatMap_literal (fun _ => rfl) cs

theorem flatMap_filled_literal (values : List (String × String)) (cs : List Char) :
    (cs.map Part.literal).flatMap (Part.filled values) = cs :=
  flatMap_literal (fun _ => rfl) cs

theorem flatMap_spelled_divide (listed : String → Bool) (body : List Char) :
    (divide listed body).flatMap Part.spelled = body := by
  fun_induction divide listed body with
  | case1 body ho => exact flatMap_spelled_literal body
  | case2 body before inner ho hc => exact flatMap_spelled_literal body
  | case3 body before inner ho key rest hc hl ih =>
    rw [List.flatMap_append, List.flatMap_cons, flatMap_spelled_literal, ih,
      Text.eq_append_of_cutAt? ho, Text.eq_append_of_cutAt? hc]
    simp [Part.spelled, spelling]
  | case4 body before inner ho key rest hc hl ih =>
    rw [List.flatMap_append, List.flatMap_cons, List.flatMap_cons, flatMap_spelled_literal, ih,
      Text.eq_append_of_cutAt? ho]
    simp [Part.spelled]

theorem not_mem_map_literal (cs : List Char) (key : String) :
    .placeholder key ∉ cs.map Part.literal := by simp

theorem listed_of_mem_divide {body : List Char} {key : String}
    (h : .placeholder key ∈ divide listed body) : listed key := by
  fun_induction divide listed body with
  | case1 body ho => exact absurd h (not_mem_map_literal body key)
  | case2 body before inner ho hc => exact absurd h (not_mem_map_literal body key)
  | case3 body before inner ho key' rest hc hl ih =>
    rcases List.mem_append.1 h with h | h
    · exact absurd h (not_mem_map_literal before key)
    · rcases List.mem_cons.1 h with h | h
      · rw [Part.placeholder.inj h]
        exact hl
      · exact ih h
  | case4 body before inner ho key' rest hc hl ih =>
    rcases List.mem_append.1 h with h | h
    · exact absurd h (not_mem_map_literal before key)
    · exact ih (by simpa using h)

/-- Filling a body is dividing it and putting the texts in: the division knows the listed keys and no
text. -/
theorem fillChars_eq_flatMap (values : List (String × String)) (body : List Char) :
    fillChars values body =
      (divide (fun key => (Table.lookup key values).isSome) body).flatMap (Part.filled values) := by
  fun_induction divide (fun key => (Table.lookup key values).isSome) body with
  | case1 body ho =>
    rw [flatMap_filled_literal, fillChars]
    split <;> rename_i h
    · rfl
    · cases ho.symm.trans h
  | case2 body before inner ho hc =>
    rw [flatMap_filled_literal, fillChars]
    split <;> rename_i h <;> cases ho.symm.trans h
    split <;> rename_i h
    · rfl
    · cases hc.symm.trans h
  | case3 body before inner ho key rest hc hl ih =>
    obtain ⟨value, hv⟩ := Option.isSome_iff_exists.1 hl
    rw [List.flatMap_append, List.flatMap_cons, flatMap_filled_literal, ← ih, fillChars]
    split <;> rename_i h <;> cases ho.symm.trans h
    split <;> rename_i h <;> cases hc.symm.trans h
    simp [Part.filled, hv]
  | case4 body before inner ho key rest hc hl ih =>
    have hv : Table.lookup (.ofList key) values = none := by simpa using hl
    rw [List.flatMap_append, List.flatMap_cons, List.flatMap_cons, flatMap_filled_literal, ← ih,
      fillChars]
    split <;> rename_i h <;> cases ho.symm.trans h
    split <;> rename_i h <;> cases hc.symm.trans h
    simp [Part.filled, hv]

/-! ### No other division gives all fillings -/

/-- The part with one character for each key. -/
def Part.char (text : String → Char) : Part → Char
  | literal c => c
  | placeholder key => text key

/-- Two characters for a key tell its placeholder from any other part. -/
theorem Part.eq_of_char {p q : Part} (h : ∀ text, p.char text = q.char text) : p = q := by
  have hopen := h fun _ => '{'
  have hclose := h fun _ => '}'
  have hne : '{' ≠ '}' := by decide
  match p, q with
  | literal c, literal d => exact congrArg literal hopen
  | literal c, placeholder key => exact absurd (hopen.symm.trans hclose) hne
  | placeholder key, literal d => exact absurd (hopen.trans hclose.symm) hne
  | placeholder key, placeholder key' =>
    by_contra hne
    have hkey : key' ≠ key := fun he => hne (congrArg placeholder he.symm)
    have hchar := h fun k => if k = key then '{' else '}'
    simp [char, hkey] at hchar

theorem eq_of_map_char {ps qs : List Part}
    (h : ∀ text, ps.map (Part.char text) = qs.map (Part.char text)) : ps = qs := by
  induction ps generalizing qs with
  | nil => exact (List.map_eq_nil_iff.1 (h fun _ => '{').symm).symm
  | cons p ps ih =>
    cases qs with
    | nil => exact absurd (h fun _ => '{') (by simp)
    | cons q qs =>
      have hp : p = q := Part.eq_of_char fun text => (List.cons.inj (h text)).1
      rw [hp, ih fun text => (List.cons.inj (h text)).2]

theorem flatMap_filled_singleton (h : ∀ key, .placeholder key ∈ parts → key ∈ keys)
    (text : String → Char) :
    parts.flatMap (Part.filled (keys.map fun key => (key, .singleton (text key)))) =
      parts.map (Part.char text) := by
  induction parts with
  | nil => rfl
  | cons p parts ih =>
    have hp : p.filled (keys.map fun key => (key, .singleton (text key))) = [p.char text] := by
      cases p with
      | literal c => rfl
      | placeholder key =>
        rw [Part.filled, Table.lookup_map_of_mem (h key List.mem_cons_self)]
        simp [Part.char]
    rw [List.flatMap_cons, hp, ih fun key hk => h key (List.mem_cons_of_mem p hk)]
    rfl

theorem division_unique {ps qs : List Part} (hp : ∀ key, .placeholder key ∈ ps → key ∈ keys)
    (hq : ∀ key, .placeholder key ∈ qs → key ∈ keys)
    (h : ∀ values, values.map (·.1) = keys →
      ps.flatMap (Part.filled values) = qs.flatMap (Part.filled values)) : ps = qs := by
  refine eq_of_map_char fun text => ?_
  rw [← flatMap_filled_singleton hp, ← flatMap_filled_singleton hq]
  exact h _ (by simp [Function.comp_def])

theorem isSome_lookup (h : values.map (·.1) = keys) :
    (fun key => (Table.lookup key values).isSome) = fun key => decide (key ∈ keys) := by
  funext key
  rw [Bool.eq_iff_iff, Table.isSome_lookup_iff, h, decide_eq_true_iff]

theorem fill_congr (h : ∀ key, Table.lookup key values = Table.lookup key values') (body : String) :
    fill values body = fill values' body := by
  have hfilled : Part.filled values = Part.filled values' := by
    funext p
    cases p with
    | literal c => rfl
    | placeholder key => rw [Part.filled, Part.filled, h]
  simp only [fill, fillChars_eq_flatMap, h, hfilled]

/-- For each body and list of keys there is one division of the body into characters that stay and
placeholders of listed keys which, for all values of the keys, gives what `fill` gives: the texts in the
place of the placeholders, and all else as it is. The order of entries with distinct keys does not
matter. -/
theorem fill_eq_division (keys : List String) (body : String) :
    (∃! parts : List Part,
      parts.flatMap Part.spelled = body.toList ∧
      (∀ key, .placeholder key ∈ parts → key ∈ keys) ∧
      ∀ values, values.map (·.1) = keys →
        fill values body = .ofList (parts.flatMap (Part.filled values))) ∧
    ∀ values values', values.map (·.1) = keys → keys.Nodup → values.Perm values' →
      fill values' body = fill values body := by
  refine ⟨⟨divide (fun key => key ∈ keys) body.toList, ⟨?_, ?_, ?_⟩, ?_⟩, ?_⟩
  · exact flatMap_spelled_divide _ body.toList
  · intro key hk
    exact of_decide_eq_true (listed_of_mem_divide hk)
  · intro values hv
    rw [fill, fillChars_eq_flatMap, isSome_lookup hv]
  · rintro parts ⟨-, hkeys, hfill⟩
    refine division_unique hkeys (fun key hk => of_decide_eq_true (listed_of_mem_divide hk)) ?_
    intro values hv
    rw [← isSome_lookup hv, ← fillChars_eq_flatMap, ← String.ofList_inj, ← hfill values hv]
    rfl
  · rintro values values' rfl hn hp
    exact fill_congr (fun key => (Table.lookup_perm hp hn key).symm) body

/-- Texts that bring halves of a placeholder together make none. -/
example :
    let body := "\x7b\x7ba\x7d\x7db\x7d\x7d \x7b\x7b\x7b\x7ba\x7d\x7db\x7d\x7d"
    fill [("a", "\x7b\x7b"), ("b", "text")] body = "\x7b\x7bb\x7d\x7d \x7b\x7b\x7b\x7bb\x7d\x7d" := by
  decide +kernel

end PortalScript.Placeholder
