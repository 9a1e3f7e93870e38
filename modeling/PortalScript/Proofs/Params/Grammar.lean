import PortalScript.Params

/-! # The grammar of parameter lists

`ReadsValue`, `ReadsEntry` and `ReadsList` say which fragments the readers of values, entries and
lists accept, what they read and what they leave (`scanQuoted_ok_iff`, `scanBare_ok_iff`,
`scanEntry_ok_iff`, `scanEntries_ok_iff`, `scan_ok_iff`). A list is read as all its entries in order,
names that are repeated included; the table of parameters is made from them afterwards. -/

namespace PortalScript

namespace Fragment
variable {f f' : Fragment} {c : Char}

theorem eat?_eq_some_iff :
    f.eat? c = some f' ↔ ∃ gap, f.glyphs = ⟨c, false, gap⟩ :: f'.glyphs ∧ f.gapAtEnd = f'.gapAtEnd := by
  obtain ⟨gs, b⟩ := f
  obtain ⟨gs', b'⟩ := f'
  match gs with
  | [] => simp [eat?]
  | ⟨d, true, gap⟩ :: gs => simp [eat?, Glyph.isWritten]
  | ⟨d, false, gap⟩ :: gs =>
    by_cases h : d = c
    · simp [eat?, Glyph.isWritten, h]
    · simp [eat?, Glyph.isWritten, h]

theorem eat?_eq_none_of_ne {d : Char} (h : f.eat? c = some f') (hd : c ≠ d) : f.eat? d = none := by
  obtain ⟨gap, hg, -⟩ := eat?_eq_some_iff.1 h
  simp [eat?, hg, Glyph.isWritten, hd]

theorem startsAt_eq_isSome (f : Fragment) (c : Char) : f.startsAt c = (f.eat? c).isSome := by
  obtain ⟨gs, b⟩ := f
  cases gs with
  | nil => simp [startsAt, eat?]
  | cons g gs => by_cases h : g.isWritten c <;> simp [startsAt, eat?, h]

theorem startsAt_iff : f.startsAt c ↔ ∃ f', f.eat? c = some f' := by
  rw [startsAt_eq_isSome, Option.isSome_iff_exists]

end Fragment

namespace Params
variable {f rest inner behind : Fragment} {key : String} {value : Fragment}
  {entry : String × Fragment} {entries : List (String × Fragment)}
  {params params' : Params}

/-- A value at the start of `f`, as it is kept, and what is left behind it. -/
inductive ReadsValue (f : Fragment) : Fragment → Fragment → Prop
  | quoted {inner behind : Fragment} (ho : f.eat? '\'' = some inner)
      (hc : (inner.dropUntil '\'').eat? '\'' = some behind)
      (he : behind.skipBlank.startsAt ',' || behind.skipBlank.startsAt ']' || behind.skipBlank.isEmpty) :
      ReadsValue f (inner.takeUntil '\'').quote behind.skipBlank
  | bare (ho : f.eat? '\'' = none)
      (hv : ¬((f.takeWhile isBareGlyph).trim.isEmpty && !(f.takeWhile isBareGlyph).hasResolved)) :
      ReadsValue f (f.takeWhile isBareGlyph).trim (f.dropWhile isBareGlyph)

/-- `key: value` at the start of `f` and what is left behind it. -/
inductive ReadsEntry (f : Fragment) : String × Fragment → Fragment → Prop
  | mk {behind value rest : Fragment} (hk : ¬(f.takeWhile isKeyGlyph).isEmpty)
      (hc : (f.dropWhile isKeyGlyph).skipBlank.eat? ':' = some behind)
      (hv : ReadsValue behind.skipBlank value rest) :
      ReadsEntry f ((f.takeWhile isKeyGlyph).text, value) rest

/-- Entries up to a closing bracket and what is left behind it. -/
inductive ReadsList : Fragment → List (String × Fragment) → Fragment → Prop
  | close {f rest : Fragment} (hb : f.skipBlank.eat? ']' = some rest) : ReadsList f [] rest
  | last {f behind rest : Fragment} {entry : String × Fragment}
      (he : ReadsEntry f.skipBlank entry behind) (hb : behind.skipBlank.eat? ']' = some rest) :
      ReadsList f [entry] rest
  | more {f behind next rest : Fragment} {entry : String × Fragment}
      {entries : List (String × Fragment)} (he : ReadsEntry f.skipBlank entry behind)
      (hc : behind.skipBlank.eat? ',' = some next) (hl : ReadsList next entries rest) :
      ReadsList f (entry :: entries) rest

theorem ReadsList.forall_entry {P : String × Fragment → Prop}
    (hP : ∀ {f entry rest}, ReadsEntry f entry rest → P entry) (h : ReadsList f entries rest) :
    ∀ e ∈ entries, P e := by
  induction h with
  | close hb => simp
  | last he hb =>
    intro e hm
    cases List.mem_singleton.1 hm
    exact hP he
  | more he hc hl ih => exact List.forall_mem_cons.2 ⟨hP he, ih⟩

theorem map_eq_ok_iff {ε α β : Type} {g : α → β} {x : Except ε α} {b : β} :
    x.map g = .ok b ↔ ∃ a, x = .ok a ∧ g a = b := by
  cases x <;> simp [Except.map]

theorem bind_eq_ok_iff {ε α β : Type} {g : α → Except ε β} {x : Except ε α} {b : β} :
    x.bind g = .ok b ↔ ∃ a, x = .ok a ∧ g a = .ok b := by
  cases x <;> simp [Except.bind]

theorem scanQuoted_ok_iff : scanQuoted f = (.ok value, rest) ↔
    ∃ behind, (f.dropUntil '\'').eat? '\'' = some behind ∧
      (behind.skipBlank.startsAt ',' || behind.skipBlank.startsAt ']' || behind.skipBlank.isEmpty) ∧
      value = (f.takeUntil '\'').quote ∧ rest = behind.skipBlank := by
  unfold scanQuoted
  cases hc : (f.dropUntil '\'').eat? '\'' with
  | none => simp
  | some behind =>
    dsimp only
    split <;> rename_i he
    · constructor
      · rintro ⟨⟩
        exact ⟨behind, rfl, he, rfl, rfl⟩
      · rintro ⟨_, ⟨⟩, -, rfl, rfl⟩
        rfl
    · constructor
      · rintro ⟨⟩
      · rintro ⟨_, ⟨⟩, h, -, -⟩
        exact absurd h he

theorem scanBare_ok_iff : scanBare key f = (.ok value, rest) ↔
    ¬((f.takeWhile isBareGlyph).trim.isEmpty && !(f.takeWhile isBareGlyph).hasResolved) ∧
      value = (f.takeWhile isBareGlyph).trim ∧ rest = f.dropWhile isBareGlyph := by
  unfold scanBare
  dsimp only
  split <;> rename_i hv
  · constructor
    · rintro ⟨⟩
    · rintro ⟨h, -, -⟩
      exact absurd hv h
  · constructor
    · rintro ⟨⟩
      exact ⟨hv, rfl, rfl⟩
    · rintro ⟨-, rfl, rfl⟩
      rfl

theorem scanEntry_ok_iff : scanEntry f = (.ok entry, rest) ↔ ReadsEntry f entry rest := by
  unfold scanEntry
  dsimp only
  constructor
  · intro h
    split at h
    · cases h
    rename_i hk
    split at h
    · cases h
    rename_i behind hc
    cases ho : behind.skipBlank.eat? '\'' with
    | some inner =>
      rw [ho] at h
      dsimp only at h
      obtain ⟨hm, rfl⟩ := Prod.mk.inj h
      obtain ⟨value, hq, rfl⟩ := map_eq_ok_iff.1 hm
      have hs : scanQuoted inner = (.ok value, (scanQuoted inner).snd) := Prod.ext hq rfl
      obtain ⟨behind', hc', he, rfl, hr⟩ := scanQuoted_ok_iff.1 hs
      rw [hr]
      exact .mk hk hc (.quoted ho hc' he)
    | none =>
      rw [ho] at h
      dsimp only at h
      obtain ⟨hm, rfl⟩ := Prod.mk.inj h
      obtain ⟨value, hq, rfl⟩ := map_eq_ok_iff.1 hm
      have hs : scanBare (f.takeWhile isKeyGlyph).text behind.skipBlank =
          (.ok value, (scanBare (f.takeWhile isKeyGlyph).text behind.skipBlank).snd) := Prod.ext hq rfl
      obtain ⟨hv, rfl, hr⟩ := scanBare_ok_iff.1 hs
      rw [hr]
      exact .mk hk hc (.bare ho hv)
  · rintro ⟨hk, hc, hv⟩
    rw [if_neg hk, hc]
    cases hv with
    | quoted ho hc he => simp [ho, scanQuoted_ok_iff.2 ⟨_, hc, he, rfl, rfl⟩, Except.map]
    | bare ho hv => simp [ho, scanBare_ok_iff.2 ⟨hv, rfl, rfl⟩, Except.map]

theorem ReadsEntry.eat?_eq_none (h : ReadsEntry f entry rest) {c : Char} (hc : isKeyChar c = false) :
    f.eat? c = none := by
  cases h with
  | mk hk _ _ =>
    cases he : f.eat? c with
    | none => rfl
    | some f' =>
      obtain ⟨gap, hg, -⟩ := Fragment.eat?_eq_some_iff.1 he
      simp [Fragment.takeWhile, Fragment.isEmpty, hg, isKeyGlyph, hc] at hk

theorem ReadsEntry.not_isEmpty (h : ReadsEntry f entry rest) : ¬ f.isEmpty := by
  cases h with
  | mk hk _ _ =>
    intro he
    have hg : f.glyphs = [] := List.isEmpty_iff.1 he
    simp [Fragment.takeWhile, Fragment.isEmpty, hg] at hk

theorem scanEntries_ok_iff : scanEntries params f = (.ok params', rest) ↔
    ∃ entries, ReadsList f entries rest ∧
      params' = entries.foldl (fun t (k, v) => t.insert k v) params := by
  constructor
  · intro h
    fun_induction scanEntries params f with
    | case1 params f behind hb =>
      cases h
      exact ⟨[], .close hb, rfl⟩
    | case2 | case3 | case6 => cases h
    | case4 params f hb hne key value behind he next hc ih =>
      obtain ⟨entries, hl, rfl⟩ := ih h
      exact ⟨(key, value) :: entries, .more (scanEntry_ok_iff.1 he) hc hl, rfl⟩
    | case5 params f hb hne key value behind he hc next hb' =>
      cases h
      exact ⟨[(key, value)], .last (scanEntry_ok_iff.1 he) hb', rfl⟩
  · rintro ⟨entries, hl, rfl⟩
    induction hl generalizing params with
    | close hb =>
      rw [scanEntries, hb]
      rfl
    | last he hb =>
      rw [scanEntries, he.eat?_eq_none (by decide), if_neg he.not_isEmpty, scanEntry_ok_iff.2 he]
      dsimp only
      rw [Fragment.eat?_eq_none_of_ne hb (by decide), hb]
      rfl
    | more he hc hl ih =>
      rw [scanEntries, he.eat?_eq_none (by decide), if_neg he.not_isEmpty, scanEntry_ok_iff.2 he]
      dsimp only
      rw [hc]
      exact ih

theorem scan_ok_iff : scan f = (.ok params, rest) ↔ ∃ inner entries, f.eat? '[' = some inner ∧
    ReadsList inner entries rest ∧ params = Table.ofList entries := by
  unfold scan
  cases ho : f.eat? '[' with
  | none => simp
  | some inner =>
    dsimp only
    constructor
    · intro h
      cases hs : scanEntries ∅ inner with
      | mk result left =>
        rw [hs] at h
        cases result with
        | error cause => cases h
        | ok params =>
          cases h
          obtain ⟨entries, hl, rfl⟩ := scanEntries_ok_iff.1 hs
          exact ⟨inner, entries, rfl, hl, rfl⟩
    · rintro ⟨_, entries, ⟨⟩, hl, rfl⟩
      rw [scanEntries_ok_iff.2 ⟨entries, hl, rfl⟩]
      rfl

end Params

end PortalScript
