import PortalScript.Link
import PortalScript.Proofs.Portal.Grammar
import PortalScript.Proofs.Text.Numeral
import PortalScript.Proofs.Text.Split

/-! # The grammar of links

A link is `$` before a name, or `@` before an alias and a colon, if there is an alias, a turn reference, and
`:thoughts` where the thoughts of an AI turn are meant. `Link.Reads` says which texts are links and which
links they are (`Link.read_ok_iff`). The label of a link is read back as that link, and differs from the text
that was read in zeros before the index alone (`Link.parse_exact`). -/

namespace PortalScript

namespace TurnRef
variable {text digits : List Char} {r : TurnRef}

/-- The reference as spelled with these digits. -/
def spelled (r : TurnRef) (digits : List Char) : List Char := r.author.label.toList ++ '-' :: digits

/-- The digits are a numeral for the index of the reference, which is a word. -/
structure Indexed (r : TurnRef) (digits : List Char) : Prop where
  numeral : Text.isNumeral digits
  value : Text.digitsValue digits = r.index
  limit : r.index ≤ Text.maxWord32

theorem Indexed.ofDigits? (h : r.Indexed digits) :
    Text.ofDigits? Text.maxWord32 digits = some r.index := by
  rw [Text.ofDigits?, h.numeral, h.value, Bool.true_and, if_pos (decide_eq_true h.limit)]

theorem parse_ok_iff :
    parse text = .ok r ↔ ∃ digits, r.Indexed digits ∧ text = r.spelled digits := by
  unfold parse
  constructor
  · intro h
    split at h
    · cases h
    rename_i author index hc
    split at h
    · cases h
    rename_i a ha
    split at h <;> rename_i hn
    · split at h <;> rename_i n hv
      · cases h
        obtain ⟨hlimit, hvalue⟩ := Option.ite_none_right_eq_some.1 hv
        cases hvalue
        rw [Bool.and_eq_true] at hlimit
        have hauthor : author = a.label.toList := by
          rw [← Author.ofLabel?_eq_some_iff.1 ha, String.toList_ofList]
        refine ⟨index, ⟨hn, rfl, of_decide_eq_true hlimit.2⟩, ?_⟩
        rw [(Text.cutAt?_eq_some_iff.1 hc).1, hauthor]
        rfl
      · cases h
    · cases h
  · rintro ⟨digits, hd, rfl⟩
    have hdash : '-' ∉ r.author.label.toList := by cases r.author <;> decide
    have hcut : Text.cutAt? ['-'] (r.spelled digits) = some (r.author.label.toList, digits) :=
      Text.cutAt?_eq_some_iff.2 ⟨rfl, hdash⟩
    have hauthor : Author.ofLabel? (.ofList r.author.label.toList) = some r.author := by
      rw [String.ofList_toList, Author.ofLabel?_label]
    rw [hcut]
    dsimp only
    rw [hauthor]
    dsimp only
    rw [if_pos hd.numeral, hd.ofDigits?]

theorem indexed_padded (h : r.index ≤ Text.maxWord32) (zeros : Nat) :
    r.Indexed (.replicate zeros '0' ++ (toString r.index).toList) where
  numeral := Text.isNumeral_replicate_append zeros (Text.isNumeral_toString r.index)
  value := by rw [Text.digitsValue_replicate_append, Text.digitsValue_toString]
  limit := h

theorem toList_label (r : TurnRef) : r.label.toList = r.spelled (toString r.index).toList := by
  simp [label, spelled]

theorem parse_label (h : r.index ≤ Text.maxWord32) : parse r.label.toList = .ok r := by
  rw [toList_label]
  exact parse_ok_iff.2 ⟨_, indexed_padded h 0, rfl⟩

/-- The characters of turn references. -/
def isRefChar (c : Char) : Bool := c.isAlphanum || c = '-'

theorem Indexed.isRefChar (h : r.Indexed digits) : ∀ c ∈ r.spelled digits, isRefChar c := by
  intro c hm
  simp only [spelled, List.mem_append, List.mem_cons] at hm
  rcases hm with hm | rfl | hm
  · have ha : r.author.label.toList.all TurnRef.isRefChar := by cases r.author <;> decide
    exact List.all_eq_true.1 ha c hm
  · rfl
  · simp [TurnRef.isRefChar, Char.isAlphanum, (Text.isNumeral_iff.1 h.numeral).2 c hm]

theorem spelled_ne_nil : r.spelled digits ≠ [] := by
  simp [spelled]

theorem Indexed.not_colon (h : r.Indexed digits) : ':' ∉ r.spelled digits := fun hm =>
  absurd (h.isRefChar _ hm) (by decide)

end TurnRef

namespace TurnLink
variable {body target digits : List Char} {l : TurnLink}

/-- The alias of a link as spelled before the turn reference. -/
def aliasText (conduit : Option String) : List Char :=
  match conduit with
  | none => []
  | some name => name.toList ++ [':']

/-- The specifier of a link as spelled behind the turn reference. -/
def specifierText (thoughts : Bool) : List Char := if thoughts then ":thoughts".toList else []

/-- The parts of a link between colons. -/
def segments (l : TurnLink) (target : List Char) : List (List Char) :=
  (l.conduit.map String.toList).toList ++
    target :: (if l.thoughts then some "thoughts".toList else none).toList

theorem joinWith_segments (l : TurnLink) (target : List Char) :
    Text.joinWith ':' (l.segments target) =
      aliasText l.conduit ++ (target ++ specifierText l.thoughts) := by
  obtain ⟨conduit, r, thoughts⟩ := l
  cases conduit <;> cases thoughts <;> simp [segments, aliasText, specifierText, Text.joinWith]

/-- What a link can have for an alias: not what starts like a reference, unless a specifier makes it clear
which of the two parts is the reference. -/
structure IsAliasOf (name : List Char) (thoughts : Bool) : Prop where
  ne_nil : name ≠ []
  not_blank : ∀ c ∈ name, ¬ Text.isBlank c
  not_colon : ':' ∉ name
  not_ref : thoughts = false → ¬ startsLikeRef name

/-- A link that can be spelled, but for the index. -/
structure Readable (l : TurnLink) : Prop where
  conduit : ∀ name ∈ l.conduit, IsAliasOf name.toList l.thoughts
  thoughts : l.thoughts → l.target.author = .ai

theorem readAlias_ok_iff {name : List Char} {conduit : String} : readAlias name = .ok conduit ↔
    name = conduit.toList ∧ name ≠ [] ∧ ∀ c ∈ name, ¬ Text.isBlank c := by
  unfold readAlias
  split <;> rename_i h
  · simp only [Bool.or_eq_true, List.isEmpty_iff, List.any_eq_true] at h
    refine ⟨by rintro ⟨⟩, ?_⟩
    rintro ⟨-, hne, hblank⟩
    obtain ⟨c, hm, hc⟩ := h.resolve_left hne
    exact absurd hc (hblank c hm)
  · simp only [Bool.or_eq_true, List.isEmpty_iff, List.any_eq_true, not_or, not_exists, not_and] at h
    rw [Except.ok.injEq, ← String.toList_inj, String.toList_ofList]
    exact ⟨fun he => ⟨he, h.1, h.2⟩, fun he => he.1⟩

theorem readSpecifier_ok_iff {a : Author} {specifier : Option (List Char)} {thoughts : Bool} :
    readSpecifier a specifier = .ok thoughts ↔
      specifier = (if thoughts then some "thoughts".toList else none) ∧ (thoughts → a = .ai) := by
  unfold readSpecifier
  split
  · cases thoughts <;> simp
  · split <;> rename_i hs
    · subst hs
      cases a <;> cases thoughts <;> simp
    · cases thoughts <;> simp [hs]

theorem ofSegments_ok_iff {parts specifier : Option (List Char)} :
    ofSegments parts target specifier = .ok l ↔ parts = l.conduit.map String.toList ∧
      (∀ name ∈ parts, name ≠ [] ∧ ∀ c ∈ name, ¬ Text.isBlank c) ∧
      TurnRef.parse target = .ok l.target ∧
      readSpecifier l.target.author specifier = .ok l.thoughts := by
  obtain ⟨conduit, r, thoughts⟩ := l
  unfold ofSegments
  cases parts with
  | none =>
    simp only [bind, Params.bind_eq_ok_iff, pure, Except.pure, Except.ok.injEq, mk.injEq]
    constructor
    · rintro ⟨_, rfl, r', ht, thoughts', hs, rfl, rfl, rfl⟩
      exact ⟨rfl, by simp, ht, hs⟩
    · rintro ⟨hc, -, ht, hs⟩
      exact ⟨none, rfl, r, ht, thoughts, hs, (Option.map_eq_none_iff.1 hc.symm).symm, rfl, rfl⟩
  | some name =>
    simp only [bind, Params.bind_eq_ok_iff, Params.map_eq_ok_iff, readAlias_ok_iff, pure, Except.pure,
      Except.ok.injEq, mk.injEq]
    constructor
    · rintro ⟨_, ⟨conduit', ⟨rfl, hname⟩, rfl⟩, r', ht, thoughts', hs, rfl, rfl, rfl⟩
      exact ⟨rfl, by simpa using hname, ht, hs⟩
    · rintro ⟨hc, hname, ht, hs⟩
      obtain ⟨conduit', rfl, rfl⟩ := Option.map_eq_some_iff.1 hc.symm
      exact ⟨_, ⟨conduit', ⟨rfl, hname _ rfl⟩, rfl⟩, r, ht, thoughts, hs, rfl, rfl, rfl⟩

theorem startsLikeRef_spelled (r : TurnRef) (digits : List Char) : startsLikeRef (r.spelled digits) := by
  obtain ⟨author, index⟩ := r
  cases author <;> simp [startsLikeRef, TurnRef.spelled, Author.label, Text.after?]

theorem readable_of_ofSegments {parts specifier : Option (List Char)}
    (h : ofSegments parts target specifier = .ok l)
    (hparts : ∀ name ∈ parts, ':' ∉ name ∧ (specifier = none → ¬ startsLikeRef name)) :
    l.Readable ∧ ∃ digits, l.target.Indexed digits ∧
      parts.toList ++ target :: specifier.toList = l.segments (l.target.spelled digits) := by
  obtain ⟨rfl, hname, ht, hs⟩ := ofSegments_ok_iff.1 h
  obtain ⟨rfl, hauthor⟩ := readSpecifier_ok_iff.1 hs
  obtain ⟨digits, hd, rfl⟩ := TurnRef.parse_ok_iff.1 ht
  refine ⟨⟨fun name hc => ?_, hauthor⟩, digits, hd, rfl⟩
  have hm : name.toList ∈ l.conduit.map String.toList := Option.mem_map_of_mem _ hc
  obtain ⟨hne, hblank⟩ := hname _ hm
  obtain ⟨hcolon, href⟩ := hparts _ hm
  exact ⟨hne, hblank, hcolon, fun ht => href (by rw [ht]; rfl)⟩

/-- Which parts between colons make a link. -/
theorem read_ok_iff_segments : read body = .ok l ↔ l.Readable ∧
    ∃ digits, l.target.Indexed digits ∧
      Text.splitOn ':' body = l.segments (l.target.spelled digits) := by
  constructor
  · intro h
    have hcolon {part : List Char} (hm : part ∈ Text.splitOn ':' body) : ':' ∉ part :=
      Text.not_mem_of_mem_splitOn hm
    unfold read at h
    split at h <;> rename_i hs
    · rw [hs]
      exact readable_of_ofSegments h (by simp)
    · rename_i first second
      rw [hs] at hcolon ⊢
      split at h <;> rename_i hfirst
      · exact readable_of_ofSegments h (by simp)
      · refine readable_of_ofSegments h fun name hm => ?_
        cases hm
        exact ⟨hcolon (by simp), fun _ => hfirst⟩
    · rw [hs] at hcolon ⊢
      refine readable_of_ofSegments h fun name hm => ?_
      cases hm
      exact ⟨hcolon (by simp), by rintro ⟨⟩⟩
    · cases h
  · rintro ⟨hl, digits, hd, hs⟩
    obtain ⟨conduit, r, thoughts⟩ := l
    have ht : TurnRef.parse (r.spelled digits) = .ok r := TurnRef.parse_ok_iff.2 ⟨digits, hd, rfl⟩
    have hspecifier : readSpecifier r.author (if thoughts then some "thoughts".toList else none) =
        .ok thoughts := readSpecifier_ok_iff.2 ⟨rfl, hl.thoughts⟩
    have hname : ∀ name ∈ conduit.map String.toList, name ≠ [] ∧ ∀ c ∈ name, ¬ Text.isBlank c := by
      intro name hm
      obtain ⟨name, hc, rfl⟩ := Option.map_eq_some_iff.1 hm
      exact ⟨(hl.conduit name hc).ne_nil, (hl.conduit name hc).not_blank⟩
    have hsegments := ofSegments_ok_iff (l := ⟨conduit, r, thoughts⟩).2 ⟨rfl, hname, ht, hspecifier⟩
    rw [read, hs]
    cases conduit with
    | none =>
      cases thoughts with
      | false => exact hsegments
      | true => exact (if_pos (startsLikeRef_spelled r digits)).trans hsegments
    | some name =>
      cases thoughts with
      | false => exact (if_neg ((hl.conduit name rfl).not_ref rfl)).trans hsegments
      | true => exact hsegments

/-- The link as spelled behind the `@`, with these digits. -/
def spelled (l : TurnLink) (digits : List Char) : List Char :=
  aliasText l.conduit ++ (l.target.spelled digits ++ specifierText l.thoughts)

theorem read_ok_iff : read body = .ok l ↔
    l.Readable ∧ ∃ digits, l.target.Indexed digits ∧ body = l.spelled digits := by
  rw [read_ok_iff_segments]
  refine and_congr_right fun hl => exists_congr fun digits => and_congr_right fun hd => ?_
  rw [spelled, ← joinWith_segments]
  constructor
  · intro hs
    rw [← hs, Text.joinWith_splitOn]
  · rintro rfl
    refine Text.splitOn_joinWith (fun part hm => ?_)
      (List.append_ne_nil_of_right_ne_nil _ (List.cons_ne_nil _ _))
    simp only [segments, List.mem_append, List.mem_cons, Option.mem_toList] at hm
    rcases hm with hm | rfl | hm
    · obtain ⟨name, hc, rfl⟩ := Option.map_eq_some_iff.1 hm
      exact (hl.conduit name hc).not_colon
    · exact hd.not_colon
    · obtain ⟨-, hp⟩ := Option.ite_none_right_eq_some.1 hm
      cases hp
      decide

end TurnLink

namespace Link
variable {text : List Char} {token : String} {l : Link}

/-- What can be read as a link. -/
inductive Reads : List Char → Link → Prop
  | session {name : String} (hne : name.toList ≠ []) (hn : ∀ c ∈ name.toList, isNameChar c) :
      Reads ('$' :: name.toList) (.session name)
  | turn {l : TurnLink} {digits : List Char} (hl : l.Readable) (hd : l.target.Indexed digits) :
      Reads ('@' :: l.spelled digits) (.turn l)

theorem read_ok_iff : read text = .ok l ↔ Reads text l := by
  constructor
  · intro h
    unfold read at h
    split at h
    · rename_i name
      split at h <;> rename_i hn <;> cases h
      simp only [Bool.and_eq_true, Bool.not_eq_true', List.isEmpty_eq_false_iff, List.all_eq_true] at hn
      obtain ⟨name, rfl⟩ : ∃ s : String, name = s.toList := ⟨.ofList name, String.toList_ofList.symm⟩
      rw [String.ofList_toList]
      exact .session hn.1 hn.2
    · obtain ⟨l', hl, rfl⟩ := Params.map_eq_ok_iff.1 h
      obtain ⟨hreadable, digits, hd, rfl⟩ := TurnLink.read_ok_iff.1 hl
      exact .turn hreadable hd
    · cases h
  · intro h
    cases h with
    | @session name hne hn =>
      have hname : !name.toList.isEmpty && name.toList.all isNameChar := by
        rw [Bool.and_eq_true, Bool.not_eq_true', List.isEmpty_eq_false_iff, List.all_eq_true]
        exact ⟨hne, hn⟩
      rw [read, if_pos hname, String.ofList_toList]
    | turn hl hd => exact Params.map_eq_ok_iff.2 ⟨_, TurnLink.read_ok_iff.2 ⟨hl, _, hd, rfl⟩, rfl⟩

theorem parse_ok_iff : parse token = .ok l ↔ Reads token.toList l := by
  rw [parse, Portal.within_ok_iff, read_ok_iff]

/-- Before a specifier an alias may start like a reference. -/
example : parse "@AI-x:AI-1:thoughts" = .ok (.turn ⟨some "AI-x", ⟨.ai, 1⟩, true⟩) ∧
    parse "@AI-x:AI-1" = .error ⟨.indexNotNumber "x", "@AI-x:AI-1"⟩ := by
  decide +kernel

/-- The link as spelled with zeros before the index. -/
def spelled (zeros : Nat) : Link → List Char
  | session name => '$' :: name.toList
  | turn l => '@' :: l.spelled (.replicate zeros '0' ++ (toString l.target.index).toList)

theorem toList_label (l : Link) : l.label.toList = l.spelled 0 := by
  cases l with
  | session name => simp [label, spelled]
  | turn l =>
    obtain ⟨conduit, r, thoughts⟩ := l
    cases conduit <;> cases thoughts <;>
      simp [label, spelled, TurnLink.label, TurnLink.spelled, TurnRef.toList_label, TurnLink.aliasText,
        TurnLink.specifierText]

/-- A link is spelled with zeros before its index, or as its name. -/
theorem Reads.exists_zeros (h : Reads text l) : ∃ zeros, text = l.spelled zeros := by
  cases h with
  | session => exact ⟨0, rfl⟩
  | turn hl hd =>
    obtain ⟨zeros, hz⟩ := Text.exists_eq_replicate_append hd.numeral
    rw [hd.value] at hz
    exact ⟨zeros, by rw [hz]; rfl⟩

theorem Reads.spelled (h : Reads text l) (zeros : Nat) : Reads (l.spelled zeros) l := by
  cases h with
  | session hne hn => exact .session hne hn
  | turn hl hd => exact .turn hl (TurnRef.indexed_padded hd.limit zeros)

/-- A text is read as a link just if it is spelled as one. The label of the link is read back as that link,
and is what was read but for zeros before the index. -/
theorem parse_exact (token : String) :
    (∀ l, parse token = .ok l ↔ Reads token.toList l) ∧
    ∀ l, parse token = .ok l → parse l.label = .ok l ∧ l.label.toList = l.spelled 0 ∧
      ∃ zeros, token.toList = l.spelled zeros := by
  refine ⟨fun l => parse_ok_iff, fun l h => ?_⟩
  have hr := parse_ok_iff.1 h
  refine ⟨?_, toList_label l, hr.exists_zeros⟩
  rw [parse_ok_iff, toList_label]
  exact hr.spelled 0

/-- The label of a link whose index was written with zeros has none. -/
theorem parse_padded_index :
    parse "@notes:AI-007:thoughts" = .ok (.turn ⟨some "notes", ⟨.ai, 7⟩, true⟩) ∧
      parse "@notes:AI-7:thoughts" = .ok (.turn ⟨some "notes", ⟨.ai, 7⟩, true⟩) ∧
      ∃ zeros, "@notes:AI-007:thoughts".toList =
        spelled zeros (.turn ⟨some "notes", ⟨.ai, 7⟩, true⟩) := by
  have hparse : parse "@notes:AI-007:thoughts" = .ok (.turn ⟨some "notes", ⟨.ai, 7⟩, true⟩) := by
    decide +kernel
  have hlabel : label (.turn ⟨some "notes", ⟨.ai, 7⟩, true⟩) = "@notes:AI-7:thoughts" := by
    decide +kernel
  obtain ⟨hback, -, hzeros⟩ := (parse_exact "@notes:AI-007:thoughts").2 _ hparse
  rw [hlabel] at hback
  exact ⟨hparse, hback, hzeros⟩

end Link

end PortalScript
