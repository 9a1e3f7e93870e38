import PortalScript.Proofs.Link.Grammar
import PortalScript.Proofs.Params.Bare

/-! # How portals are spelled

A `SpelledHead` is what a portal can start with. Reading such a head before a spelled list gives back the
head and the parameters, each name where it came first and with the value that came last. Whatever is read,
each name stands once, and is made of the characters of names (`parse_undoes_spelling`). -/

namespace PortalScript.Portal

open Fragment Params

/-- A part of an action's head: an alias or the name of the action. -/
structure HeadPart where
  text : String
  ne_nil : text.toList ≠ []
  not_colon : ':' ∉ text.toList
  not_bracket : '[' ∉ text.toList
  not_blank : ∀ c ∈ text.toList, ¬ Text.isBlank c

/-- Where an action goes and its name, as spelled behind the `@`. -/
def actionText (conduit : Option HeadPart) (target : TurnRef) (name : HeadPart) : List Char :=
  TurnLink.aliasText (conduit.map (·.text)) ++ (target.label.toList ++ ':' :: name.text.toList)

/-- The head of a portal as it is spelled: an id without quotes that is not blank, or the target and the
name of an action. -/
inductive SpelledHead
  | data (id : String) (hq : '\'' ∉ id.toList) (hb : ¬ Text.allBlank id.toList)
  | action (conduit : Option HeadPart) (target : TurnRef) (hi : target.index ≤ Text.maxWord32)
      (name : HeadPart)

namespace SpelledHead

def text : SpelledHead → List Char
  | data id _ _ => '\'' :: (id.toList ++ ['\''])
  | action conduit target _ name => '@' :: actionText conduit target name

/-- What the head is read as. -/
def head : SpelledHead → Head
  | data id _ _ => .data id
  | action conduit target _ name => .action (conduit.map (·.text)) target (.ofName name.text)

end SpelledHead

theorem isHeadGlyph_ofScript {c : Char} :
    isHeadGlyph (.ofScript c) ↔ c ≠ '[' ∧ ¬ Text.isBlank c := by
  rw [isHeadGlyph, Glyph.ofScript, Bool.false_or, Bool.and_eq_true, decide_eq_true_iff, Bool.not_eq_true',
    Bool.not_eq_true]

theorem HeadPart.isHeadGlyph (part : HeadPart) : ∀ c ∈ part.text.toList, isHeadGlyph (.ofScript c) :=
  fun c hc => isHeadGlyph_ofScript.2 ⟨fun he => part.not_bracket (he ▸ hc), part.not_blank c hc⟩

section
variable {target : TurnRef} (conduit : Option HeadPart) (hi : target.index ≤ Text.maxWord32)
  (name : HeadPart)
include hi

theorem isHeadGlyph_actionText : ∀ c ∈ actionText conduit target name, isHeadGlyph (.ofScript c) := by
  intro c hc
  rw [actionText, TurnRef.toList_label] at hc
  simp only [List.mem_append, List.mem_cons] at hc
  rcases hc with hc | hc | rfl | hc
  · cases conduit with
    | none => cases hc
    | some part =>
      rcases List.mem_append.1 hc with hc | hc
      · exact part.isHeadGlyph c hc
      · cases List.mem_singleton.1 hc
        decide
  · have href := (TurnRef.indexed_padded hi 0).isRefChar c hc
    refine isHeadGlyph_ofScript.2 ⟨?_, Text.not_isBlank_of_class (by decide +kernel) href⟩
    rintro rfl
    exact absurd href (by decide)
  · decide
  · exact name.isHeadGlyph c hc

theorem splitOn_actionText : Text.splitOn ':' (actionText conduit target name) =
    (conduit.map (·.text.toList)).toList ++ [target.label.toList, name.text.toList] := by
  have hjoin : actionText conduit target name = Text.joinWith ':'
      ((conduit.map (·.text.toList)).toList ++ [target.label.toList, name.text.toList]) := by
    cases conduit <;> simp [actionText, TurnLink.aliasText, Text.joinWith]
  rw [hjoin]
  refine Text.splitOn_joinWith (fun part hm => ?_) (by simp)
  simp only [List.mem_append, List.mem_cons, List.not_mem_nil, or_false, Option.mem_toList] at hm
  rcases hm with hm | rfl | rfl
  · obtain ⟨part, -, rfl⟩ := Option.map_eq_some_iff.1 hm
    exact part.not_colon
  · rw [TurnRef.toList_label]
    exact (TurnRef.indexed_padded hi 0).not_colon
  · exact name.not_colon

theorem readHead_actionText : readHead (actionText conduit target name) =
    .ok (conduit.map (·.text), target, .ofName name.text) := by
  have htarget := TurnRef.parse_label hi
  rw [readHead, splitOn_actionText conduit hi name]
  cases conduit with
  | none => simp [bind, Except.bind, pure, Except.pure, name.ne_nil, htarget]
  | some part => simp [bind, Except.bind, pure, Except.pure, name.ne_nil, part.ne_nil, htarget]

end

namespace SpelledHead
variable {rest : List Char} {left : Fragment} {entries : List (String × Fragment)}

theorem reads (h : SpelledHead) (hp : ReadsParams (written ('[' :: rest)) entries left)
    (he : left.skipBlank.isEmpty) : Reads (written (h.text ++ '[' :: rest)) h.head entries := by
  cases h with
  | data id hq hb =>
    have htake := takeUntil_written hq ('[' :: rest)
    have hopen : (written ((data id hq hb).text ++ '[' :: rest)).eat? '\'' =
        some (written (id.toList ++ '\'' :: '[' :: rest)) := by
      rw [text, List.cons_append, List.append_assoc, eat?_written, if_pos rfl]
      rfl
    have hblank : ¬ Text.allBlank ((written (id.toList ++ '\'' :: '[' :: rest)).takeUntil '\'').chars := by
      rw [htake, chars_written]
      exact hb
    have hreads := Reads.data hopen (eat?_dropUntil_written hq _) hblank hp he
    rw [htake, Fragment.text, chars_written, String.ofList_toList] at hreads
    exact hreads
  | action conduit target hi name =>
    have hopen : (written ((action conduit target hi name).text ++ '[' :: rest)).eat? '@' =
        some (written (actionText conduit target name ++ '[' :: rest)) := by
      rw [text, List.cons_append, eat?_written, if_pos rfl]
    have hpass := isHeadGlyph_actionText conduit hi name
    have hstop : ∀ c ∈ ('[' :: rest).head?, ¬ isHeadGlyph (.ofScript c) := by
      rintro c ⟨⟩
      decide
    have htake := takeWhile_written hpass hstop
    have hdrop := dropWhile_written hpass hstop
    refine .action hopen ?_ ?_ (hdrop ▸ hp) he
    · rw [htake, written_eq]
      simp [Glyph.ofScript]
    · rw [htake, chars_written]
      exact readHead_actionText conduit hi name

end SpelledHead

theorem SpelledHead.head_not_blank (h : SpelledHead) {rest : List Char} :
    ∀ c ∈ (h.text ++ rest).head?, ¬ Text.isBlank c := by
  cases h <;> rintro c ⟨⟩ <;> decide

theorem parse_spelled (head : SpelledHead) (es : List SpelledEntry) :
    parse (written (head.text ++ listText es)) =
      .ok (head.head.portal (Table.ofList (es.map SpelledEntry.entry))) := by
  obtain ⟨inner, ho, hl⟩ := readsList_listText es []
  rw [List.append_nil] at ho
  have hparams : ReadsParams (written (listText es)) (es.map SpelledEntry.entry) (written []) :=
    .list (by rw [skipBlank_written (by rintro c ⟨⟩; decide), ho]) hl
  have hreads := head.reads hparams rfl
  have htrim : (written (head.text ++ listText es)).trim = written (head.text ++ listText es) := by
    refine trim_written_self ?_ head.head_not_blank ?_
    · exact List.append_ne_nil_of_right_ne_nil _ (List.cons_ne_nil _ _)
    · have hlast : head.text ++ listText es = (head.text ++ '[' :: entriesText es) ++ [']'] := by
        rw [listText, List.append_assoc, List.cons_append]
      rw [hlast, List.getLast?_concat]
      rintro c ⟨⟩
      decide
  exact parse_ok_iff.2 ⟨_, _, by rw [htrim]; exact hreads, rfl⟩

theorem wellNamed_of_parse {body : Fragment} {p : Portal} (h : parse body = .ok p) :
    p.params.WellNamed := by
  obtain ⟨head, entries, hr, rfl⟩ := parse_ok_iff.1 h
  rw [params_portal]
  have hparams {f rest : Fragment} (hp : ReadsParams f entries rest) :
      WellNamed (Table.ofList entries) := by
    cases hp with
    | none => exact ⟨List.nodup_nil, by rintro key ⟨⟩⟩
    | list ho hl => exact wellNamed_ofList hl
  cases hr with
  | data ho hc hi hp he => exact hparams hp
  | action ho hw hh hp he => exact hparams hp

/-- A portal that is spelled from a head and a list of entries is read as that head with the entries'
names in the order in which they came first, each with the value that came last. Whatever else is read as a
portal or a list has well named parameters. -/
theorem parse_undoes_spelling :
    (∀ (head : SpelledHead) (es : List SpelledEntry), ∃ params : Params,
      parse (written (head.text ++ listText es)) = .ok (head.head.portal params) ∧
      params.keys = (es.map (·.key)).eraseDups ∧
      ∀ key, params.get? key = Table.lookup key (es.map SpelledEntry.entry).reverse) ∧
    (∀ body p, parse body = .ok p → p.params.WellNamed) ∧
    ∀ text params, Params.parse text = .ok params → params.WellNamed := by
  refine ⟨fun head es => ⟨_, parse_spelled head es, ?_, fun key => Table.get?_ofList key _⟩,
    fun body p => wellNamed_of_parse, fun text params h => ?_⟩
  · rw [Table.keys_ofList, List.map_map]
    rfl
  · obtain ⟨f, entries, rest, -, hl, rfl⟩ := readsList_of_parse h
    exact wellNamed_ofList hl

/-- A name that comes twice, and a value with a comma and a bracket between its quotes. -/
theorem repeated_name_read : ∃ params : Params,
    parse (written "'id'[a: 1, b: 'x, y]', a: 2]".toList) = .ok (.data ⟨"id", params⟩) ∧
      params.keys = ["a", "b"] ∧ params.get? "a" = some (written ['2']) ∧
      params.get? "b" = some (written "'x, y]'".toList) ∧ params.WellNamed ∧
      ∃ table, Params.parse "[a: 1, b: 2, a: 3]" = .ok table ∧ table.WellNamed := by
  obtain ⟨hspelled, hportal, hlist⟩ := parse_undoes_spelling
  have hone : IsBare ['1'] := ⟨by simp, by simp, by simp, by simp [Text.isBlank], by simp [Text.isBlank]⟩
  have htwo : IsBare ['2'] := ⟨by simp, by simp, by simp, by simp [Text.isBlank], by simp [Text.isBlank]⟩
  have ha : "a".toList.all isKeyChar := by decide +kernel
  have hb : "b".toList.all isKeyChar := by decide +kernel
  let head : SpelledHead := .data "id" (by decide) (by decide)
  let es : List SpelledEntry :=
    [⟨"a", .bare ['1'] hone, by decide, List.all_eq_true.1 ha⟩,
      ⟨"b", .quoted "x, y]".toList (by decide), by decide, List.all_eq_true.1 hb⟩,
      ⟨"a", .bare ['2'] htwo, by decide, List.all_eq_true.1 ha⟩]
  have htext : head.text ++ listText es = "'id'[a: 1, b: 'x, y]', a: 2]".toList := by
    simp [head, es, SpelledHead.text, listText, entriesText, SpelledEntry.text, SpelledValue.text]
  obtain ⟨params, hparse, hkeys, hget⟩ := hspelled head es
  rw [htext] at hparse
  have htable : Params.parse "[a: 1, b: 2, a: 3]" =
      .ok ⟨[("a", written ['3']), ("b", written ['2'])]⟩ := by
    decide +kernel
  refine ⟨params, hparse, ?_, ?_, ?_, hportal _ _ hparse, _, htable, hlist _ _ htable⟩
  · rw [hkeys]
    show ["a", "b", "a"].eraseDups = ["a", "b"]
    decide
  · rw [hget]
    rfl
  · rw [hget]
    rfl

end PortalScript.Portal
