import PortalScript.Proofs.Fragment.Trim
import PortalScript.Proofs.Portal.Grammar
import PortalScript.Proofs.Table.Entries
import PortalScript.Proofs.Text.Trim

/-! # How parameter lists are spelled

A `SpelledEntry` is a name and a value that a list can hold, and `listText` spells a list of them. Reading
that text gives back the entries (`readsList_listText`, `parse_listText`), whatever commas, brackets and
markers stand between quotes. What is read has each name once, and only such names (`WellNamed`). -/

namespace PortalScript.Params

open Fragment

/-- What a value without quotes can be. -/
structure IsBare (text : List Char) : Prop where
  ne_nil : text ≠ []
  not_end : ∀ c ∈ text, c ≠ ',' ∧ c ≠ ']'
  not_quote : ∀ c ∈ text.head?, c ≠ '\''
  head_not_blank : ∀ c ∈ text.head?, ¬ Text.isBlank c
  last_not_blank : ∀ c ∈ text.getLast?, ¬ Text.isBlank c

/-- A value as it is spelled: a text without quotes between quotes, or one that is bare. -/
inductive SpelledValue
  | quoted (inner : List Char) (h : '\'' ∉ inner)
  | bare (text : List Char) (h : IsBare text)

def SpelledValue.text : SpelledValue → List Char
  | quoted inner _ => '\'' :: (inner ++ ['\''])
  | bare text _ => text

structure SpelledEntry where
  key : String
  value : SpelledValue
  key_ne_nil : key.toList ≠ []
  isKeyChar : ∀ c ∈ key.toList, isKeyChar c

namespace SpelledEntry

def text (e : SpelledEntry) : List Char := e.key.toList ++ ':' :: ' ' :: e.value.text

/-- The name, and the value as a list keeps it. -/
def entry (e : SpelledEntry) : String × Fragment := (e.key, written e.value.text)

end SpelledEntry

def entriesText (es : List SpelledEntry) : List Char := [',', ' '].intercalate (es.map SpelledEntry.text)

def listText (es : List SpelledEntry) : List Char := '[' :: (entriesText es ++ [']'])

variable {rest : List Char}

theorem SpelledValue.text_ne_nil (v : SpelledValue) : v.text ≠ [] := by
  cases v with
  | quoted inner h => exact List.cons_ne_nil _ _
  | bare text h => exact h.ne_nil

theorem SpelledValue.head_not_blank (v : SpelledValue) :
    ∀ c ∈ (v.text ++ rest).head?, ¬ Text.isBlank c := by
  intro c hc
  rw [List.head?_append_of_ne_nil _ v.text_ne_nil] at hc
  cases v with
  | quoted inner h =>
    cases hc
    decide
  | bare text h => exact h.head_not_blank c hc

section
variable (hr : ∀ c ∈ rest.head?, c = ',' ∨ c = ']')
include hr

theorem readsValue_quoted {inner : List Char} (h : '\'' ∉ inner) :
    ReadsValue (written ('\'' :: (inner ++ ['\'']) ++ rest)) (written ('\'' :: (inner ++ ['\''])))
      (written rest) := by
  have hskip : (written rest).skipBlank = written rest := skipBlank_written fun c hc => by
    rcases hr c hc with rfl | rfl <;> decide
  have hopen : (written ('\'' :: (inner ++ ['\'']) ++ rest)).eat? '\'' =
      some (written (inner ++ '\'' :: rest)) := by
    rw [List.cons_append, List.append_assoc, eat?_written, if_pos rfl]
    rfl
  have hend : (written rest).skipBlank.startsAt ',' || (written rest).skipBlank.startsAt ']' ||
      (written rest).skipBlank.isEmpty := by
    rw [hskip]
    cases rest with
    | nil => rfl
    | cons c rest => rcases hr c rfl with rfl | rfl <;> rfl
  have hquote : ((written (inner ++ '\'' :: rest)).takeUntil '\'').quote =
      written ('\'' :: (inner ++ ['\''])) := by
    rw [takeUntil_written h, quote, written_eq, written_eq]
    simp [Glyph.ofScript, Glyph.closeGap]
  have hvalue := ReadsValue.quoted hopen (eat?_dropUntil_written h rest) hend
  rw [hquote, hskip] at hvalue
  exact hvalue

theorem readsValue_bare {text : List Char} (h : IsBare text) :
    ReadsValue (written (text ++ rest)) (written text) (written rest) := by
  have hpass : ∀ c ∈ text, isBareGlyph (.ofScript c) := by
    intro c hc
    obtain ⟨hcomma, hbracket⟩ := h.not_end c hc
    simp [isBareGlyph, Glyph.ofScript, Glyph.isWritten, hcomma, hbracket]
  have hstop : ∀ c ∈ rest.head?, ¬ isBareGlyph (.ofScript c) := by
    intro c hc
    rcases hr c hc with rfl | rfl <;> decide
  have htake := takeWhile_written hpass hstop
  have hdrop := dropWhile_written hpass hstop
  have htrim := trim_written_self h.ne_nil h.head_not_blank h.last_not_blank
  obtain ⟨c, cs, rfl⟩ := List.exists_cons_of_ne_nil h.ne_nil
  have hquote : (written (c :: cs ++ rest)).eat? '\'' = none := by
    rw [List.cons_append, eat?_written, if_neg (h.not_quote c rfl)]
  have hvalue := ReadsValue.bare hquote (by rw [htake, htrim]; simp [written, ofText, Fragment.isEmpty])
  rw [htake, htrim, hdrop] at hvalue
  exact hvalue

theorem SpelledValue.reads (v : SpelledValue) :
    ReadsValue (written (v.text ++ rest)) (written v.text) (written rest) := by
  cases v with
  | quoted inner h => exact readsValue_quoted hr h
  | bare text h => exact readsValue_bare hr h

end

theorem SpelledEntry.reads (e : SpelledEntry) (rest : List Char)
    (hr : ∀ c ∈ rest.head?, c = ',' ∨ c = ']') :
    ReadsEntry (written (e.text ++ rest)) e.entry (written rest) := by
  have htext : e.text ++ rest = e.key.toList ++ ':' :: ' ' :: (e.value.text ++ rest) := by
    simp [text]
  have hpass : ∀ c ∈ e.key.toList, isKeyGlyph (.ofScript c) := e.isKeyChar
  have hstop : ∀ c ∈ (':' :: ' ' :: (e.value.text ++ rest)).head?, ¬ isKeyGlyph (.ofScript c) := by
    rintro c ⟨⟩
    decide
  have htake := takeWhile_written hpass hstop
  have hdrop := dropWhile_written hpass hstop
  have hcolon : ((written (e.text ++ rest)).dropWhile isKeyGlyph).skipBlank.eat? ':' =
      some (written (' ' :: (e.value.text ++ rest))) := by
    rw [htext, hdrop, skipBlank_written (by rintro c ⟨⟩; decide), eat?_written, if_pos rfl]
  have hskip : (written (' ' :: (e.value.text ++ rest))).skipBlank = written (e.value.text ++ rest) :=
    dropWhile_written (a := [' ']) (by simp [Glyph.ofScript, Glyph.isBlank, Text.isBlank])
      e.value.head_not_blank
  have hvalue := SpelledValue.reads hr e.value
  rw [← hskip] at hvalue
  have hkey : ¬ ((written (e.text ++ rest)).takeWhile isKeyGlyph).isEmpty := by
    rw [htext, htake]
    simpa [written, ofText, Fragment.isEmpty] using e.key_ne_nil
  have hentry := ReadsEntry.mk hkey hcolon hvalue
  rw [htext, htake, Fragment.text, chars_written, String.ofList_toList] at hentry
  rw [htext]
  exact hentry

theorem not_isBlank_of_isKeyChar {c : Char} (h : Params.isKeyChar c) : ¬ Text.isBlank c := by
  simp only [Params.isKeyChar, Bool.or_eq_true, decide_eq_true_eq] at h
  rcases h with h | rfl
  · exact Text.not_isBlank_of_isAlphanumeric h
  · decide

theorem SpelledEntry.head_not_blank (e : SpelledEntry) :
    ∀ c ∈ (e.text ++ rest).head?, ¬ Text.isBlank c := by
  intro c hc
  rw [text, List.append_assoc, List.head?_append_of_ne_nil _ e.key_ne_nil] at hc
  exact not_isBlank_of_isKeyChar (e.isKeyChar c (List.mem_of_mem_head? hc))

theorem exists_entriesText_cons (e : SpelledEntry) (es : List SpelledEntry) :
    ∃ tail, entriesText (e :: es) = e.text ++ tail := by
  cases es with
  | nil => exact ⟨[], by simp [entriesText]⟩
  | cons e' es =>
    refine ⟨[',', ' '] ++ entriesText (e' :: es), ?_⟩
    rw [entriesText, List.map_cons, List.map_cons, List.intercalate_cons_cons, List.append_assoc]
    rfl

theorem readsList_entries (es : List SpelledEntry) (rest : List Char) {f : Fragment}
    (hf : f.skipBlank = written (entriesText es ++ ']' :: rest)) :
    ReadsList f (es.map SpelledEntry.entry) (written rest) := by
  induction es generalizing f with
  | nil => exact .close (by rw [hf]; exact eat?_written ']' ']' rest)
  | cons e es ih =>
    cases es with
    | nil =>
      have hentry := e.reads (']' :: rest) (by rintro c ⟨⟩; exact .inr rfl)
      rw [entriesText, List.map_singleton, List.intercalate_singleton] at hf
      rw [← hf] at hentry
      refine .last hentry ?_
      rw [skipBlank_written (by rintro c ⟨⟩; decide), eat?_written, if_pos rfl]
    | cons e' es =>
      have hentry := e.reads (',' :: ' ' :: (entriesText (e' :: es) ++ ']' :: rest))
        (by rintro c ⟨⟩; exact .inl rfl)
      have htext : entriesText (e :: e' :: es) ++ ']' :: rest =
          e.text ++ ',' :: ' ' :: (entriesText (e' :: es) ++ ']' :: rest) := by
        rw [entriesText, List.map_cons, List.map_cons, List.intercalate_cons_cons]
        simp [entriesText]
      rw [htext] at hf
      rw [← hf] at hentry
      have hnext : (written (' ' :: (entriesText (e' :: es) ++ ']' :: rest))).skipBlank =
          written (entriesText (e' :: es) ++ ']' :: rest) := by
        obtain ⟨tail, htail⟩ := exists_entriesText_cons e' es
        rw [htail, List.append_assoc]
        exact dropWhile_written (a := [' ']) (by simp [Glyph.ofScript, Glyph.isBlank, Text.isBlank])
          e'.head_not_blank
      refine .more hentry ?_ (ih hnext)
      rw [skipBlank_written (by rintro c ⟨⟩; decide), eat?_written, if_pos rfl]

theorem readsList_listText (es : List SpelledEntry) (rest : List Char) :
    ∃ inner, (written (listText es ++ rest)).eat? '[' = some inner ∧
      ReadsList inner (es.map SpelledEntry.entry) (written rest) := by
  refine ⟨written (entriesText es ++ ']' :: rest), ?_, readsList_entries es rest (skipBlank_written ?_)⟩
  · rw [listText, List.cons_append, List.append_assoc, eat?_written, if_pos rfl]
    rfl
  · cases es with
    | nil =>
      rintro c ⟨⟩
      decide
    | cons e es =>
      obtain ⟨tail, htail⟩ := exists_entriesText_cons e es
      rw [htail, List.append_assoc]
      exact e.head_not_blank

theorem trim_listText (es : List SpelledEntry) : Text.trim (listText es) = listText es := by
  have hleft : Text.trimLeft (listText es) = listText es := List.dropWhile_cons_of_neg (by decide)
  have hconcat : listText es = ('[' :: entriesText es) ++ [']'] := rfl
  rw [Text.trim, hleft, hconcat, Text.trimRight_concat (by decide)]

theorem parse_listText (es : List SpelledEntry) :
    parse (.ofList (listText es)) = .ok (Table.ofList (es.map SpelledEntry.entry)) := by
  obtain ⟨inner, ho, hl⟩ := readsList_listText es []
  rw [List.append_nil] at ho
  have hscan : scan (written (listText es)) =
      (.ok (Table.ofList (es.map SpelledEntry.entry)), written []) := by
    rw [scan, ho]
    dsimp only
    rw [scanEntries_ok_iff.2 ⟨_, hl, rfl⟩]
    rfl
  rw [parse, String.toList_ofList, trim_listText, hscan]
  rfl

/-- Each name stands once in the table, and is a name that a list can hold. -/
structure WellNamed (params : Params) : Prop where
  nodup : params.keys.Nodup
  isName : ∀ key ∈ params.keys, key.toList ≠ [] ∧ ∀ c ∈ key.toList, Params.isKeyChar c

theorem ReadsEntry.isName {f rest : Fragment} {entry : String × Fragment} (h : ReadsEntry f entry rest) :
    entry.1.toList ≠ [] ∧ ∀ c ∈ entry.1.toList, Params.isKeyChar c := by
  cases h with
  | mk hk hc hv =>
    rw [Fragment.text, String.toList_ofList, chars]
    refine ⟨fun hn => hk ?_, List.forall_mem_map.2 fun g hg => ?_⟩
    · rw [Fragment.isEmpty, List.map_eq_nil_iff.1 hn]
      rfl
    · have hkey : isKeyGlyph g := List.mem_takeWhile_imp hg
      exact (Bool.and_eq_true_iff.1 hkey).2

theorem wellNamed_ofList {f rest : Fragment} {entries : List (String × Fragment)}
    (h : ReadsList f entries rest) : WellNamed (Table.ofList entries) where
  nodup := Table.nodup_keys_ofList entries
  isName key hk := by
    rw [Table.keys_ofList, List.mem_eraseDups] at hk
    obtain ⟨e, he, rfl⟩ := List.mem_map.1 hk
    exact h.forall_entry ReadsEntry.isName e he

end PortalScript.Params
