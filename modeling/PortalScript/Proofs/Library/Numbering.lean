import Mathlib.Data.List.Basic
import PortalScript.Library
import PortalScript.Proofs.Text.Numeral

/-! # The numbering of prompts

A library gives out one id for each place, in order, and a place may stay empty. `Library.Numbered` relates
a library to its places: it holds for the base texts (`numbered_ofTexts`) and for every import, which
fills the next place (`Numbered.importText`). A look-up then finds what is in the place of the id and
nothing else (`Numbered.get?_idAt`, `Numbered.get?_eq_none`). -/

namespace PortalScript

namespace Prompt

theorem idAt_inj {m n : Nat} : idAt m = idAt n ↔ m = n := by
  refine ⟨fun h => ?_, congrArg idAt⟩
  rw [idAt, idAt, String.append_right_inj, Text.padded_inj] at h
  exact Nat.succ.inj h

theorem id_of_parse? {text : String} {place : Nat} {e : PromptEntry}
    (h : parse? text place = some e) : e.id = idAt place := by
  obtain ⟨body, -, rfl⟩ := Option.map_eq_some_iff.1 h
  rfl

/-- The entry of a text imported at a place: its template body, or the text as it is if it has none. -/
def imported (place : Nat) (text : String) : PromptEntry :=
  ⟨idAt place, "", (instructions? text).getD text⟩

end Prompt

namespace Library
variable {l : Library} {places : List (Option PromptEntry)}

/-- The library after texts are imported in their order. -/
def importAll (l : Library) (texts : List String) : Library := texts.foldl importText l

/-- What is in the places of the base texts, from place `n` on. -/
def basePlaces (n : Nat) (texts : List String) : List (Option PromptEntry) :=
  (texts.zipIdx n).map fun (text, place) => Prompt.parse? text place

/-- What is in the places of texts that are imported, the first of them at place `n`. -/
def importedPlaces (n : Nat) (texts : List String) : List (Option PromptEntry) :=
  (texts.zipIdx n).map fun (text, place) => some (Prompt.imported place text)

theorem basePlaces_cons (n : Nat) (text : String) (texts : List String) :
    basePlaces n (text :: texts) = Prompt.parse? text n :: basePlaces (n + 1) texts := rfl

theorem getElem?_basePlaces (n k : Nat) (texts : List String) :
    (basePlaces n texts)[k]? = texts[k]?.map fun text => Prompt.parse? text (n + k) := by
  rw [basePlaces, List.getElem?_map, List.getElem?_zipIdx, Option.map_map]
  rfl

theorem getElem?_importedPlaces (n k : Nat) (texts : List String) :
    (importedPlaces n texts)[k]? = texts[k]?.map fun text => some (Prompt.imported (n + k) text) := by
  rw [importedPlaces, List.getElem?_map, List.getElem?_zipIdx, Option.map_map]
  rfl

@[simp] theorem length_basePlaces (n : Nat) (texts : List String) :
    (basePlaces n texts).length = texts.length := by simp [basePlaces]

@[simp] theorem length_importedPlaces (n : Nat) (texts : List String) :
    (importedPlaces n texts).length = texts.length := by simp [importedPlaces]

/-- The library has given out the ids of these places, and the entries it holds are theirs. -/
structure Numbered (l : Library) (places : List (Option PromptEntry)) : Prop where
  count : l.baseLength + l.imported.length = places.length
  entries : l.entries = places.filterMap id
  ids : ∀ n e, places[n]? = some (some e) → e.id = Prompt.idAt n

theorem readFrom_eq (n : Nat) (texts : List String) :
    readFrom n texts = (basePlaces n texts).filterMap id := by
  induction texts generalizing n with
  | nil => rfl
  | cons text texts ih =>
    rw [readFrom, ih, basePlaces_cons]
    cases Prompt.parse? text n <;> simp

theorem numbered_ofTexts (texts : List String) : (ofTexts texts).Numbered (basePlaces 0 texts) where
  count := by simp [ofTexts]
  entries := by rw [entries, ofTexts, List.append_nil, readFrom_eq]
  ids n e h := by
    rw [getElem?_basePlaces, Nat.zero_add] at h
    obtain ⟨text, -, he⟩ := Option.map_eq_some_iff.1 h
    exact Prompt.id_of_parse? he

namespace Numbered

theorem nextId (h : l.Numbered places) : l.nextId = Prompt.idAt places.length := by
  rw [Library.nextId, h.count]

theorem entryOf (h : l.Numbered places) (text : String) :
    l.entryOf text = Prompt.imported places.length text := by
  rw [Library.entryOf, h.nextId]
  rfl

theorem importText (h : l.Numbered places) (text : String) :
    (l.importText text).Numbered (places ++ [some (Prompt.imported places.length text)]) where
  count := by
    have := h.count
    simp [Library.importText]
    omega
  entries := by
    have hentries := h.entries
    rw [Library.entries] at hentries
    rw [Library.entries, Library.importText, ← List.append_assoc, hentries, h.entryOf,
      List.filterMap_append]
    rfl
  ids n e hn := by
    rw [List.getElem?_append] at hn
    split at hn <;> rename_i hlt
    · exact h.ids n e hn
    · rw [List.getElem?_singleton] at hn
      split at hn <;> cases hn
      have : n = places.length := by omega
      rw [this]
      rfl

theorem importAll (h : l.Numbered places) (texts : List String) :
    (l.importAll texts).Numbered (places ++ importedPlaces places.length texts) := by
  induction texts generalizing l places with
  | nil => simpa [Library.importAll, importedPlaces] using h
  | cons text texts ih =>
    have hrest := ih (h.importText text)
    rw [List.append_assoc, List.length_append, List.length_singleton] at hrest
    exact hrest

theorem mem_entries_iff (h : l.Numbered places) {e : PromptEntry} :
    e ∈ l.entries ↔ ∃ n : Nat, places[n]? = some (some e) := by
  rw [h.entries, List.mem_filterMap]
  constructor
  · rintro ⟨place, hp, rfl⟩
    exact List.getElem?_of_mem hp
  · rintro ⟨n, hn⟩
    exact ⟨_, List.mem_of_getElem? hn, rfl⟩

theorem get?_idAt (h : l.Numbered places) (n : Nat) : l.get? (Prompt.idAt n) = places[n]?.join := by
  have hid {e : PromptEntry} (he : e ∈ l.entries) (hn : e.id = Prompt.idAt n) :
      places[n]? = some (some e) := by
    obtain ⟨m, hm⟩ := h.mem_entries_iff.1 he
    have heq : n = m := Prompt.idAt_inj.1 (hn.symm.trans (h.ids m e hm))
    rwa [heq]
  cases hg : l.get? (Prompt.idAt n) with
  | some e =>
    have he := hid (List.mem_of_find?_eq_some hg) (by simpa using List.find?_some hg)
    rw [he]
    rfl
  | none =>
    have hnone := List.find?_eq_none.1 hg
    rcases hp : places[n]? with - | - | e
    · rfl
    · rfl
    · exact absurd (h.ids n e hp) (by simpa using hnone e (h.mem_entries_iff.2 ⟨n, hp⟩))

theorem get?_eq_none (h : l.Numbered places) {id : String}
    (hid : ∀ n < places.length, id ≠ Prompt.idAt n) : l.get? id = none := by
  refine List.find?_eq_none.2 fun e he => ?_
  obtain ⟨n, hn⟩ := h.mem_entries_iff.1 he
  have hlt : n < places.length := (List.getElem?_eq_some_iff.1 hn).1
  rw [decide_eq_true_eq, h.ids n e hn]
  exact (hid n hlt).symm

theorem nodup_ids (h : l.Numbered places) : (l.entries.map (·.id)).Nodup := by
  rw [List.Nodup, List.pairwise_map, h.entries, List.pairwise_filterMap, List.pairwise_iff_getElem]
  intro m n hm hn hlt e he e' he' heq
  have hid := h.ids m e (List.getElem?_eq_some_iff.2 ⟨hm, he⟩)
  have hid' := h.ids n e' (List.getElem?_eq_some_iff.2 ⟨hn, he'⟩)
  exact Nat.ne_of_lt hlt (Prompt.idAt_inj.1 (by rw [← hid, heq, hid']))

/-- Later imports leave the ids that were given out as they are. -/
theorem get?_importAll (h : l.Numbered places) {n : Nat} (hn : n < places.length) (texts : List String) :
    (l.importAll texts).get? (Prompt.idAt n) = l.get? (Prompt.idAt n) := by
  rw [(h.importAll texts).get?_idAt, h.get?_idAt, List.getElem?_append_left hn]

theorem get?_entryOf (h : l.Numbered places) (text : String) (texts : List String) :
    ((l.importText text).importAll texts).get? (l.entryOf text).id = some (l.entryOf text) := by
  have hid : (l.entryOf text).id = Prompt.idAt places.length := h.nextId
  have hplace : places.length < (places ++ [some (Prompt.imported places.length text)]).length := by
    simp
  rw [hid, (h.importText text).get?_importAll hplace, (h.importText text).get?_idAt,
    List.getElem?_concat_length, h.entryOf]
  rfl

end Numbered

/-- The library of base texts after texts are imported in their order. -/
def grown (base imports : List String) : Library := (ofTexts base).importAll imports

/-- Each base text and each import has the id of its place, whether the base text can be read or not: the
id finds just what is in its place, nothing else finds anything, and no two entries share an id. An import
takes the next id, under which its entry is found from then on, and what the ids given out before find stays
as it is. -/
theorem numbered_lookup (base imports : List String) :
    (∀ n (hn : n < base.length),
      (grown base imports).get? (Prompt.idAt n) = Prompt.parse? base[n] n) ∧
    (∀ k (hk : k < imports.length), (grown base imports).get? (Prompt.idAt (base.length + k)) =
      some ⟨Prompt.idAt (base.length + k), "", (Prompt.instructions? imports[k]).getD imports[k]⟩) ∧
    (∀ id, (∀ n < base.length + imports.length, id ≠ Prompt.idAt n) →
      (grown base imports).get? id = none) ∧
    ((grown base imports).entries.map (·.id)).Nodup ∧
    ∀ text more,
      ((grown base imports).importText text).entries =
        (grown base imports).entries ++ [(grown base imports).entryOf text] ∧
      ((grown base imports).entryOf text).id = Prompt.idAt (base.length + imports.length) ∧
      (((grown base imports).importText text).importAll more).get?
        ((grown base imports).entryOf text).id = some ((grown base imports).entryOf text) ∧
      ∀ n < base.length + imports.length,
        ((grown base imports).importAll more).get? (Prompt.idAt n) =
          (grown base imports).get? (Prompt.idAt n) := by
  have hl : (grown base imports).Numbered (basePlaces 0 base ++ importedPlaces base.length imports) := by
    have h := (numbered_ofTexts base).importAll imports
    rwa [length_basePlaces] at h
  have hlength : (basePlaces 0 base ++ importedPlaces base.length imports).length =
      base.length + imports.length := by simp
  refine ⟨fun n hn => ?_, fun k hk => ?_, fun id hid => ?_, hl.nodup_ids, fun text more => ?_⟩
  · rw [hl.get?_idAt, List.getElem?_append_left (by simpa using hn), getElem?_basePlaces,
      List.getElem?_eq_getElem hn, Nat.zero_add]
    rfl
  · rw [hl.get?_idAt, List.getElem?_append_right (by simp), length_basePlaces,
      Nat.add_sub_cancel_left, getElem?_importedPlaces, List.getElem?_eq_getElem hk]
    rfl
  · exact hl.get?_eq_none fun n hn => hid n (hlength ▸ hn)
  · refine ⟨(List.append_assoc ..).symm, ?_, hl.get?_entryOf text more, fun n hn => ?_⟩
    · exact hlength ▸ hl.nextId
    · exact hl.get?_importAll (hlength ▸ hn) more

end Library

end PortalScript
