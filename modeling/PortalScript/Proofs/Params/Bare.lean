import PortalScript.Proofs.Params.Spelling
import PortalScript.Proofs.Portal.Values

/-! # Bare values

A value that does not stand between quotes runs up to the next comma or closing bracket. So a text
without these that is not blank at its ends is read as it stands (`parse_single`), and what is read
without quotes has none of them (`parse_bare`). -/

namespace PortalScript

namespace Params

open Fragment

variable {f rest value : Fragment} {entry : String × Fragment} {entries : List (String × Fragment)}
  {text : String} {params : Params} {a : List Char}

/-- A value stands between quotes, or no glyph of it ends a bare value. -/
def QuotedOrBare (value : Fragment) : Prop :=
  (∃ inner, value = quote inner) ∨ ∀ g ∈ value.glyphs, isBareGlyph g

theorem ReadsValue.quotedOrBare (h : ReadsValue f value rest) : QuotedOrBare value := by
  cases h with
  | quoted ho hc he => exact .inl ⟨_, rfl⟩
  | bare ho hv => exact .inr fun g hg => List.mem_takeWhile_imp ((glyphs_trim _).subset hg)

theorem readsList_of_parse (h : parse text = .ok params) : ∃ f entries rest,
    (∀ g ∈ f.glyphs, g.resolved = false) ∧ ReadsList f entries rest ∧ params = Table.ofList entries := by
  unfold parse at h
  rcases hs : scan (.written (Text.trim text.toList)) with ⟨result, rest⟩
  rw [hs] at h
  cases result with
  | error e => cases h
  | ok params' =>
    dsimp only at h
    split at h
    · cases h
      obtain ⟨inner, entries, hi, hl, hp⟩ := scan_ok_iff.1 hs
      refine ⟨inner, entries, rest, fun g hg => ?_, hl, hp⟩
      have hw := (glyphs_of_eat? hi).subset hg
      rw [written_eq] at hw
      obtain ⟨c, -, rfl⟩ := List.mem_map.1 hw
      rfl
    · cases h

theorem parse_bare (h : parse text = .ok params) : ∀ e ∈ params.entries,
    (∃ inner, e.2 = quote inner) ∨ ∀ c ∈ e.2.chars, c ≠ ',' ∧ c ≠ ']' := by
  obtain ⟨f, entries, rest, hf, hl, rfl⟩ := readsList_of_parse h
  intro e he
  have he := Table.mem_of_mem_ofList he
  refine (hl.forall_value ReadsValue.quotedOrBare e he).imp_right fun hbare c hc => ?_
  obtain ⟨g, hg, rfl⟩ := List.mem_map.1 hc
  have hwritten := (hl.isValueOf e he).not_resolved hf g hg
  have hg := hbare g hg
  simpa [isBareGlyph, Glyph.isWritten, hwritten] using hg

theorem parse_single {c : Char} (hq : c ≠ '\'') (hc : ∀ d ∈ c :: a, d ≠ ',' ∧ d ≠ ']')
    (hh : ¬ Text.isBlank c) (hl : ∀ d ∈ (c :: a).getLast?, ¬ Text.isBlank d) :
    parse (.ofList ("[v: ".toList ++ (c :: a) ++ [']'])) = .ok ⟨[("v", written (c :: a))]⟩ := by
  have hbare : IsBare (c :: a) := by
    refine ⟨List.cons_ne_nil c a, hc, ?_, ?_, hl⟩
    · rintro d ⟨⟩
      exact hq
    · rintro d ⟨⟩
      exact hh
  have hname : "v".toList.all isKeyChar := by decide +kernel
  let e : SpelledEntry := ⟨"v", .bare (c :: a) hbare, by decide, List.all_eq_true.1 hname⟩
  have hlist : listText [e] = "[v: ".toList ++ (c :: a) ++ [']'] := by
    simp [listText, entriesText, SpelledEntry.text, SpelledValue.text, e]
  rw [← hlist, parse_listText]
  rfl

end Params

end PortalScript
