import PortalScript.Proofs.Fragment.Prefix
import PortalScript.Proofs.Params.Locality

/-! # Source text before a value

`Leads a before key w` says that a list that starts with the text `a` has the entries `before` and
then one under `key` whose value starts with `w`, whatever follows `a`. Every list with resolved
text in a value starts so (`exists_leads`): up to that text, reading it takes no notice of what the
text is. -/

namespace PortalScript

namespace Params

open Fragment

variable {f rest left : Fragment} {g : Glyph} {a w : List Char} {key : String}
  {es : List (String × Fragment)}

/-- The text `a` at the start of a list holds the entries `before` and the start `w` of a value under
`key`. -/
def Leads (a : List Char) (before : List (String × Fragment)) (key : String) (w : List Char) : Prop :=
  ∀ (f : Fragment) (es : List (String × Fragment)) (rest : Fragment),
    ReadsList (written a ++ f) es rest ↔ ∃ value behind after, es = before ++ (key, value) :: after ∧
      ReadsValue (written w ++ f).skipBlank value behind ∧ ReadsTail behind after rest

theorem leads_iff {before : List (String × Fragment)} : Leads a before key w ↔
    LeadsTo (a.map Glyph.ofScript) before key (w.map Glyph.ofScript) := by
  simp only [Leads, LeadsTo, written_append_eq_prepend]

theorem Encloses.exists_resolved {gs : List Glyph} {read : Fragment → Fragment}
    (h : Encloses gs left read rest) (hf : f.Blocked g left) : ∃ a ∈ (read f).glyphs, a.resolved := by
  cases h with
  | @bare s u _ _ _ hu =>
    exact ⟨g, mem_trim (hf.mem_takeWhile hu hf.isBareGlyph) hf.not_blank, hf.resolved⟩
  | @quoted s u q behind _ _ _ _ hu =>
    have hm := hf.mem_takeWhile hu (hf.not_isWritten '\'')
    refine ⟨g.closeGap, ?_, hf.resolved⟩
    exact List.mem_cons_of_mem _ (List.mem_append_left _ (List.mem_map_of_mem hm))

theorem exists_leads (hf : f.Solid g left) (h : ReadsList (written a ++ f) es rest)
    (hx : ∃ e ∈ es, ∃ a ∈ e.2.glyphs, a.resolved) :
    ∃ before key value after w, Leads a before key w ∧ es = before ++ (key, value) :: after ∧
      (∃ a ∈ value.glyphs, a.resolved) ∧ ∀ e ∈ before, ∀ a ∈ e.2.glyphs, a.resolved = false := by
  have hwritten : ∀ b ∈ a.map Glyph.ofScript, b.resolved = false :=
    List.forall_mem_map.2 fun _ _ => rfl
  rw [written_append_eq_prepend] at h
  rcases readsList_local hf.blocked h with ⟨-, -, hes⟩ |
      ⟨before, key, read, after, _, behind, hw, hl, rfl, henc, -, hb⟩
  · -- no entry before the resolved text has any
    obtain ⟨e, he, b, hb, hr⟩ := hx
    rw [(hes e he).not_resolved hwritten b hb] at hr
    cases hr
  · obtain ⟨w, -, rfl⟩ := List.suffix_map_iff.1 hw
    exact ⟨before, key, read f, after, w, leads_iff.2 hl, rfl, henc.exists_resolved hf.blocked,
      fun e he => (hb e he).not_resolved hwritten⟩

end Params

end PortalScript
