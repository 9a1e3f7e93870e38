import PortalScript.Proofs.Params.Prefix
import PortalScript.Proofs.Portal.Locality

/-! # Source text before the parameters of a portal

`Opens a head a'` says that a portal that starts with the text `a` has the head `head` and a
parameter list of which `a'` is the start. A portal with resolved text in a parameter value has its
head before that text (`exists_opens`). -/

namespace PortalScript.Portal

open Fragment

variable {f left : Fragment} {g : Glyph} {a a' : List Char} {head : Head}
  {es : List (String × Fragment)}

/-- The text `a` at the start of a portal holds its head and the start `a'` of its list. -/
def Opens (a : List Char) (head : Head) (a' : List Char) : Prop :=
  ∀ (f : Fragment) (h : Head) (es : List (String × Fragment)), Reads (written a ++ f) h es ↔
    h = head ∧ ∃ rest, Params.ReadsList (written a' ++ f) es rest ∧ rest.skipBlank.isEmpty

theorem opens_iff : Opens a head a' ↔
    OpensTo (a.map Glyph.ofScript) head (a'.map Glyph.ofScript) := by
  simp only [Opens, OpensTo, written_append_eq_prepend]

theorem exists_opens (hf : f.Solid g left) (h : Reads (written a ++ f) head es)
    (hx : ∃ e ∈ es, ∃ b ∈ e.2.glyphs, b.resolved) : ∃ a', Opens a head a' := by
  obtain ⟨e, he, b, hb, hr⟩ := hx
  have hes : es ≠ [] := List.ne_nil_of_mem he
  suffices ho : ∃ list, list <:+ a.map Glyph.ofScript ∧ OpensTo (a.map Glyph.ofScript) head list by
    obtain ⟨_, hs, ho⟩ := ho
    obtain ⟨a', -, rfl⟩ := List.suffix_map_iff.1 hs
    exact ⟨a', opens_iff.2 ho⟩
  rw [written_append_eq_prepend] at h
  cases h with
  | data ho hc hi hp =>
    rcases reads_data_local hf.blocked ho hc hi hp hes with h | ⟨-, -, -, -, -, hc⟩
    · exact h
    · -- the resolved text would belong to the id and the list would hold none
      have hs := (glyphs_of_eat? hc).trans (glyphs_dropWhile _ _)
      have hw := (hp.isValueOf e he).not_resolved fun b hb => hf.rest_written b (hs.subset hb)
      rw [hw b hb] at hr
      cases hr
  | action ho hw hh hp => exact reads_action_local hf.blocked ho hw hh hp hes

end PortalScript.Portal
