import Mathlib.Data.List.Infix
import PortalScript.Proofs.Portal.Grammar
import PortalScript.Proofs.Table.Entries
import PortalScript.Value

/-! # Where parameter values come from

A parameter value is a run of the portal's glyphs just as they stand there, or it stands between
quotes (`isValueOf_of_parse`). Only the former can be a nested portal, which is therefore a run of
the body around it (`infix_of_classify_portal`). -/

namespace PortalScript

namespace Fragment
variable {f f' : Fragment} {c : Char}

theorem glyphs_of_eat? (h : f.eat? c = some f') : f'.glyphs <:+ f.glyphs := by
  obtain ⟨gap, hg, -⟩ := eat?_eq_some_iff.1 h
  rw [hg]
  exact List.suffix_cons _ _

theorem glyphs_dropWhile (p : Glyph → Bool) (f : Fragment) :
    (f.dropWhile p).glyphs <:+ f.glyphs := List.dropWhile_suffix p

theorem glyphs_takeWhile (p : Glyph → Bool) (f : Fragment) :
    (f.takeWhile p).glyphs <+: f.glyphs := List.takeWhile_prefix p

theorem trimEnd_isPrefix (gap : Bool) (gs : List Glyph) : (trimEnd gap gs).1 <+: gs := by
  induction gs with
  | nil => exact List.nil_prefix
  | cons g gs ih =>
    rw [trimEnd]
    split <;> rename_i h
    · split
      · exact List.nil_prefix
      · exact List.cons_prefix_cons.2 ⟨rfl, List.nil_prefix⟩
    · rw [h] at ih
      exact List.cons_prefix_cons.2 ⟨rfl, ih⟩

theorem glyphs_trim (f : Fragment) : f.trim.glyphs <:+: f.glyphs := by
  unfold trim
  split
  · exact List.nil_infix
  · exact (trimEnd_isPrefix _ _).isInfix.trans (List.dropWhile_suffix _).isInfix

theorem head?_trim {g : Glyph} {gs : List Glyph} (hf : f.glyphs = g :: gs) (hg : ¬ g.isBlank) :
    f.trim.glyphs.head? = some g := by
  have hd : f.glyphs.dropWhile (·.isBlank) = g :: gs := by
    rw [hf, List.dropWhile_cons_of_neg hg]
  unfold trim
  rw [hd]
  dsimp only
  rw [trimEnd]
  split
  · rw [if_neg hg]
    rfl
  · rfl

/-- A text cut out of the fragment, as it stands there or between quotes. -/
def IsValueOf (f value : Fragment) : Prop :=
  value.glyphs <:+: f.glyphs ∨ ∃ inner, inner.glyphs <:+: f.glyphs ∧ value = quote inner

theorem IsValueOf.mono {value : Fragment} (h : f'.IsValueOf value)
    (hf : f'.glyphs <:+: f.glyphs) : f.IsValueOf value := by
  rcases h with h | ⟨inner, h, rfl⟩
  · exact .inl (h.trans hf)
  · exact .inr ⟨inner, h.trans hf, rfl⟩

theorem IsValueOf.not_resolved {value : Fragment} (h : f.IsValueOf value)
    (hf : ∀ g ∈ f.glyphs, g.resolved = false) : ∀ g ∈ value.glyphs, g.resolved = false := by
  rcases h with h | ⟨inner, h, rfl⟩
  · exact fun g hg => hf g (h.subset hg)
  · intro g hg
    simp only [quote, List.mem_cons, List.mem_append, List.mem_map, List.not_mem_nil, or_false] at hg
    rcases hg with rfl | ⟨a, ha, rfl⟩ | rfl
    · rfl
    · exact hf a (h.subset ha)
    · rfl

end Fragment

open Fragment

namespace Params
variable {f rest value : Fragment} {entry : String × Fragment} {entries : List (String × Fragment)}

theorem ReadsValue.isValueOf (h : ReadsValue f value rest) :
    f.IsValueOf value ∧ rest.glyphs <:+ f.glyphs := by
  cases h with
  | quoted ho hc he =>
    refine ⟨.inr ⟨_, ?_, rfl⟩, ?_⟩
    · exact (glyphs_takeWhile _ _).isInfix.trans (glyphs_of_eat? ho).isInfix
    · exact (glyphs_dropWhile _ _).trans <| (glyphs_of_eat? hc).trans <|
        (glyphs_dropWhile _ _).trans (glyphs_of_eat? ho)
  | bare ho hv =>
    refine ⟨.inl ?_, glyphs_dropWhile _ _⟩
    exact (glyphs_trim _).trans (glyphs_takeWhile _ _).isInfix

theorem ReadsEntry.isValueOf (h : ReadsEntry f entry rest) :
    f.IsValueOf entry.2 ∧ rest.glyphs <:+ f.glyphs := by
  cases h with
  | mk hk hc hv =>
    obtain ⟨hi, hs⟩ := hv.isValueOf
    have hf := (glyphs_dropWhile (·.isBlank) _).trans <| (glyphs_of_eat? hc).trans <|
      (glyphs_dropWhile _ _).trans (glyphs_dropWhile isKeyGlyph f)
    exact ⟨hi.mono hf.isInfix, hs.trans hf⟩

theorem ReadsList.isValueOf (h : ReadsList f entries rest) : ∀ e ∈ entries, f.IsValueOf e.2 := by
  induction h with
  | close hb => simp
  | last he hb =>
    intro e h
    cases List.mem_singleton.1 h
    exact he.isValueOf.1.mono (glyphs_dropWhile _ _).isInfix
  | more he hc hl ih =>
    obtain ⟨hi, hs⟩ := he.isValueOf
    intro e h
    rcases List.mem_cons.1 h with rfl | h
    · exact hi.mono (glyphs_dropWhile _ _).isInfix
    · refine (ih e h).mono (List.IsSuffix.isInfix ?_)
      exact (glyphs_of_eat? hc).trans <| (glyphs_dropWhile _ _).trans <|
        hs.trans (glyphs_dropWhile _ _)

theorem ReadsList.forall_value {P : Fragment → Prop}
    (hP : ∀ {f value rest}, ReadsValue f value rest → P value) (h : ReadsList f entries rest) :
    ∀ e ∈ entries, P e.2 := by
  refine h.forall_entry fun he => ?_
  cases he with
  | mk hk hc hv => exact hP hv

end Params

namespace Portal
variable {f rest : Fragment} {entries : List (String × Fragment)} {head : Head} {p : Portal}

theorem ReadsParams.isValueOf (h : ReadsParams f entries rest) : ∀ e ∈ entries, f.IsValueOf e.2 := by
  cases h with
  | none ho => simp
  | list ho hl =>
    intro e he
    exact (hl.isValueOf e he).mono ((glyphs_of_eat? ho).trans (glyphs_dropWhile _ _)).isInfix

theorem Reads.isValueOf (h : Reads f head entries) : ∀ e ∈ entries, f.IsValueOf e.2 := by
  intro e he
  cases h with
  | data ho hc hi hp hr =>
    refine (hp.isValueOf e he).mono (List.IsSuffix.isInfix ?_)
    exact (glyphs_of_eat? hc).trans ((glyphs_dropWhile _ _).trans (glyphs_of_eat? ho))
  | action ho hw hh hp hr =>
    refine (hp.isValueOf e he).mono (List.IsSuffix.isInfix ?_)
    exact (glyphs_dropWhile _ _).trans (glyphs_of_eat? ho)

/-- The parameter values of a portal are cut out of its body or stand between quotes. -/
theorem isValueOf_of_parse (h : parse f = .ok p) : ∀ e ∈ p.params.entries, f.IsValueOf e.2 := by
  obtain ⟨head, entries, hr, rfl⟩ := parse_ok_iff.1 h
  intro e he
  rw [params_portal] at he
  exact (hr.isValueOf e (Table.mem_of_mem_ofList he)).mono (glyphs_trim f)

theorem forall_value_of_parse {P : Fragment → Prop}
    (hP : ∀ {f value rest}, Params.ReadsValue f value rest → P value) (h : parse f = .ok p) :
    ∀ e ∈ p.params.entries, P e.2 := by
  obtain ⟨head, entries, hr, rfl⟩ := parse_ok_iff.1 h
  have hparams {f rest : Fragment} {entries : List (String × Fragment)}
      (hp : ReadsParams f entries rest) : ∀ e ∈ entries, P e.2 := by
    cases hp with
    | none ho => simp
    | list ho hl => exact hl.forall_value hP
  intro e he
  rw [params_portal] at he
  have he := Table.mem_of_mem_ofList he
  cases hr with
  | data ho hc hi hp hr => exact hparams hp e he
  | action ho hw hh hp hr => exact hparams hp e he

end Portal

namespace Value
variable {f value raw : Fragment}

theorem of_classify_portal (h : classify value = .ok (.portal raw)) :
    raw = value.trim ∧ raw.startsWith Marker.opening.spelling := by
  unfold classify at h
  dsimp only at h
  split at h
  · cases h
  split at h
  · rename_i hs
    cases h
    exact ⟨rfl, hs⟩
  split at h
  · cases hl : Link.parse value.trim.text <;> rw [hl] at h <;> cases h
  split at h <;> cases h

theorem infix_of_classify_portal (hv : f.IsValueOf value) (h : classify value = .ok (.portal raw)) :
    raw.glyphs <:+: f.glyphs := by
  obtain ⟨rfl, hs⟩ := of_classify_portal h
  rcases hv with hv | ⟨inner, -, rfl⟩
  · exact (glyphs_trim value).trans hv
  · -- a quoted value starts with its quote, which no marker does
    have hq := head?_trim (f := inner.quote) rfl (by decide)
    cases hg : inner.quote.trim.glyphs with
    | nil => rw [hg] at hq; cases hq
    | cons g gs =>
      rw [hg] at hq
      cases hq
      rw [startsWith, hg] at hs
      simp [Marker.spelling, startsWritten, Glyph.isWritten] at hs

end Value

end PortalScript
