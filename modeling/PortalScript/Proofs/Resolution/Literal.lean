import PortalScript.Proofs.Params.Whole
import PortalScript.Proofs.Resolution.Nested
import PortalScript.Proofs.Template.Flatten

/-! # The recursion into values ends at once

A template that comes about from a script by replacing tokens and innermost portals keeps resolved text,
be it empty, between any two source pieces (`Reachable.separated`). So the body of its innermost portal
has no marker in any stretch of source text, also where an emptied portal has brought the halves of one
together, and a value of that portal which looks like a portal is given back as it stands, whatever
would be done with a portal inside it (`nested_values_literal`). -/

namespace PortalScript

namespace Template

/-- The templates that come about from scripts by replacing tokens and innermost portals. -/
inductive Reachable : Template → Prop
  | script (text : String) : Reachable (.ofScript text)
  | substitute {t : Template} (h : Reachable t) (token replacement : String) :
      Reachable (t.substitute token replacement).1
  | splice {t : Template} {span : Span} (h : Reachable t) (hs : t.innermost = some span)
      (text : String) : Reachable (span.splice text)

variable {t : Template} {span : Span}

theorem Reachable.separated (h : Reachable t) : Separated t := by
  induction h with
  | script text => exact separated_ofScript text
  | substitute h token replacement ih => exact ih.substitute token replacement
  | splice h hs text ih => exact ih.splice hs text

theorem Reachable.not_marker (h : Reachable t) (hs : t.innermost = some span) {w : List Glyph}
    (hw : Joined w) (hi : w <:+: span.fragment.glyphs) (m : Marker) :
    ¬ m.spelling <:+: w.map Glyph.char := by
  by_cases hne : w = []
  · subst hne
    cases m <;> decide
  · obtain ⟨text, hm, hw⟩ := source_of_joined (h.separated.innermost hs).2.1 hw hne hi
    have hbody := (innermost_of_innermost_eq_some hs).body
    intro hmark
    exact Marker.cut?_eq_none_iff.1 (nextMarker_eq_none_iff.1 hbody text hm) m (hmark.trans hw)

end Template

theorem Params.ReadsValue.text_trim {f value rest : Fragment} (h : ReadsValue f value rest) :
    value.trim.text = value.text := by
  cases h with
  | quoted ho hc he => rw [Fragment.trim_quote]
  | bare ho hv => rw [Fragment.text, Fragment.chars_trim, Fragment.chars_trim, Text.trim_trim,
      ← Fragment.chars_trim, Fragment.text]

namespace Run

/-- The source text of an innermost body has no marker. So a nested template, which is a value that
looks like a portal, has no portal, and resolving that value gives its text and does nothing else. What
`nested` does with templates that have a portal is never asked for, so that resolving values inside the
portals of values goes no deeper. -/
theorem nested_values_literal {t : Template} (ht : t.Reachable) {span : Span}
    (hs : t.innermost = some span) :
    (∀ w, Joined w → w <:+: span.fragment.glyphs →
      ∀ m : Marker, ¬ m.spelling <:+: w.map Glyph.char) ∧
    (∀ p, Portal.parse span.fragment = .ok p → ∀ e ∈ p.params.entries, ∀ raw,
      Value.classify e.2 = .ok (.portal raw) →
        (Template.ofFragment raw).innermost = none ∧
        ∀ c, resolveValue (resolve c) e.2 = return .ok e.2.text) ∧
    ∀ c nested, (∀ t : Template, t.innermost = none → nested t = literal t) →
      runPortal c nested span = runPortal c (resolve c) span := by
  have hbody := (ht.separated.innermost hs).2.1
  have hmark := (Template.innermost_of_innermost_eq_some hs).body
  refine ⟨fun w => ht.not_marker hs, fun p hp e he raw hraw => ?_, fun c nested hn => ?_⟩
  · have hnone : (Template.ofFragment raw).innermost = none := by
      have hi := Value.infix_of_classify_portal (Portal.isValueOf_of_parse hp e he) hraw
      exact Template.innermost_eq_none (Template.nextMarker_ofFragment_of_infix hbody hmark hi)
    refine ⟨hnone, fun c => ?_⟩
    have htext := Portal.forall_value_of_parse Params.ReadsValue.text_trim hp e he
    rw [← (Value.of_classify_portal hraw).1] at htext
    unfold resolveValue
    rw [hraw]
    dsimp only
    rw [resolve, resolveWith_of_innermost_eq_none c _ hnone, literal, Template.render_ofFragment, htext]
  · have hr (t : Template) (h : t.innermost = none) : resolve c t = literal t :=
      resolveWith_of_innermost_eq_none c t.sourceLength h
    rw [runPortal_eq_literal c hn hbody hmark, runPortal_eq_literal c hr hbody hmark]

/-- An emptied portal brings the halves of a marker together: the value looks like a portal then, and it
is text. -/
theorem nested_values_halves :
    let script := "~\x7b\x7b~'t'[v: ~\x7b~\x7b\x7b~'x'~\x7d\x7d~\x7b~ y]~\x7d\x7d~"
    let inner : Span := ⟨[.source "~\x7b\x7b~'t'[v: ~\x7b".toList], [.source "'x'".toList],
      [.source "\x7b~ y]~\x7d\x7d~".toList]⟩
    let body : Template := [.source "'t'[v: ~\x7b".toList, .resolved [], .source "\x7b~ y]".toList]
    let value : Fragment := ⟨"~\x7b\x7b~ y".toList.mapIdx fun i c => ⟨c, false, i = 2⟩, false⟩
    (Template.ofScript script).innermost = some inner ∧
    (inner.splice "").innermost = some ⟨[.source []], body, [.source []]⟩ ∧
    Portal.parse (Template.fragment body) = .ok (.data ⟨"t", ⟨[("v", value)]⟩⟩) ∧
    Value.classify value = .ok (.portal value) ∧
    resolveValue (resolve ⟨{}, fun _ => none, ∅⟩) value = return .ok "~\x7b\x7b~ y" := by
  intro script inner body value
  have hi : (Template.ofScript script).innermost = some inner := by decide +kernel
  have ho : (inner.splice "").innermost = some ⟨[.source []], body, [.source []]⟩ := by
    decide +kernel
  have hp : Portal.parse (Template.fragment body) = .ok (.data ⟨"t", ⟨[("v", value)]⟩⟩) := by
    decide +kernel
  have hv : Value.classify value = .ok (.portal value) := by decide +kernel
  obtain ⟨-, hvalues, -⟩ := nested_values_literal (.splice (.script script) hi "") ho
  exact ⟨hi, ho, hp, hv, (hvalues _ hp _ List.mem_cons_self value hv).2 _⟩

end Run

end PortalScript
