import PortalScript.Proofs.Mount.Stripping
import PortalScript.Proofs.Resolution.Frame

/-! # Texts without portals

A call on a script in which no portal is complete gives the script without its directives. Calling
again on what it gave mounts what stripping it again finds: nothing, unless trimming has moved an
indented directive to the start of the text (`strip_twice`). -/

namespace PortalScript

/-- The directive whose conversation is being fetched. -/
def Event.startedMount? : Event → Option Mount
  | mountStarted conduit source => some ⟨conduit, source⟩
  | _ => none

/-- The directives that a call reports to have started. -/
def Outcome.startedMounts {α : Type} (o : Outcome α) : List Mount :=
  o.events.filterMap (·.event.startedMount?)

theorem Event.startedMount?_eq_none {e : Event} (h : e.ofPortal) : e.startedMount? = none := by
  cases e <;> simp_all [ofPortal, ofLink, ofAction, startedMount?]

theorem Run.startedMounts_prepareEvents (settings : Settings) (f : Fixture) (script : String) :
    (prepareEvents settings f script).filterMap Event.startedMount? = (Mount.extract script).1 := by
  have hreport (m : Mount) : (m.report settings f).startedMount? = none := by
    unfold Mount.report
    cases settings.fetch f m.source <;> rfl
  have hscrape : f.scrapeReport.startedMount? = none := by
    unfold Fixture.scrapeReport
    cases f.scrapeError <;> rfl
  have hstarted (m : Mount) : (Event.mountStarted m.conduit m.source).startedMount? = some m := rfl
  simp [prepareEvents, List.filterMap_map, hreport, hscrape, hstarted]

theorem Template.render_ofScript (script : String) : (ofScript script).render = script := by
  simp [ofScript, render, Piece.chars]

section
variable {settings : Settings} {templates : String → Option String} {session : Session}
  {fixture : Fixture} {script : String}

theorem startedMounts_parse : (parse settings templates session fixture script).startedMounts =
    (Mount.extract script).1 := by
  obtain ⟨visits, out, h, ho⟩ := parse_rounds settings templates session fixture script
  obtain ⟨es, he, hes⟩ := h.exists_events (Template.separated_ofScript _)
  have hnone : es.filterMap Event.startedMount? = [] :=
    List.filterMap_eq_nil_iff.2 fun e hm => Event.startedMount?_eq_none (hes e hm)
  have hlast : (Run.finishReport id (fun _ => 0) (Run.primaryResult out)).startedMount? = none := by
    cases Run.primaryResult out <;> rfl
  have hfirst : (Event.parseStarted script.length).startedMount? = none := rfl
  rw [ho, Outcome.startedMounts, Run.primaryOutcome, List.filterMap_map]
  show (out.2.events ++ [_]).filterMap Event.startedMount? = _
  rw [List.filterMap_append, he, List.filterMap_append, hnone, Run.primaryStart_eq,
    List.filterMap_append, List.filterMap_cons, Run.startedMounts_prepareEvents]
  simp [hlast, hfirst]

/-- Where no portal is complete, a call gives the script without its directives. -/
theorem parse_of_quiet (h : Template.Quiet (Template.ofScript (Mount.extract script).2).tokens) :
    (parse settings templates session fixture script).result = .ok (Mount.extract script).2 ∧
      (parse settings templates session fixture script).session =
        session.prepared settings fixture script := by
  have hn := Template.innermost_eq_none_of_quiet h
  rw [parse_eq, Run.resolve, Run.resolveWith_of_innermost_eq_none _ _ hn, Run.literal, Run.run_pure,
    Template.render_ofScript, Run.primaryStart_eq]
  exact ⟨rfl, rfl⟩

end

/-- Stripping a text again, or parsing what a text without portals came to, finds the directive that
trimming moved to the front, if there is one, and no other. So it leaves everything as it is just if the
first line of the text that is neither blank nor a directive is no indented directive, or if the text
has no directive at all. -/
theorem strip_twice (script : String) :
    let rest := (Mount.extract script).2
    (Mount.extract rest).1 = (Mount.uncovered? script).toList ∧
    (Mount.extract rest = ([], rest) ↔ Mount.uncovered? script = none) ∧
    ((Mount.extract script).1 = [] → rest = script) ∧
    (Template.Quiet (Template.ofScript rest).tokens → ∀ settings templates session fixture,
      (parse settings templates session fixture script).result = .ok rest ∧
      let again := parse settings templates session fixture rest
      again.startedMounts = (Mount.uncovered? script).toList ∧
      (again.result = .ok rest ∧ again.startedMounts = [] ∧
        again.session.conduits = session.conduits ↔ Mount.uncovered? script = none)) := by
  obtain ⟨hfst, hself⟩ := Mount.extract_extract script
  refine ⟨hfst, hself, fun h => ?_, fun h settings templates session fixture => ?_⟩
  · rw [Mount.extract_eq_self_iff.2 (Mount.extract_fst script ▸ h)]
  · refine ⟨(parse_of_quiet h).1, by rw [startedMounts_parse, hfst], ?_, fun hu => ?_⟩
    · rintro ⟨-, hm, -⟩
      rw [startedMounts_parse, hfst] at hm
      exact Option.toList_eq_nil_iff.1 hm
    · have hrest := hself.2 hu
      have hagain := @parse_of_quiet settings templates session fixture (Mount.extract script).2
        (by rwa [hrest])
      rw [hrest] at hagain
      refine ⟨hagain.1, by rw [startedMounts_parse, hrest], ?_⟩
      rw [hagain.2, Session.conduits_prepared, hrest]
      rfl

/-- An indented directive behind one that is not is text, but what is left then is a directive, and
parsing it again mounts it and leaves nothing. -/
theorem strip_twice_indented :
    let script := "#> mount['a'] from 'b'\n #> mount['c'] from 'd'"
    let rest := "#> mount['c'] from 'd'"
    let again := parse {} (fun _ => none) {} {} rest
    Mount.extract script = ([⟨"a", "b"⟩], rest) ∧
      Template.Quiet (Template.ofScript rest).tokens ∧
      Mount.extract rest ≠ ([], rest) ∧
      again.result = .ok "" ∧ again.startedMounts = [⟨"c", "d"⟩] := by
  refine ⟨by decide +kernel, ?_, by decide +kernel, by decide +kernel, by decide +kernel⟩
  unfold Template.Quiet
  decide +kernel

end PortalScript
