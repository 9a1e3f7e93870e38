import PortalScript.Proofs.Resolution.Prepare
import PortalScript.Proofs.Resolution.Step
import PortalScript.Resolution.Pass

/-! # The course of a pass

Each pass prepares the script, resolves a template from the state that this leaves (`primaryStart`,
`retryStart`), and reports its result last. `parse_eq` and `parseWithOverrides_eq` say what the calls
give in terms of what the resolution gives. -/

namespace PortalScript

namespace Run

/-- The template that a retry resolves, and how many tokens were replaced in it. -/
def overridden (overrides : Table String) (script : String) : Template × Nat :=
  Override.apply overrides (.ofScript (Mount.extract script).2)

/-- The state in which the primary pass starts to resolve the script. -/
def primaryStart (settings : Settings) (script : String) (s : State) : State :=
  ((prepare settings script).run ((emit (.parseStarted script.length)).run s).2).2

/-- The state in which the retry starts to resolve the script. -/
def retryStart (settings : Settings) (overrides : Table String) (script : String) (s : State) : State :=
  ((emit (.overridesApplied (overridden overrides script).2)).run (primaryStart settings script s)).2

/-- How the result of a pass is reported. -/
def finishReport {α : Type} (text : α → String) (warnings : α → Nat) : Except CallError α → Event
  | .ok a => .parseCompleted (text a).length (warnings a)
  | .error e => .parseFailed e.message

/-- The result of the primary pass, from what the resolution gives. -/
def primaryResult (out : Except Halt String × State) : Except CallError String :=
  match out.1 with
  | .error e => .error (callError e)
  | .ok text => if out.2.failures.isEmpty then .ok text else .error (.unresolved out.2.failures)

/-- The result of the retry, from what the resolution gives. -/
def retryResult (out : Except Halt String × State) : Except CallError Resolution :=
  match out.1 with
  | .error e => .error (callError e)
  | .ok text => .ok ⟨text, out.2.failures⟩

theorem map_event (pass : Pass) (es : List Event) :
    (es.map fun e => (⟨pass, e⟩ : Event.Record)).map (·.event) = es := by
  rw [List.map_map]
  exact List.map_id es

theorem primaryResult_eq_hard_iff {out : Except Halt String × State} {e : HardFailure} :
    primaryResult out = .error (.hard e) ↔ out.1 = .error (.hard e) := by
  unfold primaryResult
  rcases out.1 with (f | e') | text
  · simp [callError]
  · simp [callError]
  · dsimp only
    split <;> simp

theorem retryResult_eq_hard_iff {out : Except Halt String × State} {e : HardFailure} :
    retryResult out = .error (.hard e) ↔ out.1 = .error (.hard e) := by
  unfold retryResult
  rcases out.1 with (f | e') | text <;> simp [callError]

theorem primaryResult_eq_ok_iff {out : Except Halt String × State} {text : String} :
    primaryResult out = .ok text ↔ out.1 = .ok text ∧ out.2.failures = [] := by
  unfold primaryResult
  rcases out.1 with e | text'
  · simp
  · dsimp only
    split <;> rename_i hf
    · simpa using fun _ => List.isEmpty_iff.1 hf
    · simpa using fun _ => hf ∘ List.isEmpty_iff.2

theorem primaryResult_eq_unresolved_iff {out : Except Halt String × State}
    {failures : List SoftFailure} (hsoft : ∀ f, out.1 ≠ .error (.soft f)) :
    primaryResult out = .error (.unresolved failures) ↔
      failures ≠ [] ∧ (∃ text, out.1 = .ok text) ∧ out.2.failures = failures := by
  unfold primaryResult
  cases hr : out.1 with
  | error e =>
    cases e with
    | soft f => exact absurd hr (hsoft f)
    | hard e => simp [callError]
  | ok text =>
    dsimp only
    by_cases he : out.2.failures = []
    · rw [he, List.isEmpty_nil, if_pos rfl]
      refine iff_of_false (by simp) ?_
      rintro ⟨hne, -, hf⟩
      exact hne hf.symm
    · rw [if_neg (mt List.isEmpty_iff.1 he)]
      simp only [Except.error.injEq, CallError.unresolved.injEq, Except.ok.injEq, exists_eq', true_and]
      exact ⟨fun hf => ⟨hf ▸ he, hf⟩, And.right⟩

theorem retryResult_eq_ok_iff {out : Except Halt String × State} {r : Resolution} :
    retryResult out = .ok r ↔ out.1 = .ok r.text ∧ out.2.failures = r.warnings := by
  unfold retryResult
  rcases out.1 with e | text
  · simp
  · obtain ⟨text', warnings⟩ := r
    simp

theorem run_emit (e : Event) (s : State) :
    (emit e).run s = ((), { s with events := s.events ++ [e] }) := rfl

theorem primaryStart_eq (settings : Settings) (script : String) (s : State) :
    primaryStart settings script s = { s with
      session := s.session.prepared settings s.fixture script
      fixture := { s.fixture with scrapes := s.fixture.scrapes + 1 }
      events := s.events ++ .parseStarted script.length :: prepareEvents settings s.fixture script
      elapsed := s.elapsed + fetchTime settings s.fixture (Mount.extract script).1 } := by
  rw [primaryStart, run_prepare, run_emit]
  simp

theorem retryStart_eq (settings : Settings) (overrides : Table String) (script : String) (s : State) :
    retryStart settings overrides script s = { primaryStart settings script s with
      events := (primaryStart settings script s).events ++
        [.overridesApplied (overridden overrides script).2] } := by
  rw [retryStart, run_emit]

theorem not_ofPortal_of_mem_prepareEvents {settings : Settings} {f : Fixture} {script : String}
    {e : Event} (h : e ∈ prepareEvents settings f script) : ¬ e.ofPortal := by
  simp only [prepareEvents, List.mem_append, List.mem_map, List.mem_singleton] at h
  rcases h with (⟨m, -, rfl⟩ | ⟨m, -, rfl⟩) | rfl
  · exact Bool.false_ne_true
  · unfold Mount.report
    cases settings.fetch f m.source <;> exact Bool.false_ne_true
  · unfold Fixture.scrapeReport
    cases f.scrapeError <;> exact Bool.false_ne_true

theorem not_ofPortal_of_mem_primaryStart {settings : Settings} {script : String} {session : Session}
    {fixture : Fixture} {e : Event}
    (h : e ∈ (primaryStart settings script { session, fixture }).events) : ¬ e.ofPortal := by
  rw [primaryStart_eq] at h
  rcases List.mem_cons.1 h with rfl | h
  · exact Bool.false_ne_true
  · exact not_ofPortal_of_mem_prepareEvents h

theorem not_ofPortal_of_mem_retryStart {settings : Settings} {overrides : Table String}
    {script : String} {session : Session} {fixture : Fixture} {e : Event}
    (h : e ∈ (retryStart settings overrides script { session, fixture }).events) :
    ¬ e.ofPortal := by
  rcases List.mem_append.1 h with h | h
  · exact not_ofPortal_of_mem_primaryStart h
  · cases List.mem_singleton.1 h
    exact Bool.false_ne_true

theorem scrapeEvents_primaryStart (settings : Settings) (script : String) (session : Session)
    (fixture : Fixture) :
    (primaryStart settings script { session, fixture }).events.filter (·.ofScrape) =
      [fixture.scrapeReport] := by
  have hstarted (mounts : List Mount) : (mounts.map fun m =>
      Event.mountStarted m.conduit m.source).filter (·.ofScrape) = [] := by
    simp [List.filter_eq_nil_iff, Event.ofScrape]
  have hreport (m : Mount) : ¬ (m.report settings fixture).ofScrape := by
    unfold Mount.report
    cases settings.fetch fixture m.source <;> exact Bool.false_ne_true
  have hreports (mounts : List Mount) :
      (mounts.map (Mount.report settings fixture)).filter (·.ofScrape) = [] := by
    simp [List.filter_eq_nil_iff, hreport]
  have hscrape : fixture.scrapeReport.ofScrape := by
    unfold Fixture.scrapeReport
    cases fixture.scrapeError <;> rfl
  rw [primaryStart_eq]
  show (Event.parseStarted script.length :: prepareEvents settings fixture script).filter _ = _
  rw [prepareEvents, List.filter_cons_of_neg Bool.false_ne_true, List.filter_append,
    List.filter_append, hstarted, hreports]
  exact List.filter_cons_of_pos hscrape

theorem finishReport_quiet {α : Type} (text : α → String) (warnings : α → Nat)
    (result : Except CallError α) : ¬ (finishReport text warnings result).ofPortal ∧
      ¬ (finishReport text warnings result).ofScrape := by
  cases result <;> exact ⟨Bool.false_ne_true, Bool.false_ne_true⟩

theorem run_finish {α : Type} (result : Except CallError α) (text : α → String) (warnings : α → Nat)
    (s : State) : (finish result text warnings).run s =
      (result, ((emit (finishReport text warnings result)).run s).2) := by
  cases result <;> rfl

theorem run_start (settings : Settings) (script : String) (s : State) :
    (prepare settings script).run ((emit (.parseStarted script.length)).run s).2 =
      ((Mount.extract script).2, primaryStart settings script s) := by
  rw [primaryStart, run_prepare]

theorem run_primary (c : Context) (script : String) (s : State) :
    (primary c script).run s =
      let out := (resolve c (.ofScript (Mount.extract script).2)).run (primaryStart c.settings script s)
      (primaryResult out,
        ((emit (finishReport id (fun _ => 0) (primaryResult out))).run out.2).2) := by
  rw [primary, run_emit_bind, run_bind (run_start c.settings script s)]
  rcases hr : (resolve c (.ofScript (Mount.extract script).2)).run (primaryStart c.settings script s)
    with ⟨r, s'⟩
  have hg : (get : Run State).run s' = (s', s') := rfl
  rw [run_bind hr, run_bind hg]
  exact run_finish (primaryResult (r, s')) id (fun _ => 0) s'

theorem run_retry (c : Context) (overrides : Table String) (script : String) (s : State) :
    (retry c overrides script).run s =
      let out := (resolve { c with standIns := Override.standIns overrides }
        (overridden overrides script).1).run (retryStart c.settings overrides script s)
      (retryResult out, ((emit (finishReport (·.text) (·.warnings.length) (retryResult out))).run
        out.2).2) := by
  rw [retry, run_emit_bind, run_bind (run_start c.settings script s)]
  rcases hr : (resolve { c with standIns := Override.standIns overrides }
    (overridden overrides script).1).run (retryStart c.settings overrides script s) with ⟨r, s'⟩
  have hg : (get : Run State).run s' = (s', s') := rfl
  unfold overridden retryStart overridden at hr
  dsimp only
  rw [run_emit_bind, run_bind hr, run_bind hg]
  exact run_finish (retryResult (r, s')) (·.text) (·.warnings.length) s'

theorem failures_primaryStart (settings : Settings) (script : String) (s : State) :
    (primaryStart settings script s).failures = s.failures := by rw [primaryStart_eq]

theorem failures_retryStart (settings : Settings) (overrides : Table String) (script : String)
    (s : State) : (retryStart settings overrides script s).failures = s.failures :=
  failures_primaryStart settings script s

end Run

/-- What the primary pass makes of what resolving the script gives. -/
def Run.primaryOutcome (out : Except Halt String × State) : Outcome String :=
  ⟨primaryResult out, out.2.session, out.2.fixture,
    (out.2.events ++ [finishReport id (fun _ => 0) (primaryResult out)]).map (⟨.primary, ·⟩),
    out.2.elapsed⟩

/-- What the retry makes of what resolving the overridden script gives. -/
def Run.retryOutcome (out : Except Halt String × State) : Outcome Resolution :=
  ⟨retryResult out, out.2.session, out.2.fixture,
    (out.2.events ++ [finishReport (·.text) (·.warnings.length) (retryResult out)]).map (⟨.retry, ·⟩),
    out.2.elapsed⟩

theorem parse_eq (settings : Settings) (templates : String → Option String) (session : Session)
    (fixture : Fixture) (script : String) :
    parse settings templates session fixture script = Run.primaryOutcome
      ((Run.resolve ⟨settings, templates, ∅⟩ (.ofScript (Mount.extract script).2)).run
        (Run.primaryStart settings script { session, fixture })) := by
  rw [parse, Run.outcome, Run.run_primary]
  generalize (Run.resolve _ _).run _ = out
  rfl

theorem parseWithOverrides_eq (settings : Settings) (templates : String → Option String)
    (session : Session) (fixture : Fixture) (script : String) (overrides : Table String) :
    parseWithOverrides settings templates session fixture script overrides = Run.retryOutcome
      ((Run.resolve ⟨settings, templates, Override.standIns overrides⟩
        (Run.overridden overrides script).1).run
          (Run.retryStart settings overrides script { session, fixture })) := by
  rw [parseWithOverrides, Run.outcome, Run.run_retry]
  generalize (Run.resolve _ _).run _ = out
  rfl

/-- A primary pass goes through the rounds of its script. -/
theorem parse_rounds (settings : Settings) (templates : String → Option String) (session : Session)
    (fixture : Fixture) (script : String) : ∃ visits out,
    Run.Rounds ⟨settings, templates, ∅⟩ (.ofScript (Mount.extract script).2)
      (Run.primaryStart settings script { session, fixture }) visits out ∧
    parse settings templates session fixture script = Run.primaryOutcome out := by
  have hs := Template.separated_ofScript (Mount.extract script).2
  obtain ⟨visits, h⟩ := Run.exists_rounds (c := ⟨settings, templates, ∅⟩) hs
    (Run.primaryStart settings script { session, fixture })
  exact ⟨visits, _, h, parse_eq settings templates session fixture script⟩

theorem separated_overridden (overrides : Table String) (script : String) :
    Template.Separated (Run.overridden overrides script).1 :=
  (Template.separated_ofScript _).applyAll _

theorem parseWithOverrides_rounds (settings : Settings) (templates : String → Option String)
    (session : Session) (fixture : Fixture) (script : String) (overrides : Table String) :
    ∃ visits out,
    Run.Rounds ⟨settings, templates, Override.standIns overrides⟩ (Run.overridden overrides script).1
      (Run.retryStart settings overrides script { session, fixture }) visits out ∧
    parseWithOverrides settings templates session fixture script overrides =
      Run.retryOutcome out := by
  obtain ⟨visits, h⟩ := Run.exists_rounds (c := ⟨settings, templates, Override.standIns overrides⟩)
    (separated_overridden overrides script) (Run.retryStart settings overrides script { session, fixture })
  exact ⟨visits, _, h, parseWithOverrides_eq settings templates session fixture script overrides⟩

end PortalScript
