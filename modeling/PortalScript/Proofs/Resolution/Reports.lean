import PortalScript.Proofs.Resolution.Passes

/-! # The order of the reports

The reports of a call are those of mounting and scraping, then a block for each portal, and one that says
how the call ended. A block is opened by the start of its portal and closed by its end, and between them
there are just the action that was started and the links that were followed, so blocks never nest
(`Event.Block`). What a portal reports is a function of the state in which it starts and of what it
comes to (`Run.portalEvents`), and the loop strings these together (`Rounds.events_eq`). -/

namespace PortalScript

namespace Event

/-- How a directive came out. -/
inductive EndsMount (m : Mount) : Event → Prop
  | succeeded (turns : Nat) : EndsMount m (.mountSucceeded m.conduit m.source turns)
  | failed (error : String) : EndsMount m (.mountFailed m.conduit m.source error)

inductive EndsScrape : Event → Prop
  | completed (turns : Nat) : EndsScrape (.scrapeCompleted turns)
  | failed (error : String) : EndsScrape (.scrapeFailed error)

inductive EndsAction (target action : String) : Event → Prop
  | succeeded : EndsAction target action (.actionSucceeded target action)
  | failed (error : String) : EndsAction target action (.actionFailed target action error)

inductive EndsPortal (portal : String) : Event → Prop
  | succeeded (chars : Nat) : EndsPortal portal (.portalSucceeded portal chars)
  | failed (error : String) : EndsPortal portal (.portalFailed portal error)

inductive EndsParse : Event → Prop
  | completed (chars warnings : Nat) : EndsParse (.parseCompleted chars warnings)
  | failed (error : String) : EndsParse (.parseFailed error)

/-- Links that are followed one after the other: the end of each is reported right behind its start. -/
inductive Links : List Event → Prop
  | nil : Links []
  | read {rest : List Event} (token : String) (chars : Nat) (h : Links rest) :
      Links (.linkStarted token :: .linkSucceeded token chars :: rest)
  | unread {rest : List Event} (token error : String) (h : Links rest) :
      Links (.linkStarted token :: .linkFailed token error :: rest)

/-- The reports of a portal, with those of its links and of the action that it started, if any. -/
inductive Block (portal : String) : List Event → Prop
  | data {followed : List Event} {last : Event} (hf : Links followed) (hp : EndsPortal portal last) :
      Block portal (.portalStarted portal :: (followed ++ [last]))
  | action {target action : String} {followed : List Event} {outcome last : Event}
      (hf : Links followed) (ha : EndsAction target action outcome) (hp : EndsPortal portal last) :
      Block portal (.portalStarted portal :: .actionStarted target action ::
        (followed ++ [outcome, last]))

theorem Links.append {es es' : List Event} (h : Links es) (h' : Links es') : Links (es ++ es') := by
  induction h with
  | nil => exact h'
  | read token chars _ ih => exact .read token chars ih
  | unread token error _ ih => exact .unread token error ih

end Event

theorem Session.links_linkEvents (s : Session) (links : List (Link × String)) :
    Event.Links (links.flatMap s.linkEvents) := by
  induction links with
  | nil => exact .nil
  | cons link links ih =>
    rw [List.flatMap_cons]
    refine Event.Links.append ?_ ih
    unfold linkEvents
    cases s.lookup link.1 with
    | ok text => exact .read link.2 text.length .nil
    | error reason => exact .unread link.2 reason.message .nil

theorem Mount.endsMount_report (settings : Settings) (f : Fixture) (m : Mount) :
    Event.EndsMount m (m.report settings f) := by
  unfold report
  cases settings.fetch f m.source with
  | ok history => exact .succeeded history.length
  | error e => exact .failed e.message

theorem Fixture.endsScrape_scrapeReport (f : Fixture) : Event.EndsScrape f.scrapeReport := by
  unfold scrapeReport
  cases f.scrapeError with
  | none => exact .completed f.history.length
  | some reason => exact .failed reason

namespace Run
variable {c : Context} {s s' : State} {body : Fragment} {r : Except Halt String}

/-- The reports of a portal. -/
def portalEvents (c : Context) (v : State × Span) : List Event :=
  .portalStarted v.2.label :: (innerEvents c v.1.session v.2.fragment (executed c v).1 ++
    [portalReport v.2 (executed c v).1])

theorem events_runPortal_eq (c : Context) (span : Span) (s : State) :
    ((runPortal c literal span).run s).2.events = s.events ++ portalEvents c (s, span) := by
  rw [run_runPortal_eq]
  dsimp only
  rw [(step_executed c (s, span)).events_eq, portalEvents]
  simp

theorem endsPortal_portalReport (span : Span) (r : Except Halt String) :
    Event.EndsPortal span.label (portalReport span r) := by
  rcases r with e | text
  · exact .failed e.message
  · exact .succeeded text.length

theorem endsAction_actionReport (p : ActionPortal) (r : Except Halt String) :
    Event.EndsAction p.targetLabel p.action.name (actionReport p r) := by
  rcases r with e | text
  · exact .failed e.message
  · exact .succeeded

theorem block_portalEvents (c : Context) (v : State × Span) :
    Event.Block v.2.label (portalEvents c v) := by
  have hf := v.1.session.links_linkEvents (links c v.1.session v.2.fragment)
  have hp := endsPortal_portalReport v.2 (executed c v).1
  unfold portalEvents innerEvents
  dsimp only
  split
  · rename_i p _
    rw [List.cons_append, List.append_assoc]
    exact .action hf (endsAction_actionReport p _) hp
  · exact .data hf hp

theorem getLast?_portalEvents (c : Context) (v : State × Span) :
    (portalEvents c v).getLast? = some (portalReport v.2 (executed c v).1) := by
  simp [portalEvents, List.getLast?_cons]

section
variable {t : Template} {visits : List (State × Span)} {out : Except Halt String × State}

theorem Rounds.events_eq (h : Rounds c t s visits out) (hs : Template.Separated t) :
    out.2.events = s.events ++ visits.flatMap (portalEvents c) :=
  h.sum hs (q := fun _ => True) (fun _ => trivial) (fun s span _ => events_runPortal_eq c span s) trivial

/-- A portal that fails hard is the last that is executed, and its failure ends the loop. -/
theorem Rounds.eq_nil_of_hard {before after : List (State × Span)} {v : State × Span} {e : HardFailure}
    (h : Rounds c t s visits out) (hs : Template.Separated t) (hv : visits = before ++ v :: after)
    (he : (executed c v).1 = .error (.hard e)) : after = [] ∧ out.1 = .error (.hard e) := by
  have hrun {t : Template} (hs : Template.Separated t) {s : State} {span : Span}
      (hn : t.innermost = some span) (he : (executed c (s, span)).1 = .error (.hard e)) :
      ((runPortal c (resolve c) span).run s).1 = .error (.hard e) := by
    rw [runPortal_resolve hs hn, run_runPortal_eq, he]
    rfl
  induction h generalizing before with
  | done hn => simp at hv
  | @halt t s s' span e' hn hr =>
    cases before with
    | cons w before => simp at hv
    | nil =>
      cases hv
      have := hrun hs hn he
      rw [hr] at this
      exact ⟨rfl, this⟩
  | @round t s s' span text visits out hn hr hl ih =>
    cases before with
    | cons w before =>
      cases hv
      exact ih (hs.splice hn text) rfl
    | nil =>
      cases hv
      have := hrun hs hn he
      rw [hr] at this
      cases this

end

end Run

section
variable {α : Type}

/-- The reports of a call in their order, each of them in the name of the pass: the start of the call; the
start of every directive, and how each came out; the scrape; what was applied; a block for each of the
portals that were executed; and how the call ended. A portal that fails hard comes last, and the call
ends with its failure. -/
def Outcome.Reports (o : Outcome α) (pass : Pass) (mounts : List Mount) (applied : List Event)
    (c : Context) (visits : List (State × Span)) : Prop :=
  ∃ chars mounted scraped blocks last,
    o.events = (.parseStarted chars :: ((mounts.map fun m => .mountStarted m.conduit m.source) ++
      mounted ++ scraped :: (applied ++ blocks.flatten ++ [last]))).map (⟨pass, ·⟩) ∧
    List.Forall₂ Event.EndsMount mounts mounted ∧ Event.EndsScrape scraped ∧
    List.Forall₂ (fun v block => Event.Block v.2.label block ∧
      block.getLast? = some (Run.portalReport v.2 (Run.executed c v).1)) visits blocks ∧
    (∀ before v after e, visits = before ++ v :: after →
      (Run.executed c v).1 = .error (.hard e) → after = [] ∧ last = .parseFailed e.message) ∧
    Event.EndsParse last ∧ ((∃ a, o.result = .ok a) ↔ ∃ n w, last = .parseCompleted n w)

theorem Outcome.reports {c : Context} {t : Template} {s : State} {visits : List (State × Span)}
    {out : Except Halt String × State} {o : Outcome α} {pass : Pass} {chars : Nat}
    {settings : Settings} {fixture : Fixture} {script : String} {applied : List Event}
    {text : α → String} {warnings : α → Nat} (h : Run.Rounds c t s visits out)
    (hs : Template.Separated t) (hstart : s.events = .parseStarted chars ::
      (Run.prepareEvents settings fixture script ++ applied))
    (he : o.events = (out.2.events ++ [Run.finishReport text warnings o.result]).map (⟨pass, ·⟩))
    (hhard : ∀ e, out.1 = .error (.hard e) → o.result = .error (.hard e)) :
    o.Reports pass (Mount.extract script).1 applied c visits := by
  refine ⟨chars, (Mount.extract script).1.map (Mount.report settings fixture), fixture.scrapeReport,
    visits.map (Run.portalEvents c), Run.finishReport text warnings o.result, ?_, ?_,
    fixture.endsScrape_scrapeReport, ?_, ?_, ?_, ?_⟩
  · rw [he, h.events_eq hs, hstart, List.flatMap_def]
    simp [Run.prepareEvents]
  · exact List.forall₂_map_right_iff.2 (List.forall₂_same.2 fun m _ => m.endsMount_report settings fixture)
  · exact List.forall₂_map_right_iff.2 (List.forall₂_same.2 fun v _ =>
      ⟨Run.block_portalEvents c v, Run.getLast?_portalEvents c v⟩)
  · intro before v after e hv hv'
    obtain ⟨hnil, hout⟩ := h.eq_nil_of_hard hs hv hv'
    rw [hhard e hout]
    exact ⟨hnil, rfl⟩
  · cases o.result with
    | ok a => exact .completed _ _
    | error e => exact .failed _
  · cases o.result with
    | ok a => exact ⟨fun _ => ⟨_, _, rfl⟩, fun _ => ⟨a, rfl⟩⟩
    | error e =>
      refine ⟨?_, ?_⟩
      · rintro ⟨a, ⟨⟩⟩
      · rintro ⟨n, w, ⟨⟩⟩

/-- The reports of every call are well-ordered, in both passes; the retry says in addition how many
tokens it replaced, between the scrape and the first portal. -/
theorem reports_ordered (settings : Settings) (templates : String → Option String) (session : Session)
    (fixture : Fixture) (script : String) (overrides : Table String) :
    (∃ visits out, Run.Rounds ⟨settings, templates, ∅⟩ (.ofScript (Mount.extract script).2)
        (Run.primaryStart settings script { session, fixture }) visits out ∧
      (parse settings templates session fixture script).Reports .primary (Mount.extract script).1 []
        ⟨settings, templates, ∅⟩ visits) ∧
    ∃ visits out, Run.Rounds ⟨settings, templates, Override.standIns overrides⟩
        (Run.overridden overrides script).1
        (Run.retryStart settings overrides script { session, fixture }) visits out ∧
      (parseWithOverrides settings templates session fixture script overrides).Reports .retry
        (Mount.extract script).1 [.overridesApplied (Run.overridden overrides script).2]
        ⟨settings, templates, Override.standIns overrides⟩ visits := by
  have hprimary : (Run.primaryStart settings script { session, fixture }).events =
      .parseStarted script.length :: (Run.prepareEvents settings fixture script ++ []) := by
    simp [Run.primaryStart_eq]
  have hretry : (Run.retryStart settings overrides script { session, fixture }).events =
      .parseStarted script.length :: (Run.prepareEvents settings fixture script ++
        [.overridesApplied (Run.overridden overrides script).2]) := by
    simp [Run.retryStart_eq, Run.primaryStart_eq]
  refine ⟨?_, ?_⟩
  · obtain ⟨visits, out, h, ho⟩ := parse_rounds settings templates session fixture script
    refine ⟨visits, out, h, ?_⟩
    rw [ho]
    exact Outcome.reports h (Template.separated_ofScript _) hprimary rfl fun e =>
      Run.primaryResult_eq_hard_iff.2
  · obtain ⟨visits, out, h, ho⟩ :=
      parseWithOverrides_rounds settings templates session fixture script overrides
    refine ⟨visits, out, h, ?_⟩
    rw [ho]
    exact Outcome.reports h (separated_overridden overrides script) hretry rfl fun e =>
      Run.retryResult_eq_hard_iff.2

end

end PortalScript
