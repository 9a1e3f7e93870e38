import PortalScript.Proofs.Resolution.Follow

/-! # What a portal does

`Step` lists the ways in which a portal is executed, each with what it answers and the state it leaves;
`step_executePortal` says that there is no other. `Rounds` is the replacement loop with the portals that
it executes, and what every portal keeps or adds is kept or added up by the loop (`Rounds.invariant`,
`Rounds.sum`). -/

namespace PortalScript

/-- The state in which an action that followed the links ends: the outcome is in the session and in a
report. -/
def State.afterAction (s : State) (p : ActionPortal) (links : List (Link × String)) (status : String)
    (report : Event) : State :=
  let started : State :=
    { s with events := s.events ++ [.actionStarted p.targetLabel p.action.name] }
  { started.follow links with
    session := s.session.setVar Session.lastActionStatus status
    events := (started.follow links).events ++ [report] }

namespace Run
variable {c : Context} {s s' : State} {body : Fragment}

/-- The links that an action follows. -/
def actionLinks (session : Session) (p : ActionPortal) : List (Link × String) :=
  if p.action.isKnown && p.conduit.isNone then session.links Except.isOk p.params.entries else []

/-- The links that a portal follows. -/
def links (c : Context) (session : Session) (body : Fragment) : List (Link × String) :=
  match Portal.parse body with
  | .error _ => []
  | .ok (.data p) =>
    match c.standIns.get? (templateToken p.id) with
    | some _ => []
    | none => session.links survives p.params.entries
  | .ok (.action p) => actionLinks session p

/-- The executions of a portal: what it answers and the state it leaves. -/
inductive Step (c : Context) (s : State) (body : Fragment) : Except Halt String → State → Prop
  | malformed {e : ParseError} (hp : Portal.parse body = .error e) :
      Step c s body (.error (.hard (.malformed e))) s
  | standIn {p : DataPortal} {text : String} (hp : Portal.parse body = .ok (.data p))
      (hs : c.standIns.get? (templateToken p.id) = some text) : Step c s body (.ok text) s
  | unresolved {p : DataPortal} {e : Halt} (hp : Portal.parse body = .ok (.data p))
      (hs : c.standIns.get? (templateToken p.id) = none)
      (hv : s.session.values p.params.entries = .error e) :
      Step c s body (.error e) (s.follow (links c s.session body))
  | expanded {p : DataPortal} {vs : List (String × String)} {template : String}
      (hp : Portal.parse body = .ok (.data p)) (hs : c.standIns.get? (templateToken p.id) = none)
      (hv : s.session.values p.params.entries = .ok vs) (ht : c.templates p.id = some template) :
      Step c s body (.ok (Placeholder.fill vs template)) (s.follow (links c s.session body))
  | nothing {p : DataPortal} {vs : List (String × String)} (hp : Portal.parse body = .ok (.data p))
      (hs : c.standIns.get? (templateToken p.id) = none)
      (hv : s.session.values p.params.entries = .ok vs) (ht : c.templates p.id = none)
      (hm : c.settings.missingTemplate = .nothing) :
      Step c s body (.ok "") (s.follow (links c s.session body))
  | missing {p : DataPortal} {vs : List (String × String)} (hp : Portal.parse body = .ok (.data p))
      (hs : c.standIns.get? (templateToken p.id) = none)
      (hv : s.session.values p.params.entries = .ok vs) (ht : c.templates p.id = none)
      (hm : c.settings.missingTemplate = .failure) :
      Step c s body (.error (.soft ⟨templateToken p.id, .missingTemplate p.id⟩))
        { s.follow (links c s.session body) with
          failures := (s.follow (links c s.session body)).failures ++
            [⟨templateToken p.id, .missingTemplate p.id⟩] }
  | refused {p : ActionPortal} {e : HardFailure} (hp : Portal.parse body = .ok (.action p))
      (ha : ((act c.settings (resolveValue literal) p).run { s with
        events := s.events ++ [.actionStarted p.targetLabel p.action.name] }).1 = .error e) :
      Step c s body (.error (.hard e)) (s.afterAction p (links c s.session body) Session.statusFailed
        (.actionFailed p.targetLabel p.action.name e.message))
  | performed {p : ActionPortal} {vs : List (String × String)} {r : Request} {handle : Handle}
      {f : Fixture} (hp : Portal.parse body = .ok (.action p)) (hk : p.action.isKnown)
      (hc : p.conduit = none) (hv : s.session.values p.params.entries = .ok vs)
      (hr : p.action.request vs = .ok r) (hh : s.fixture.find p.target = some handle)
      (hf : s.fixture.perform handle r = .ok f) :
      Step c s body (.ok "")
        { s.afterAction p (links c s.session body) Session.statusSuccess
            (.actionSucceeded p.targetLabel p.action.name) with
          fixture := f
          elapsed := s.elapsed + c.settings.settleTime }

theorem run_get (s : State) : (get : Run State).run s = (s, s) := rfl

theorem run_perform_eq (settings : Settings) (target : TurnRef) (r : Request) (s : State) :
    (perform settings target r).run s =
      match s.fixture.find target with
      | none => (.error "target not found", s)
      | some handle =>
        match s.fixture.perform handle r with
        | .error e => (.error e.message, s)
        | .ok f => (.ok (), { s with
            fixture := f
            elapsed := s.elapsed + settings.settleTime }) := by
  unfold perform
  rw [run_bind (run_get s)]
  cases s.fixture.find target with
  | none => rfl
  | some handle =>
    dsimp only
    cases s.fixture.perform handle r <;> rfl

theorem run_perform (settings : Settings) (target : TurnRef) (r : Request) (s : State) :
    (∃ e, (perform settings target r).run s = (.error e, s)) ∨
      ∃ handle f, s.fixture.find target = some handle ∧ s.fixture.perform handle r = .ok f ∧
        (perform settings target r).run s = (.ok (), { s with
          fixture := f
          elapsed := s.elapsed + settings.settleTime }) := by
  rw [run_perform_eq]
  cases hh : s.fixture.find target with
  | none => exact .inl ⟨_, rfl⟩
  | some handle =>
    dsimp only
    cases hf : s.fixture.perform handle r with
    | error e => exact .inl ⟨_, rfl⟩
    | ok f => exact .inr ⟨handle, f, rfl, hf, rfl⟩

/-- An action that fails has only followed links. -/
theorem run_act (settings : Settings) (p : ActionPortal) (s : State) :
    (∃ e, (act settings (resolveValue literal) p).run s =
        (.error e, s.follow (actionLinks s.session p))) ∨
      ∃ vs r handle f, p.action.isKnown ∧ p.conduit = none ∧
        s.session.values p.params.entries = .ok vs ∧ p.action.request vs = .ok r ∧
        s.fixture.find p.target = some handle ∧ s.fixture.perform handle r = .ok f ∧
        (act settings (resolveValue literal) p).run s =
          (.ok (), { s.follow (actionLinks s.session p) with
            fixture := f
            elapsed := s.elapsed + settings.settleTime }) := by
  unfold act actionLinks
  dsimp only
  split
  · rename_i name hn
    refine .inl ⟨.malformed ⟨.unknownAction name, "@" ++ p.targetLabel ++ ":" ++ name⟩, ?_⟩
    rw [hn, Action.isKnown, Bool.false_and, if_neg Bool.false_ne_true, State.follow_nil]
    rfl
  rename_i hn
  have hk : p.action.isKnown = true := by
    cases ha : p.action with
    | unknown name => exact absurd ha (hn name)
    | _ => rfl
  cases hc : p.conduit with
  | some name =>
    refine .inl ⟨.action ⟨p.targetLabel, p.action.name,
      "target not found: actions apply only to the live conversation"⟩, ?_⟩
    rw [Option.isNone_some, Bool.and_false, if_neg Bool.false_ne_true, State.follow_nil]
    rfl
  | none =>
    rw [hk, Option.isNone_none, Bool.and_self, if_pos rfl, Option.isSome_none,
      if_neg Bool.false_ne_true]
    obtain ⟨res, hres, hvs⟩ := run_actionParams (s := s)
      (fun reason => .action ⟨p.targetLabel, p.action.name, reason⟩) p.params.entries
    rw [run_bind hres]
    rcases res with e | vs
    · exact .inl ⟨e, rfl⟩
    dsimp only
    cases hr : p.action.request vs with
    | error reason => exact .inl ⟨_, rfl⟩
    | ok r =>
      dsimp only
      rcases run_perform settings p.target r (s.follow (s.session.links Except.isOk p.params.entries))
        with ⟨e, he⟩ | ⟨handle, f, hh, hf, he⟩
      · exact .inl ⟨_, (run_bind he).trans rfl⟩
      · refine .inr ⟨vs, r, handle, f, rfl, rfl, (hvs vs).1 rfl, hr, hh, hf, ?_⟩
        rw [run_bind he]
        rfl

theorem run_executeData {p : DataPortal} (hp : Portal.parse body = .ok (.data p))
    {r : Except Halt String}
    (h : (executeData c (resolveValue literal) p).run s = (r, s')) : Step c s body r s' := by
  rw [executeData] at h
  cases hs : c.standIns.get? (templateToken p.id) with
  | some text =>
    rw [hs] at h
    cases h
    exact .standIn hp hs
  | none =>
    have hl : links c s.session body = s.session.links survives p.params.entries := by
      simp only [links, hp, hs]
    simp only [hs] at h
    rw [run_bind (run_resolveParams p.params.entries), ← hl] at h
    rcases hv : s.session.values p.params.entries with e | vs <;> rw [hv] at h
    · cases h
      exact .unresolved hp hs hv
    · dsimp only at h
      cases ht : c.templates p.id with
      | some template =>
        rw [ht] at h
        cases h
        exact .expanded hp hs hv ht
      | none =>
        rw [ht] at h
        simp only [Run.missing] at h
        cases hm : c.settings.missingTemplate with
        | nothing =>
          rw [hm] at h
          cases h
          exact .nothing hp hs hv ht hm
        | failure =>
          rw [hm] at h
          cases h
          exact .missing hp hs hv ht hm

theorem run_executeAction {p : ActionPortal} (hp : Portal.parse body = .ok (.action p))
    {r : Except Halt String}
    (h : (executeAction c.settings (resolveValue literal) p).run s = (r, s')) : Step c s body r s' := by
  have hl : links c s.session body = actionLinks s.session p := by simp only [links, hp]
  rw [executeAction, run_emit_bind] at h
  rcases run_act c.settings p ((emit (.actionStarted p.targetLabel p.action.name)).run s).2 with
    ⟨e, he⟩ | ⟨vs, r, handle, f, hk, hc, hv, hr, hh, hf, he⟩
  · rw [run_bind he] at h
    obtain ⟨rfl, rfl⟩ := Prod.mk.inj h
    have := Step.refused (c := c) (s := s) (e := e) hp (congrArg Prod.fst he)
    rw [hl] at this
    exact this
  · rw [run_bind he] at h
    obtain ⟨rfl, rfl⟩ := Prod.mk.inj h
    have := Step.performed (c := c) (s := s) hp hk hc hv hr hh hf
    rw [hl] at this
    exact this

theorem step_executePortal (c : Context) (body : Fragment) (s : State) {r : Except Halt String}
    (h : (executePortal c literal body).run s = (r, s')) : Step c s body r s' := by
  rw [executePortal] at h
  cases hp : Portal.parse body with
  | error e =>
    rw [hp] at h
    cases h
    exact .malformed hp
  | ok p =>
    rw [hp] at h
    cases p with
    | data p => exact run_executeData hp h
    | action p => exact run_executeAction hp h

/-- How the end of a portal is reported. -/
def portalReport (span : Span) : Except Halt String → Event
  | .ok text => .portalSucceeded span.label text.length
  | .error e => .portalFailed span.label e.message

/-- How the end of an action is reported. -/
def actionReport (p : ActionPortal) : Except Halt String → Event
  | .ok _ => .actionSucceeded p.targetLabel p.action.name
  | .error e => .actionFailed p.targetLabel p.action.name e.message

/-- What is reported between the start and the end of a portal. -/
def innerEvents (c : Context) (session : Session) (body : Fragment) (r : Except Halt String) :
    List Event :=
  let followed := (links c session body).flatMap session.linkEvents
  match Portal.parse body with
  | .ok (.action p) =>
    .actionStarted p.targetLabel p.action.name :: (followed ++ [actionReport p r])
  | _ => followed

/-- A soft failure of a portal gives no text. -/
def absorb : Except Halt String → Except Halt String
  | .error (.soft _) => .ok ""
  | r => r

/-- What the execution of a portal comes to, whose start has just been reported. -/
def executed (c : Context) (v : State × Span) : Except Halt String × State :=
  (executePortal c literal v.2.fragment).run
    { v.1 with events := v.1.events ++ [.portalStarted v.2.label] }

theorem step_executed (c : Context) (v : State × Span) :
    Step c { v.1 with events := v.1.events ++ [.portalStarted v.2.label] } v.2.fragment
      (executed c v).1 (executed c v).2 := step_executePortal c v.2.fragment _ rfl

theorem run_runPortal_eq (c : Context) (span : Span) (s : State) :
    (runPortal c literal span).run s = (absorb (executed c (s, span)).1,
      { (executed c (s, span)).2 with
        events := (executed c (s, span)).2.events ++ [portalReport span (executed c (s, span)).1] }) := by
  rcases hr : executed c (s, span) with ⟨r, s'⟩
  change (executePortal c literal span.fragment).run ((emit (.portalStarted span.label)).run s).2 =
    (r, s') at hr
  rw [runPortal, run_emit_bind, run_bind hr]
  rcases r with (f | e) | text <;> rfl

theorem run_runPortal (c : Context) (span : Span) (s : State) : ∃ r s',
    Step c { s with events := s.events ++ [.portalStarted span.label] } span.fragment r s' ∧
      (runPortal c literal span).run s =
        (absorb r, { s' with events := s'.events ++ [portalReport span r] }) :=
  ⟨_, _, step_executed c (s, span), run_runPortal_eq c span s⟩

section
variable {r : Except Halt String}

theorem Step.events_eq (h : Step c s body r s') :
    s'.events = s.events ++ innerEvents c s.session body r := by
  cases h with
  | malformed hp => simp [innerEvents, links, hp]
  | standIn hp hs => simp [innerEvents, links, hp, hs]
  | refused hp => simp [innerEvents, hp, State.afterAction, State.follow, actionReport, Halt.message]
  | performed hp => simp [innerEvents, hp, State.afterAction, State.follow, actionReport]
  | unresolved hp | expanded hp | nothing hp | missing hp => simp [innerEvents, hp, State.follow]

theorem exists_append_innerEvents (c : Context) (session : Session) (body : Fragment)
    (r : Except Halt String) : ∃ before after, innerEvents c session body r =
      before ++ (links c session body).flatMap session.linkEvents ++ after ∧
      ∀ e ∈ before ++ after, e.ofAction := by
  unfold innerEvents
  dsimp only
  split
  · rename_i p _
    refine ⟨[.actionStarted p.targetLabel p.action.name], [actionReport p r], rfl, ?_⟩
    cases r <;> simp [actionReport, Event.ofAction]
  · exact ⟨[], [], by simp, by simp⟩

theorem Step.events (h : Step c s body r s') : ∃ before after,
    s'.events =
        s.events ++ (before ++ (links c s.session body).flatMap s.session.linkEvents ++ after) ∧
      ∀ e ∈ before ++ after, e.ofAction := by
  obtain ⟨before, after, he, hbetween⟩ := exists_append_innerEvents c s.session body r
  exact ⟨before, after, by rw [h.events_eq, he], hbetween⟩

/-- Between the reports of a portal there are just those of its links, and of its action. -/
theorem events_runPortal (c : Context) (span : Span) (s : State) : ∃ before after,
    ((runPortal c literal span).run s).2.events = s.events ++ .portalStarted span.label ::
      (before ++ (links c s.session span.fragment).flatMap s.session.linkEvents ++ after) ∧
      ∀ e ∈ before ++ after, e.ofPortal ∧ ¬ e.ofLink ∧ e.startedPortal? = none := by
  obtain ⟨r, s', h, he⟩ := run_runPortal c span s
  obtain ⟨before, after, hevents, hbetween⟩ := h.events
  have hreport : (portalReport span r).ofPortal ∧ ¬ (portalReport span r).ofLink ∧
      (portalReport span r).startedPortal? = none := by
    cases r <;> exact ⟨rfl, Bool.false_ne_true, rfl⟩
  refine ⟨before, after ++ [portalReport span r], ?_, ?_⟩
  · rw [he]
    simp [hevents]
  · intro e hm
    rw [← List.append_assoc] at hm
    rcases List.mem_append.1 hm with hm | hm
    · have ha := hbetween e hm
      exact ⟨Event.ofPortal_of_ofAction ha, Event.not_ofLink_of_ofAction ha,
        Event.startedPortal?_eq_none (.inr ha)⟩
    · cases List.mem_singleton.1 hm
      exact hreport

theorem exists_events_runPortal (c : Context) (span : Span) (s : State) : ∃ es,
    ((runPortal c literal span).run s).2.events = s.events ++ es ∧ ∀ e ∈ es, e.ofPortal := by
  obtain ⟨before, after, he, hbetween⟩ := events_runPortal c span s
  refine ⟨_, he, fun e hm => ?_⟩
  simp only [List.mem_cons, List.mem_append, List.mem_flatMap] at hm hbetween
  rcases hm with rfl | (hm | ⟨link, -, hm⟩) | hm
  · rfl
  · exact (hbetween e (.inl hm)).1
  · exact Event.ofPortal_of_ofLink (Session.ofLink_of_mem_linkEvents hm)
  · exact (hbetween e (.inr hm)).1

theorem Step.failures (h : Step c s body r s') : ∃ fs, s'.failures = s.failures ++
    ((links c s.session body).filterMap s.session.linkFailure? ++ fs) ∧
      ∀ f ∈ fs, ¬ f.ofLink := by
  cases h with
  | malformed hp => exact ⟨[], by simp [links, hp], by simp⟩
  | standIn hp hs => exact ⟨[], by simp [links, hp, hs], by simp⟩
  | @missing p =>
    refine ⟨[⟨templateToken p.id, .missingTemplate p.id⟩], ?_, by simp [SoftFailure.ofLink]⟩
    simp [State.follow]
  | _ => exact ⟨[], by simp [State.follow, State.afterAction], by simp⟩

end

/-- The replacement loop, with the portals that it executes and the states in which they start. -/
inductive Rounds (c : Context) :
    Template → State → List (State × Span) → Except Halt String × State → Prop
  | done {t : Template} {s : State} (hn : t.innermost = none) : Rounds c t s [] (.ok t.render, s)
  | halt {t : Template} {s s' : State} {span : Span} {e : Halt} (hn : t.innermost = some span)
      (hr : (runPortal c (resolve c) span).run s = (.error e, s')) :
      Rounds c t s [(s, span)] (.error e, s')
  | round {t : Template} {s s' : State} {span : Span} {text : String}
      {visits : List (State × Span)} {out : Except Halt String × State}
      (hn : t.innermost = some span) (hr : (runPortal c (resolve c) span).run s = (.ok text, s'))
      (hl : Rounds c (span.splice text) s' visits out) : Rounds c t s ((s, span) :: visits) out

section
variable {t : Template} {visits : List (State × Span)} {out : Except Halt String × State}

theorem Loops.exists_rounds (h : Loops c t s out) : ∃ visits, Rounds c t s visits out := by
  induction h with
  | done hn => exact ⟨_, .done hn⟩
  | halt hn hr => exact ⟨_, .halt hn hr⟩
  | round hn hr hl ih => exact ⟨_, .round hn hr ih.choose_spec⟩

theorem exists_rounds (hs : Template.Separated t) (s : State) :
    ∃ visits, Rounds c t s visits ((resolve c t).run s) := (loops_resolve hs s).exists_rounds

theorem Rounds.exists_visits_eq_cons {span : Span} (h : Rounds c t s visits out)
    (hn : t.innermost = some span) : ∃ rest, visits = (s, span) :: rest := by
  cases h with
  | done hn' => cases hn.symm.trans hn'
  | halt hn' =>
    cases hn.symm.trans hn'
    exact ⟨[], rfl⟩
  | round hn' =>
    cases hn.symm.trans hn'
    exact ⟨_, rfl⟩

theorem Rounds.exists_round {span : Span} {text : String} (h : Rounds c t s visits out)
    (hn : t.innermost = some span) (hr : (runPortal c (resolve c) span).run s = (.ok text, s')) :
    ∃ rest, visits = (s, span) :: rest ∧ Rounds c (span.splice text) s' rest out := by
  cases h with
  | done hn' => cases hn.symm.trans hn'
  | halt hn' hr' =>
    cases hn.symm.trans hn'
    cases hr.symm.trans hr'
  | round hn' hr' hl =>
    cases hn.symm.trans hn'
    cases hr.symm.trans hr'
    exact ⟨_, rfl, hl⟩

/-- What every portal keeps, the loop keeps. -/
theorem Rounds.invariant {P : State → Prop} (h : Rounds c t s visits out)
    (hs : Template.Separated t)
    (hstep : ∀ s span, P s → P ((runPortal c literal span).run s).2) (h0 : P s) :
    P out.2 ∧ ∀ v ∈ visits, P v.1 := by
  induction h with
  | done hn => exact ⟨h0, by simp⟩
  | @halt t s s' span e hn hr =>
    have hp := hstep s span h0
    rw [← runPortal_resolve hs hn, hr] at hp
    exact ⟨hp, by simpa using h0⟩
  | @round t s s' span text visits out hn hr hl ih =>
    have hp := hstep s span h0
    rw [← runPortal_resolve hs hn, hr] at hp
    obtain ⟨hout, hvisits⟩ := ih (hs.splice hn text) hp
    exact ⟨hout, List.forall_mem_cons.2 ⟨h0, hvisits⟩⟩

/-- What portals such that `q` keep still holds where no other has been executed. -/
theorem Rounds.invariant_before {P : State → Prop} {q : Span → Prop} (h : Rounds c t s visits out)
    (hs : Template.Separated t)
    (hstep : ∀ s span, q span → P s → P ((runPortal c literal span).run s).2) (h0 : P s)
    {before after : List (State × Span)} {v : State × Span} (hv : visits = before ++ v :: after)
    (hq : ∀ u ∈ before, q u.2) : P v.1 := by
  induction h generalizing before with
  | done hn => simp at hv
  | halt hn hr =>
    cases before with
    | nil =>
      cases hv
      exact h0
    | cons u before => simp at hv
  | @round t s s' span text visits out hn hr hl ih =>
    cases before with
    | nil =>
      cases hv
      exact h0
    | cons u before =>
      obtain ⟨rfl, htail⟩ := List.cons.inj hv
      obtain ⟨hu, hq⟩ := List.forall_mem_cons.1 hq
      have hp := hstep s span hu h0
      rw [← runPortal_resolve hs hn, hr] at hp
      exact ih (hs.splice hn text) hp htail hq

theorem Rounds.runPortal_eq (h : Rounds c t s visits out) (hs : Template.Separated t) :
    ∀ v ∈ visits, runPortal c (resolve c) v.2 = runPortal c literal v.2 := by
  induction h with
  | done hn => simp
  | halt hn hr => simpa using runPortal_resolve hs hn
  | round hn hr hl ih =>
    exact List.forall_mem_cons.2 ⟨runPortal_resolve hs hn, ih (hs.splice hn _)⟩

/-- What the portals add to a record, the loop adds in their order, as long as their results are
such that `q`. -/
theorem Rounds.sum {α : Type} {f : State → List α} {g : State × Span → List α}
    {q : Except Halt String → Prop} (h : Rounds c t s visits out) (hs : Template.Separated t)
    (hok : ∀ text, q (.ok text))
    (hstep : ∀ s span, q ((runPortal c literal span).run s).1 →
      f ((runPortal c literal span).run s).2 = f s ++ g (s, span)) (hq : q out.1) :
    f out.2 = f s ++ visits.flatMap g := by
  induction h with
  | done hn => simp
  | @halt t s s' span e hn hr =>
    have hp := hstep s span
    rw [← runPortal_resolve hs hn, hr] at hp
    simpa using hp hq
  | @round t s s' span text visits out hn hr hl ih =>
    have hp := hstep s span
    rw [← runPortal_resolve hs hn, hr] at hp
    rw [ih (hs.splice hn text) hq, hp (hok text), List.flatMap_cons, List.append_assoc]

theorem Rounds.exists_events (h : Rounds c t s visits out) (hs : Template.Separated t) :
    ∃ es, out.2.events = s.events ++ es ∧ ∀ e ∈ es, e.ofPortal := by
  refine (h.invariant hs (P := fun s' => ∃ es, s'.events = s.events ++ es ∧ ∀ e ∈ es, e.ofPortal)
    ?_ ⟨[], by simp⟩).1
  rintro s' span ⟨es, he, hes⟩
  obtain ⟨es', he', hes'⟩ := exists_events_runPortal c span s'
  refine ⟨es ++ es', by rw [he', he, List.append_assoc], fun e hm => ?_⟩
  exact (List.mem_append.1 hm).elim (hes e) (hes' e)

theorem Rounds.ne_soft (h : Rounds c t s visits out) (f : SoftFailure) :
    out.1 ≠ .error (.soft f) := by
  induction h with
  | done hn => rintro ⟨⟩
  | @halt t s s' span e hn hr =>
    have := runPortal_ne_soft c (resolve c) span s f
    rwa [hr] at this
  | round hn hr hl ih => exact ih

end

end Run

end PortalScript
