import PortalScript.Proofs.Resolution.Passes
import PortalScript.Proofs.Resolution.Step

/-! # Each soft failure is noted once

`softFailures` is what a portal owes to the notes: a failure for each of its parameters that is a link
that is not read, and where there is none, the failure of its missing template. A pass that no hard
failure ends notes just these failures of the portals it executes, in their order
(`Rounds.failures`), and a failure of a link is noted just where one is reported (`Tallied`). -/

namespace PortalScript

namespace Run
variable {c : Context} {s s' : State} {body : Fragment} {r : Except Halt String}

/-- The soft failures of a portal that no hard failure ends. -/
def softFailures (c : Context) (session : Session) (body : Fragment) : List SoftFailure :=
  match Portal.parse body with
  | .ok (.data p) =>
    match c.standIns.get? (templateToken p.id), p.params.entries.filterMap (session.failure? ·.2) with
    | some _, _ => []
    | none, f :: fs => f :: fs
    | none, [] =>
      if c.templates p.id = none ∧ c.settings.missingTemplate = .failure then
        [⟨templateToken p.id, .missingTemplate p.id⟩]
      else []
  | _ => []

/-- The soft failures of the portals that are executed, in the order of execution. -/
def softFailuresOf (c : Context) (visits : List (State × Span)) : List SoftFailure :=
  visits.flatMap fun v => softFailures c v.1.session v.2.fragment

/-- The failures of links that are noted are those that are reported, in the same order. -/
def Tallied (s : State) : Prop :=
  s.events.filterMap Event.failedLink? =
    (s.failures.filter (·.ofLink)).map fun f => (f.token, f.reason.message)

theorem failures_links {session : Session} {entries : List (String × Fragment)}
    (h : session.links survives entries = entries.filterMap fun e => Value.link? e.2) :
    (session.links survives entries).filterMap session.linkFailure? =
      entries.filterMap (session.failure? ·.2) := by
  rw [h, List.filterMap_filterMap]
  rfl

theorem filterMap_links_eq_nil {session : Session} {entries : List (String × Fragment)}
    (goesOn : Except Halt String → Bool) (h : entries.filterMap (session.failure? ·.2) = []) :
    (session.links goesOn entries).filterMap session.linkFailure? = [] := by
  induction entries with
  | nil => rfl
  | cons e entries ih =>
    simp only [List.filterMap_eq_nil_iff, List.forall_mem_cons, Session.failure?] at h ih
    rw [Session.links, List.filterMap_append]
    have hrest : (if goesOn (session.value e.2) then session.links goesOn entries else []).filterMap
        session.linkFailure? = [] := by
      split
      · exact List.filterMap_eq_nil_iff.2 (ih h.2)
      · rfl
    have hhead : (Value.link? e.2).toList.filterMap session.linkFailure? = [] := by
      have := h.1
      cases hl : Value.link? e.2 with
      | none => rfl
      | some link => simpa [hl] using this
    rw [hhead, hrest, List.append_nil]

theorem failures_of_values {session : Session} {entries : List (String × Fragment)}
    {vs : List (String × String)} (h : session.values entries = .ok vs) :
    entries.filterMap (session.failure? ·.2) = [] := by
  rcases session.values_cases entries with ⟨e, he⟩ | ⟨⟨vs', -, hf⟩ | ⟨f, fs, he, -⟩, -⟩
  · rw [h] at he
    cases he
  · exact hf
  · rw [h] at he
    cases he

/-- A portal notes its soft failures, unless a hard one ends it. -/
theorem Step.softFailures (h : Step c s body r s') (hr : survives r) :
    s'.failures = s.failures ++ softFailures c s.session body := by
  have hlinks {p : DataPortal} (hp : Portal.parse body = .ok (.data p))
      (hs : c.standIns.get? (templateToken p.id) = none) :
      links c s.session body = s.session.links survives p.params.entries := by
    simp only [links, hp, hs]
  have hread {p : DataPortal} {vs : List (String × String)}
      (hp : Portal.parse body = .ok (.data p)) (hs : c.standIns.get? (templateToken p.id) = none)
      (hv : s.session.values p.params.entries = .ok vs) :
      (s.follow (links c s.session body)).failures = s.failures := by
    rw [State.follow, hlinks hp hs, filterMap_links_eq_nil survives (failures_of_values hv),
      List.append_nil]
  cases h with
  | malformed hp => cases hr
  | standIn hp hs => simp [Run.softFailures, hp, hs]
  | @unresolved p e hp hs hv =>
    rcases s.session.values_cases p.params.entries with
      ⟨e', hv'⟩ | ⟨⟨vs, hv', -⟩ | ⟨f, fs, hv', hf⟩, hl⟩
    · cases hv.symm.trans hv'
      cases hr
    · cases hv.symm.trans hv'
    · simp only [State.follow, hlinks hp hs, failures_links hl, Run.softFailures, hp, hs, hf]
  | expanded hp hs hv ht =>
    simp [hread hp hs hv, Run.softFailures, hp, hs, failures_of_values hv, ht]
  | nothing hp hs hv ht hm =>
    simp [hread hp hs hv, Run.softFailures, hp, hs, failures_of_values hv, hm]
  | missing hp hs hv ht hm =>
    simp [hread hp hs hv, Run.softFailures, hp, hs, failures_of_values hv, ht, hm]
  | refused hp => cases hr
  | @performed p vs request handle f hp hk hc hv =>
    have hl : links c s.session body = s.session.links Except.isOk p.params.entries := by
      simp [links, actionLinks, hp, hk, hc]
    have hf := filterMap_links_eq_nil Except.isOk (failures_of_values hv)
    simp [State.afterAction, State.follow, hl, hf, Run.softFailures, hp]

theorem Step.tallied (h : Step c s body r s') (hs : Tallied s) : Tallied s' := by
  obtain ⟨before, after, he, hbetween⟩ := h.events
  obtain ⟨fs, hf, hmissing⟩ := h.failures
  have hnone : ∀ es ⊆ before ++ after, es.filterMap Event.failedLink? = [] := by
    intro es hes
    refine List.filterMap_eq_nil_iff.2 fun e hm => ?_
    exact Event.failedLink?_eq_none (Event.not_ofLink_of_ofAction (hbetween e (hes hm)))
  have hbefore := hnone before (List.subset_append_left before after)
  have hafter := hnone after (List.subset_append_right before after)
  have hlinks : ((links c s.session body).filterMap s.session.linkFailure?).filter (·.ofLink) =
      (links c s.session body).filterMap s.session.linkFailure? := by
    refine List.filter_eq_self.2 fun f hm => ?_
    obtain ⟨link, -, hl⟩ := List.mem_filterMap.1 hm
    exact Session.ofLink_of_linkFailure? hl
  have hrest : fs.filter (·.ofLink) = [] := List.filter_eq_nil_iff.2 hmissing
  unfold Tallied at hs ⊢
  rw [he, hf]
  simp only [List.filterMap_append, List.filter_append, List.map_append, hbefore, hafter, hlinks,
    hrest, Session.filterMap_linkEvents, hs, List.nil_append, List.append_nil]

theorem Tallied.emit {e : Event} (he : ¬ e.ofLink) (hs : Tallied s) :
    Tallied { s with events := s.events ++ [e] } := by
  unfold Tallied at hs ⊢
  simp [hs, Event.failedLink?_eq_none he]

theorem Tallied.runPortal (span : Span) (hs : Tallied s) :
    Tallied ((runPortal c literal span).run s).2 := by
  obtain ⟨r, s', h, he⟩ := run_runPortal c span s
  have hreport : ¬ (portalReport span r).ofLink := by
    cases r <;> exact Bool.false_ne_true
  rw [he]
  exact (h.tallied (hs.emit Bool.false_ne_true)).emit hreport

section
variable {t : Template} {visits : List (State × Span)} {out : Except Halt String × State}

theorem Rounds.failures (h : Rounds c t s visits out) (hs : Template.Separated t)
    (hr : survives out.1) : out.2.failures = s.failures ++ softFailuresOf c visits := by
  refine h.sum hs (q := (survives · = true)) (fun _ => rfl) (fun s span hq => ?_) hr
  obtain ⟨r, s', hstep, he⟩ := run_runPortal c span s
  rw [he] at hq ⊢
  have hr' : survives r := by
    rcases r with (f | e) | text
    · rfl
    · exact hq
    · rfl
  exact hstep.softFailures hr'

theorem Rounds.tallied (h : Rounds c t s visits out) (hs : Template.Separated t) (h0 : Tallied s) :
    Tallied out.2 := (h.invariant hs (fun _ span => Tallied.runPortal span) h0).1

theorem Rounds.startedPortals (h : Rounds c t s visits out) (hs : Template.Separated t) :
    out.2.events.filterMap Event.startedPortal? =
      s.events.filterMap Event.startedPortal? ++ visits.map (·.2.label) := by
  rw [List.map_eq_flatMap]
  refine h.sum hs (f := fun s => s.events.filterMap Event.startedPortal?) (q := fun _ => True)
    (fun _ => trivial) (fun s span _ => ?_) trivial
  obtain ⟨before, after, he, hbetween⟩ := events_runPortal c span s
  have hstart : (Event.portalStarted span.label).startedPortal? = some span.label := rfl
  have hnone : (before ++ (links c s.session span.fragment).flatMap s.session.linkEvents ++
      after).filterMap Event.startedPortal? = [] := by
    refine List.filterMap_eq_nil_iff.2 fun e hm => ?_
    simp only [List.mem_append, List.mem_flatMap] at hm hbetween
    rcases hm with (hm | ⟨link, -, hm⟩) | hm
    · exact (hbetween e (.inl hm)).2.2
    · exact Event.startedPortal?_of_ofLink (Session.ofLink_of_mem_linkEvents hm)
    · exact (hbetween e (.inr hm)).2.2
  rw [he, List.filterMap_append, List.filterMap_cons_some hstart, hnone]

end

end Run

section
variable {α : Type}

/-- The portals that a call reports to have started. -/
def Outcome.startedPortals (o : Outcome α) : List String :=
  o.events.filterMap (·.event.startedPortal?)

/-- The links that a call reports to have failed, each with the reason. -/
def Outcome.failedLinks (o : Outcome α) : List (String × String) :=
  o.events.filterMap (·.event.failedLink?)

/-- The call executed the portals `visits` and came to `out`. Either that is a hard failure, which is
the result of the call then; or it is a text, and then the call's result is made of it and of the soft
failures of these portals, among which are just the links that it reports to have failed. -/
def Outcome.Notes (o : Outcome α) (c : Context) (visits : List (State × Span)) (out : Except Halt String)
    (result : String → List SoftFailure → Except CallError α) : Prop :=
  o.startedPortals = visits.map (·.2.label) ∧
    ((∃ e, out = .error (.hard e) ∧ o.result = .error (.hard e)) ∨
      ∃ text, out = .ok text ∧ o.result = result text (Run.softFailuresOf c visits) ∧
        o.failedLinks = ((Run.softFailuresOf c visits).filter (·.ofLink)).map
          fun f => (f.token, f.reason.message))

theorem Outcome.notes {c : Context} {t : Template} {s : State} {visits : List (State × Span)}
    {out : Except Halt String × State} {o : Outcome α} {pass : Pass} {last : Event}
    {result : String → List SoftFailure → Except CallError α} (h : Run.Rounds c t s visits out)
    (hs : Template.Separated t) (hstart : ∀ e ∈ s.events, ¬ e.ofPortal) (hf : s.failures = [])
    (hlast : ¬ last.ofPortal) (he : o.events = (out.2.events ++ [last]).map (⟨pass, ·⟩))
    (hhard : ∀ e, out.1 = .error (.hard e) → o.result = .error (.hard e))
    (htext : ∀ text, out.1 = .ok text → o.result = result text out.2.failures) :
    o.Notes c visits out.1 result := by
  have hstarted := h.startedPortals hs
  have hquiet : s.events.filterMap Event.startedPortal? = [] :=
    List.filterMap_eq_nil_iff.2 fun e hm => Event.startedPortal?_eq_none (.inl (hstart e hm))
  have hnolinks : s.events.filterMap Event.failedLink? = [] :=
    List.filterMap_eq_nil_iff.2 fun e hm =>
      Event.failedLink?_eq_none fun h => hstart e hm (Event.ofPortal_of_ofLink h)
  have htally := h.tallied hs (by rw [Run.Tallied, hnolinks, hf]; rfl)
  have hlaststarted : last.startedPortal? = none := Event.startedPortal?_eq_none (.inl hlast)
  have hlastlink : last.failedLink? = none :=
    Event.failedLink?_eq_none fun h => hlast (Event.ofPortal_of_ofLink h)
  refine ⟨?_, ?_⟩
  · rw [startedPortals, he, List.filterMap_map]
    show (out.2.events ++ [last]).filterMap Event.startedPortal? = _
    rw [List.filterMap_append, hstarted, hquiet]
    simp [hlaststarted]
  · rcases hout : out.1 with (f | e) | text
    · exact absurd hout (h.ne_soft f)
    · exact .inl ⟨e, rfl, hhard e hout⟩
    · have hfailures := h.failures hs (by rw [hout]; rfl)
      rw [hf, List.nil_append] at hfailures
      refine .inr ⟨text, rfl, by rw [htext text hout, hfailures], ?_⟩
      rw [failedLinks, he, List.filterMap_map, ← hfailures]
      show (out.2.events ++ [last]).filterMap Event.failedLink? = _
      rw [List.filterMap_append, htally]
      simp [hlastlink]

/-- Soft failures are accounted for once: unless a hard failure ends the call, the primary pass gives
a text just if its portals have no soft failure, and otherwise fails with all of them in the order of
execution; the retry gives a text and all of them as warnings. No call ends with a soft failure. -/
theorem failures_noted_once (settings : Settings) (templates : String → Option String)
    (session : Session) (fixture : Fixture) (script : String) (overrides : Table String) :
    (∃ visits out, Run.Rounds ⟨settings, templates, ∅⟩ (.ofScript (Mount.extract script).2)
        (Run.primaryStart settings script { session, fixture }) visits out ∧
      (parse settings templates session fixture script).Notes ⟨settings, templates, ∅⟩ visits out.1
        fun text failures => if failures = [] then .ok text else .error (.unresolved failures)) ∧
    ∃ visits out, Run.Rounds ⟨settings, templates, Override.standIns overrides⟩
        (Run.overridden overrides script).1
        (Run.retryStart settings overrides script { session, fixture }) visits out ∧
      (parseWithOverrides settings templates session fixture script overrides).Notes
        ⟨settings, templates, Override.standIns overrides⟩ visits out.1
        fun text failures => .ok ⟨text, failures⟩ := by
  refine ⟨?_, ?_⟩
  · obtain ⟨visits, out, h, ho⟩ := parse_rounds settings templates session fixture script
    refine ⟨visits, out, h, ?_⟩
    rw [ho]
    refine Outcome.notes h (Template.separated_ofScript _)
      (fun e => Run.not_ofPortal_of_mem_primaryStart)
      (Run.failures_primaryStart settings script _) (Run.finishReport_quiet _ _ _).1 rfl ?_ ?_
    · intro e he
      simp only [Run.primaryOutcome, Run.primaryResult, he, Run.callError]
    · intro text he
      simp only [Run.primaryOutcome, Run.primaryResult, he, List.isEmpty_iff]
  · obtain ⟨visits, out, h, ho⟩ :=
      parseWithOverrides_rounds settings templates session fixture script overrides
    refine ⟨visits, out, h, ?_⟩
    rw [ho]
    refine Outcome.notes h (separated_overridden overrides script)
      (fun e => Run.not_ofPortal_of_mem_retryStart)
      (Run.failures_retryStart settings overrides script _) (Run.finishReport_quiet _ _ _).1 rfl ?_ ?_
    · intro e he
      simp only [Run.retryOutcome, Run.retryResult, he, Run.callError]
    · intro text he
      simp only [Run.retryOutcome, Run.retryResult, he]

end

end PortalScript
