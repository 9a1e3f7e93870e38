import PortalScript.Proofs.Fixture.Perform
import PortalScript.Proofs.Resolution.Reports

/-! # What actions do

An action that succeeds is put on record with its target, its name and its resolved parameters, and has
the effect of this record on the conversation; one that fails has none, and ends the run. `Deeds` are the
actions of a run with what became of them, and `Deeds.Account` says what they left behind: each portal
adds at most one deed to the account (`account_runPortal`), and the loop adds them up
(`Rounds.account`). -/

namespace PortalScript

/-- The parameters that an action adds to those it is given. -/
def Action.defaults (a : Action) (params : List (String × String)) : List (String × String) :=
  match a with
  | .copy => if params.any fun (k, _) => k = "format" then [] else [("format", "text")]
  | _ => []

theorem Action.request_eq {a : Action} {params : List (String × String)} {r : Request}
    (h : a.request params = .ok r) : r = ⟨a.name, params ++ a.defaults params⟩ := by
  unfold request at h
  unfold defaults
  split at h
  · split at h <;> cases h
    rw [List.append_nil]
  · split at h <;> rename_i hf <;> cases h <;> simp only [hf]
    · rw [if_pos trivial, List.append_nil]
    · rw [if_neg Bool.false_ne_true]
  · rename_i hc
    cases h
    split
    · exact absurd rfl hc
    · rw [List.append_nil]

namespace Session
variable {s : Session} {e : HardFailure}

theorem malformed_of_value {raw : Fragment} (h : s.value raw = .error (.hard e)) :
    ∃ error, e = .malformed error := by
  unfold value at h
  split at h
  · cases h
    exact ⟨_, rfl⟩
  · cases h
  · rename_i l token _
    cases hl : s.lookup l <;> rw [hl] at h <;> cases h
  · cases h
  · cases h

theorem malformed_of_values {entries : List (String × Fragment)}
    (h : s.values entries = .error (.hard e)) : ∃ error, e = .malformed error := by
  induction entries with
  | nil => cases h
  | cons entry entries ih =>
    obtain ⟨key, raw⟩ := entry
    rw [values] at h
    rcases hv : s.value raw with (f | e') | text <;> rw [hv] at h <;> dsimp only at h
    · rcases hr : s.values entries with (f' | e'') | vs <;> rw [hr] at h <;> cases h
      exact ih hr
    · cases h
      exact malformed_of_value hv
    · rcases hr : s.values entries with e'' | vs <;> rw [hr] at h <;> cases h
      exact ih hr

end Session

namespace Run

/-- An action that was started, and the session in which it was. -/
structure Attempt where
  session : Session
  portal : ActionPortal

namespace Attempt

/-- The action as it goes on record: it acts on the live conversation, with its parameters resolved. -/
def record? (a : Attempt) : Option ActionRecord :=
  match a.portal.conduit, a.session.values a.portal.params.entries with
  | none, .ok vs =>
    some ⟨a.portal.target, a.portal.action.name, vs ++ a.portal.action.defaults vs⟩
  | _, _ => none

def started (a : Attempt) : Event := .actionStarted a.portal.targetLabel a.portal.action.name

def succeeded (a : Attempt) : Event := .actionSucceeded a.portal.targetLabel a.portal.action.name

def failed (a : Attempt) (e : HardFailure) : Event :=
  .actionFailed a.portal.targetLabel a.portal.action.name e.message

end Attempt

/-- The action that a portal starts, if it is one. -/
def attempt? (v : State × Span) : Option Attempt :=
  match Portal.parse v.2.fragment with
  | .ok (.action p) => some ⟨v.1.session, p⟩
  | _ => none

/-- What became of the actions that were started: those that succeeded, with their records, and one
that failed behind them, with its failure, if one did. -/
structure Deeds where
  done : List (Attempt × ActionRecord) := []
  failed : Option (Attempt × HardFailure) := none

namespace Deeds

def attempts (d : Deeds) : List Attempt := d.done.map (·.1) ++ (d.failed.map (·.1)).toList

def records (d : Deeds) : List ActionRecord := d.done.map (·.2)

def events (d : Deeds) : List Event :=
  d.done.flatMap (fun a => [a.1.started, a.1.succeeded]) ++
    match d.failed with
    | some (a, e) => [a.started, a.failed e]
    | none => []

/-- The outcome that is left in the session, where there was one `before`. -/
def status (d : Deeds) (before : Option String) : Option String :=
  if d.failed.isSome then some Session.statusFailed
  else if d.done.isEmpty then before
  else some Session.statusSuccess

/-- The deeds of a run that goes on with others. -/
def andThen (d d' : Deeds) : Deeds := ⟨d.done ++ d'.done, d'.failed⟩

/-- The run from `s` through the portals `visits` to `out` did these deeds and no others. -/
structure Account (d : Deeds) (s : State) (visits : List (State × Span))
    (out : Except Halt String × State) : Prop where
  attempts : visits.filterMap attempt? = d.attempts
  records : ∀ a ∈ d.done, a.1.record? = some a.2
  fixture : out.2.fixture = d.records.foldl Fixture.enact s.fixture
  events : out.2.events.filter (·.ofAction) = s.events.filter (·.ofAction) ++ d.events
  status : out.2.session.vars.get? Session.lastActionStatus =
    d.status (s.session.vars.get? Session.lastActionStatus)
  failed : ∀ a e, d.failed = some (a, e) → out.1 = .error (.hard e) ∧
    ∃ v, visits.getLast? = some v ∧ attempt? v = some a
  blamed : ∀ e, out.1 = .error (.hard (.action e)) → ∃ a, d.failed = some (a, .action e)

variable {d d' : Deeds} {s s' : State} {visits visits' : List (State × Span)} {text : String}
  {out : Except Halt String × State}

theorem Account.nil (s : State) (text : String) : ({} : Deeds).Account s [] (.ok text, s) where
  attempts := rfl
  records := by simp
  fixture := rfl
  events := by simp [Deeds.events]
  status := rfl
  failed := by rintro a e ⟨⟩
  blamed := by rintro e ⟨⟩

theorem Account.failed_eq_none (h : d.Account s visits (.ok text, s')) : d.failed = none := by
  rcases hf : d.failed with - | ⟨a, e⟩
  · rfl
  · obtain ⟨⟨⟩, -⟩ := h.failed a e hf

theorem Account.andThen (h : d.Account s visits (.ok text, s')) (h' : d'.Account s' visits' out) :
    (d.andThen d').Account s (visits ++ visits') out where
  attempts := by
    rw [List.filterMap_append, h.attempts, h'.attempts]
    simp [Deeds.attempts, Deeds.andThen, h.failed_eq_none]
  records a hm := (List.mem_append.1 hm).elim (h.records a) (h'.records a)
  fixture := by
    rw [h'.fixture, h.fixture]
    simp [Deeds.records, Deeds.andThen]
  events := by
    rw [h'.events, h.events]
    simp [Deeds.events, Deeds.andThen, h.failed_eq_none]
  status := by
    rw [h'.status, h.status]
    cases hd : d.done <;> cases hd' : d'.done <;>
      simp [Deeds.status, Deeds.andThen, h.failed_eq_none, hd, hd']
  failed a e hf := by
    obtain ⟨hout, v, hv, ha⟩ := h'.failed a e hf
    exact ⟨hout, v, by rw [List.getLast?_append, hv]; rfl, ha⟩
  blamed := h'.blamed

end Deeds

section
variable {c : Context} {s s' : State}

theorem filter_linkEvents (session : Session) (links : List (Link × String)) :
    (links.flatMap session.linkEvents).filter (·.ofAction) = [] := by
  refine List.filter_eq_nil_iff.2 fun e hm ha => ?_
  obtain ⟨link, -, hl⟩ := List.mem_flatMap.1 hm
  exact Event.not_ofLink_of_ofAction ha (Session.ofLink_of_mem_linkEvents hl)

theorem filter_innerEvents_action {session : Session} {body : Fragment} {p : ActionPortal}
    (hp : Portal.parse body = .ok (.action p)) (r : Except Halt String) :
    (innerEvents c session body r).filter (·.ofAction) =
      [.actionStarted p.targetLabel p.action.name, actionReport p r] := by
  have hreport : (actionReport p r).ofAction = true := by
    cases r <;> rfl
  simp only [innerEvents, hp]
  rw [List.filter_cons_of_pos (by rfl), List.filter_append, filter_linkEvents,
    List.filter_cons_of_pos hreport]
  rfl

theorem filter_innerEvents_quiet {session : Session} {body : Fragment}
    (hp : ∀ p, Portal.parse body ≠ .ok (.action p)) (r : Except Halt String) :
    (innerEvents c session body r).filter (·.ofAction) = [] := by
  unfold innerEvents
  dsimp only
  split
  · rename_i p hp'
    exact absurd hp' (hp p)
  · exact filter_linkEvents session _

theorem attempt?_eq_none (s : State) {span : Span}
    (h : ∀ p, Portal.parse span.fragment ≠ .ok (.action p)) : attempt? (s, span) = none := by
  unfold attempt?
  split
  · rename_i p hp
    exact absurd hp (h p)
  · rfl

/-- A portal does one deed if it is an action, and else none. -/
theorem account_runPortal (c : Context) (span : Span) (s : State) :
    ∃ d : Deeds, d.Account s [(s, span)] ((runPortal c literal span).run s) := by
  obtain ⟨r, s', h, he⟩ := run_runPortal c span s
  have hreport : ¬ (portalReport span r).ofAction := by
    cases r <;> exact Bool.false_ne_true
  have hevents : (s'.events ++ [portalReport span r]).filter (·.ofAction) =
      s.events.filter (·.ofAction) ++
        (innerEvents c s.session span.fragment r).filter (·.ofAction) := by
    rw [h.events_eq, List.filter_append, List.filter_append, List.filter_append,
      List.filter_cons_of_neg Bool.false_ne_true, List.filter_cons_of_neg hreport]
    simp
  rw [he]
  -- A portal that is no action leaves the fixture and the session as they are.
  have quiet (hp : ∀ p, Portal.parse span.fragment ≠ .ok (.action p))
      (hf : s'.fixture = s.fixture) (hs : s'.session = s.session)
      (hb : ∀ e, r ≠ .error (.hard (.action e))) : ∃ d : Deeds, d.Account s [(s, span)]
        (absorb r, { s' with events := s'.events ++ [portalReport span r] }) := by
    refine ⟨{}, ?_, by simp, hf, ?_, congrArg (·.vars.get? Session.lastActionStatus) hs,
      by rintro a e ⟨⟩, fun e hr => ?_⟩
    · simp [attempt?_eq_none s hp, Deeds.attempts]
    · rw [filter_innerEvents_quiet hp] at hevents
      exact hevents
    · rcases r with (f | e') | text <;> cases hr
      exact absurd rfl (hb e)
  cases h with
  | malformed hp => exact quiet (by simp [hp]) rfl rfl (by rintro e ⟨⟩)
  | @unresolved p e hp hs hv =>
    refine quiet (by simp [hp]) rfl rfl ?_
    rintro error ⟨⟩
    obtain ⟨e, ⟨⟩⟩ := Session.malformed_of_values hv
  | standIn hp | expanded hp | nothing hp | missing hp =>
    exact quiet (by simp [hp]) rfl rfl (by rintro e ⟨⟩)
  | @refused p e hp =>
    have ha : attempt? (s, span) = some ⟨s.session, p⟩ := by simp [attempt?, hp]
    refine ⟨⟨[], some (⟨s.session, p⟩, e)⟩, ?_, by simp, rfl, ?_, ?_, ?_, ?_⟩
    · simp [ha, Deeds.attempts]
    · rw [filter_innerEvents_action hp] at hevents
      exact hevents
    · exact (Table.get?_insert _ _ _ _).trans (if_pos rfl)
    · rintro a e ⟨⟩
      exact ⟨rfl, _, rfl, ha⟩
    · rintro e ⟨⟩
      exact ⟨_, rfl⟩
  | @performed p vs request handle f hp hk hc hv hr hh hf =>
    have ha : attempt? (s, span) = some ⟨s.session, p⟩ := by simp [attempt?, hp]
    refine ⟨⟨[(⟨s.session, p⟩, ⟨p.target, request.action, request.params⟩)], none⟩, ?_, ?_, ?_, ?_,
      ?_, by rintro a e ⟨⟩, by rintro e ⟨⟩⟩
    · simp [ha, Deeds.attempts]
    · have hv' : s.session.values p.params.entries = .ok vs := hv
      simp [Attempt.record?, hc, hv', Action.request_eq hr]
    · exact Fixture.perform_eq_enact hh hf
    · rw [filter_innerEvents_action hp] at hevents
      exact hevents
    · exact (Table.get?_insert _ _ _ _).trans (if_pos rfl)

variable {t : Template} {visits : List (State × Span)} {out : Except Halt String × State}

theorem Rounds.account (h : Rounds c t s visits out) (hs : Template.Separated t) :
    ∃ d : Deeds, d.Account s visits out := by
  induction h with
  | @done t s hn => exact ⟨_, .nil s t.render⟩
  | @halt t s s' span e hn hr =>
    have := account_runPortal c span s
    rwa [← runPortal_resolve hs hn, hr] at this
  | @round t s s' span text visits out hn hr hl ih =>
    obtain ⟨d, hd⟩ := account_runPortal c span s
    rw [← runPortal_resolve hs hn, hr] at hd
    obtain ⟨d', hd'⟩ := ih (hs.splice hn text)
    exact ⟨d.andThen d', hd.andThen hd'⟩

end

end Run

section
variable {α : Type}

/-- The call executed the portals `visits`, and the deeds are what became of their actions, in their
order. Each of them is reported. Those that succeeded are on record and had the effects of their
records; nothing else in the fixture changed, but for the count of scrapes. One that failed was the last
portal, and the call failed with it. The session keeps the outcome of the last action. -/
structure Outcome.Acts (o : Outcome α) (session : Session) (fixture : Fixture)
    (visits : List (State × Span)) (d : Run.Deeds) : Prop where
  attempts : visits.filterMap Run.attempt? = d.attempts
  events : (o.events.map (·.event)).filter (·.ofAction) = d.events
  records : ∀ a ∈ d.done, a.1.record? = some a.2
  fixture :
    let after := d.records.foldl (fun s r => r.effect s) (fixture.history, fixture.clipboard)
    o.fixture = { fixture with
      history := after.1
      clipboard := after.2
      actions := fixture.actions ++ d.records
      scrapes := fixture.scrapes + 1 }
  failed : ∀ a e, d.failed = some (a, e) → o.result = .error (.hard e) ∧
    ∃ v, visits.getLast? = some v ∧ Run.attempt? v = some a
  status : o.session.vars.get? Session.lastActionStatus =
    d.status (session.vars.get? Session.lastActionStatus)
  blamed : ∀ e, o.result = .error (.hard (.action e)) → (∃ a, d.failed = some (a, .action e)) ∧
    o.session.vars.get? Session.lastActionStatus = some Session.statusFailed

theorem Outcome.acts {settings : Settings} {session : Session} {fixture : Fixture} {script : String}
    {c : Context} {t : Template} {s : State} {visits : List (State × Span)}
    {out : Except Halt String × State} {o : Outcome α} {pass : Pass} {last : Event}
    (h : Run.Rounds c t s visits out) (ht : Template.Separated t)
    (hs : s.session = session.prepared settings fixture script)
    (hf : s.fixture = { fixture with scrapes := fixture.scrapes + 1 })
    (hstart : ∀ e ∈ s.events, ¬ e.ofPortal) (hlast : ¬ last.ofPortal)
    (hsession : o.session = out.2.session) (hfixture : o.fixture = out.2.fixture)
    (he : o.events = (out.2.events ++ [last]).map (⟨pass, ·⟩))
    (hhard : ∀ e, o.result = .error (.hard e) ↔ out.1 = .error (.hard e)) :
    ∃ d, o.Acts session fixture visits d := by
  obtain ⟨d, hd⟩ := h.account ht
  have hstatus : o.session.vars.get? Session.lastActionStatus =
      d.status (session.vars.get? Session.lastActionStatus) := by
    rw [hsession, hd.status, hs, Session.prepared_eq]
  have hnone : s.events.filter (·.ofAction) = [] :=
    List.filter_eq_nil_iff.2 fun e hm ha => hstart e hm (Event.ofPortal_of_ofAction ha)
  refine ⟨d, hd.attempts, ?_, hd.records, ?_, fun a e hfail => ?_, hstatus, fun e hr => ?_⟩
  · rw [he, Run.map_event, List.filter_append, hd.events, hnone,
      List.filter_cons_of_neg fun ha => hlast (Event.ofPortal_of_ofAction ha), List.filter_nil,
      List.append_nil, List.nil_append]
  · rw [hfixture, hd.fixture, hf]
    exact Fixture.foldl_enact d.records _
  · obtain ⟨hout, hv⟩ := hd.failed a e hfail
    exact ⟨(hhard e).2 hout, hv⟩
  · obtain ⟨a, hfail⟩ := hd.blamed e ((hhard _).1 hr)
    refine ⟨⟨a, hfail⟩, ?_⟩
    rw [hstatus, Run.Deeds.status, hfail]
    rfl

/-- In every call, the actions that are started succeed but for the last at most; the conversation and
the clipboard change by the records of those that succeeded and by nothing else, whatever the call
comes to then; and the outcome of the last action is left in the session. -/
theorem actions_recorded (settings : Settings) (templates : String → Option String)
    (session : Session) (fixture : Fixture) (script : String) (overrides : Table String) :
    (∃ visits out, Run.Rounds ⟨settings, templates, ∅⟩ (.ofScript (Mount.extract script).2)
        (Run.primaryStart settings script { session, fixture }) visits out ∧
      ∃ d, (parse settings templates session fixture script).Acts session fixture visits d) ∧
    ∃ visits out, Run.Rounds ⟨settings, templates, Override.standIns overrides⟩
        (Run.overridden overrides script).1
        (Run.retryStart settings overrides script { session, fixture }) visits out ∧
      ∃ d, (parseWithOverrides settings templates session fixture script overrides).Acts session
        fixture visits d := by
  have hstart := Run.primaryStart_eq settings script { session, fixture }
  have hretry := Run.retryStart_eq settings overrides script { session, fixture }
  rw [hstart] at hretry
  refine ⟨?_, ?_⟩
  · obtain ⟨visits, out, h, ho⟩ := parse_rounds settings templates session fixture script
    refine ⟨visits, out, h, ?_⟩
    rw [ho]
    exact Outcome.acts h (Template.separated_ofScript _) (congrArg State.session hstart)
      (congrArg State.fixture hstart) (fun e => Run.not_ofPortal_of_mem_primaryStart)
      (Run.finishReport_quiet _ _ _).1 rfl rfl rfl fun e => Run.primaryResult_eq_hard_iff
  · obtain ⟨visits, out, h, ho⟩ :=
      parseWithOverrides_rounds settings templates session fixture script overrides
    refine ⟨visits, out, h, ?_⟩
    rw [ho]
    exact Outcome.acts h (separated_overridden overrides script) (congrArg State.session hretry)
      (congrArg State.fixture hretry) (fun e => Run.not_ofPortal_of_mem_retryStart)
      (Run.finishReport_quiet _ _ _).1 rfl rfl rfl fun e => Run.retryResult_eq_hard_iff

/-- A turn that is gone stays gone when the next action fails. -/
example :
    let o := parse {} (fun _ => none) {} { history := [.user "one", .user "two"] }
      "~\x7b\x7b~@USER-1:delete~\x7d\x7d~ ~\x7b\x7b~@USER-2:copy~\x7d\x7d~"
    o.fixture.history = [.user "one"] ∧ o.fixture.actions = [⟨⟨.user, 1⟩, "delete", []⟩] ∧
      o.session.vars.get? Session.lastActionStatus = some Session.statusFailed := by
  decide +kernel

end

end PortalScript
