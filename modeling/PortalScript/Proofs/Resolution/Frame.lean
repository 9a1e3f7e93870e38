import PortalScript.Proofs.Resolution.Passes
import PortalScript.Proofs.Resolution.Step

/-! # What a call leaves alone

A call mounts, scrapes once, and only then runs portals. These change the live conversation, but of
the session at most the variable of the last action's outcome (`Framed`), so every link reads the
history and the conduits that were there before the first portal ran. -/

namespace PortalScript

theorem Fixture.perform_eq {f f' : Fixture} {h : Handle} {r : Request} (hf : f.perform h r = .ok f') :
    f' = { f with
      history := f'.history
      clipboard := f'.clipboard
      actions := f.actions ++ [⟨h.target, r.action, r.params⟩] } := by
  unfold perform at hf
  split at hf
  · cases hf
  rename_i i turn hl
  cases he : effect f i turn r with
  | error e =>
    rw [he] at hf
    cases hf
  | ok g =>
    rw [he] at hf
    cases hf
    have hg : g = { f with history := g.history, clipboard := g.clipboard } := by
      unfold effect at he
      split at he
      · cases he
        rfl
      split at he
      · split at he <;> cases he
        rfl
      split at he
      · split at he <;> cases he
        rfl
      split at he <;> cases he
      rfl
    rw [hg]

/-- What a link gives that reads a text. No text is a failure. -/
def LinkFailure.unlessEmpty : Except LinkFailure String → Except LinkFailure String
  | .ok text => if text.isEmpty then .error .empty else .ok text
  | .error reason => .error reason

namespace Session
variable {settings : Settings} {f : Fixture}

theorem conduits_prepared (script : String) (s : Session) :
    (s.prepared settings f script).conduits =
      ((Mount.extract script).1.foldl (commit settings f) s).conduits := by
  rw [prepared_eq, foldl_commit]

theorem lookup_of_history {s : Session} {l : TurnLink} (h : l.conduit = none) :
    s.lookup (.turn l) = LinkFailure.unlessEmpty (l.select s.history) := by
  rw [lookup, read, historyOf, h]
  rfl

theorem lookup_of_conduit {s : Session} {l : TurnLink} {name : String} (h : l.conduit = some name) :
    s.lookup (.turn l) =
      match s.conduits.get? name with
      | some history => LinkFailure.unlessEmpty (l.select history)
      | none => .error (.unknownConduit name) := by
  rw [lookup, read, historyOf, h]
  dsimp only
  cases s.conduits.get? name <;> rfl

end Session

namespace Run
variable {c : Context} {s s' s'' : State} {body : Fragment} {r : Except Halt String}

/-- What portals leave as it was. -/
structure Framed (s s' : State) : Prop where
  history : s'.session.history = s.session.history
  conduits : s'.session.conduits = s.session.conduits
  vars : ∀ name, name ≠ Session.lastActionStatus →
    s'.session.vars.get? name = s.session.vars.get? name
  scrapes : s'.fixture.scrapes = s.fixture.scrapes

theorem Framed.refl (s : State) : Framed s s := ⟨rfl, rfl, fun _ _ => rfl, rfl⟩

theorem Framed.trans (h : Framed s s') (h' : Framed s' s'') : Framed s s'' where
  history := h'.history.trans h.history
  conduits := h'.conduits.trans h.conduits
  vars name hn := (h'.vars name hn).trans (h.vars name hn)
  scrapes := h'.scrapes.trans h.scrapes

theorem framed_afterAction (s : State) (p : ActionPortal) (followed : List (Link × String))
    (status : String) (report : Event) : Framed s (s.afterAction p followed status report) where
  history := rfl
  conduits := rfl
  vars name hn := by
    show (s.session.vars.insert Session.lastActionStatus status).get? name = _
    rw [Table.get?_insert, if_neg (Ne.symm hn)]
  scrapes := rfl

theorem Step.framed (h : Step c s body r s') : Framed s s' := by
  cases h with
  | refused hp => exact framed_afterAction s _ _ _ _
  | @performed p vs request handle f hp hk hc hv hr hh hf =>
    have hs := framed_afterAction s p (links c s.session body) Session.statusSuccess
      (.actionSucceeded p.targetLabel p.action.name)
    have hscrapes : f.scrapes = s.fixture.scrapes := by rw [Fixture.perform_eq hf]
    exact ⟨hs.history, hs.conduits, hs.vars, hscrapes⟩
  | _ => exact ⟨rfl, rfl, fun _ _ => rfl, rfl⟩

theorem framed_runPortal (c : Context) (span : Span) (s : State) :
    Framed s ((runPortal c literal span).run s).2 := by
  obtain ⟨r, s', h, he⟩ := run_runPortal c span s
  have hs := h.framed
  rw [he]
  exact ⟨hs.history, hs.conduits, hs.vars, hs.scrapes⟩

section
variable {t : Template} {visits : List (State × Span)} {out : Except Halt String × State}

theorem Rounds.framed (h : Rounds c t s visits out) (hs : Template.Separated t) :
    Framed s out.2 ∧ ∀ v ∈ visits, Framed s v.1 :=
  h.invariant hs (fun s' span hf => hf.trans (framed_runPortal c span s')) (.refl s)

theorem Rounds.scrapeEvents (h : Rounds c t s visits out) (hs : Template.Separated t) :
    out.2.events.filter (·.ofScrape) = s.events.filter (·.ofScrape) := by
  obtain ⟨es, he, hes⟩ := h.exists_events hs
  have hnone : es.filter (·.ofScrape) = [] :=
    List.filter_eq_nil_iff.2 fun e hm => Event.not_ofScrape_of_ofPortal (hes e hm)
  rw [he, List.filter_append, hnone, List.append_nil]

/-- The loop reports the links that its portals follow, each as the session reads it in which the
portal started. -/
theorem Rounds.linkEvents (h : Rounds c t s visits out) (hs : Template.Separated t) :
    out.2.events.filter (·.ofLink) = s.events.filter (·.ofLink) ++ visits.flatMap fun v =>
      (links c v.1.session v.2.fragment).flatMap v.1.session.linkEvents := by
  refine h.sum hs (f := fun s => s.events.filter (·.ofLink)) (q := fun _ => True)
    (fun _ => trivial) (fun s span _ => ?_) trivial
  obtain ⟨before, after, he, hbetween⟩ := events_runPortal c span s
  have hnone : ∀ es ⊆ before ++ after, es.filter (·.ofLink) = [] := fun es hes =>
    List.filter_eq_nil_iff.2 fun e hm => (hbetween e (hes hm)).2.1
  have hlinks : ((links c s.session span.fragment).flatMap s.session.linkEvents).filter (·.ofLink) =
      (links c s.session span.fragment).flatMap s.session.linkEvents := by
    refine List.filter_eq_self.2 fun e hm => ?_
    obtain ⟨link, -, hl⟩ := List.mem_flatMap.1 hm
    exact Session.ofLink_of_mem_linkEvents hl
  rw [he, List.filter_append, List.filter_cons_of_neg Bool.false_ne_true, List.filter_append,
    List.filter_append, hnone before (List.subset_append_left _ _),
    hnone after (List.subset_append_right _ _), hlinks, List.nil_append, List.append_nil]

end

end Run

section
variable {α : Type}

/-- The call executed the portals `visits`. It scraped once and before them, and what it left in the
session is what mounting and scraping left, but for the outcome of the last action. Each of these
portals started with this history and these conduits. So a link without an alias read its turn off the
history, and one with an alias off the conduit of that name, whatever had become of the live conversation
by then. -/
structure Outcome.Frames (o : Outcome α) (settings : Settings) (session : Session) (fixture : Fixture)
    (script : String) (c : Context) (visits : List (State × Span)) : Prop where
  scrapes : o.fixture.scrapes = fixture.scrapes + 1
  scrapeEvents : (o.events.map (·.event)).filter (·.ofScrape) = [fixture.scrapeReport]
  history : o.session.history =
    if fixture.scrapeError = none then fixture.history else session.history
  conduits : o.session.conduits =
    ((Mount.extract script).1.foldl (Session.commit settings fixture) session).conduits
  vars : ∀ name, name ≠ Session.lastActionStatus →
    o.session.vars.get? name = session.vars.get? name
  started : ∀ v ∈ visits, v.1.session.history = o.session.history ∧
    v.1.session.conduits = o.session.conduits
  readsHistory : ∀ v ∈ visits, ∀ l : TurnLink, l.conduit = none →
    v.1.session.lookup (.turn l) = LinkFailure.unlessEmpty (l.select o.session.history)
  readsConduit : ∀ v ∈ visits, ∀ (l : TurnLink) name, l.conduit = some name →
    v.1.session.lookup (.turn l) =
      match o.session.conduits.get? name with
      | some history => LinkFailure.unlessEmpty (l.select history)
      | none => .error (.unknownConduit name)
  follows : ∀ v ∈ visits, ∀ l token, ((Run.resolveLink l token).run v.1).1 =
    (v.1.session.lookup l).mapError fun reason => .soft ⟨token, reason⟩
  linkEvents : (o.events.map (·.event)).filter (·.ofLink) = visits.flatMap fun v =>
    (Run.links c v.1.session v.2.fragment).flatMap v.1.session.linkEvents

theorem Outcome.frames {settings : Settings} {session : Session} {fixture : Fixture} {script : String}
    {c : Context} {t : Template} {s : State} {visits : List (State × Span)}
    {out : Except Halt String × State} {o : Outcome α} {pass : Pass} {last : Event}
    (h : Run.Rounds c t s visits out) (ht : Template.Separated t)
    (hs : s.session = session.prepared settings fixture script)
    (hf : s.fixture.scrapes = fixture.scrapes + 1)
    (hlinks : s.events.filter (·.ofLink) = [])
    (hscrape : s.events.filter (·.ofScrape) = [fixture.scrapeReport])
    (hlast : ¬ last.ofPortal ∧ ¬ last.ofScrape) (hsession : o.session = out.2.session)
    (hfixture : o.fixture = out.2.fixture)
    (he : o.events = (out.2.events ++ [last]).map (⟨pass, ·⟩)) :
    o.Frames settings session fixture script c visits := by
  obtain ⟨hout, hvisits⟩ := h.framed ht
  have hstarted : ∀ v ∈ visits, v.1.session.history = o.session.history ∧
      v.1.session.conduits = o.session.conduits := by
    intro v hm
    rw [hsession, hout.history, hout.conduits]
    exact ⟨(hvisits v hm).history, (hvisits v hm).conduits⟩
  have hevents : o.events.map (·.event) = out.2.events ++ [last] := by
    rw [he, Run.map_event]
  refine ⟨?_, ?_, ?_, ?_, ?_, hstarted, fun v hm l hl => ?_, fun v hm l name hl => ?_,
    fun v hm l token => ?_, ?_⟩
  · rw [hfixture, hout.scrapes, hf]
  · rw [hevents, List.filter_append, h.scrapeEvents ht, hscrape,
      List.filter_cons_of_neg hlast.2, List.filter_nil, List.append_nil]
  · rw [hsession, hout.history, hs, Session.prepared_eq]
  · rw [hsession, hout.conduits, hs, Session.conduits_prepared]
  · intro name hn
    rw [hsession, hout.vars name hn, hs, Session.prepared_eq]
  · rw [Session.lookup_of_history hl, (hstarted v hm).1]
  · rw [Session.lookup_of_conduit hl, (hstarted v hm).2]
  · rw [Run.run_resolveLink_eq]
  · rw [hevents, List.filter_append, h.linkEvents ht, hlinks,
      List.filter_cons_of_neg fun hl => hlast.1 (Event.ofPortal_of_ofLink hl),
      List.filter_nil, List.append_nil, List.nil_append]

/-- A call scrapes once, every link of it reads the history and the conduits that mounting and scraping
left, and nothing else in the session changes but the outcome of the last action. -/
theorem call_frames (settings : Settings) (templates : String → Option String) (session : Session)
    (fixture : Fixture) (script : String) (overrides : Table String) :
    (∃ visits out, Run.Rounds ⟨settings, templates, ∅⟩ (.ofScript (Mount.extract script).2)
        (Run.primaryStart settings script { session, fixture }) visits out ∧
      (parse settings templates session fixture script).Frames settings session fixture script
        ⟨settings, templates, ∅⟩ visits) ∧
    ∃ visits out, Run.Rounds ⟨settings, templates, Override.standIns overrides⟩
        (Run.overridden overrides script).1
        (Run.retryStart settings overrides script { session, fixture }) visits out ∧
      (parseWithOverrides settings templates session fixture script overrides).Frames settings session
        fixture script ⟨settings, templates, Override.standIns overrides⟩ visits := by
  have hstart := Run.primaryStart_eq settings script { session, fixture }
  have hsession := congrArg State.session hstart
  have hscrapes := congrArg (·.fixture.scrapes) hstart
  have hscrape := Run.scrapeEvents_primaryStart settings script session fixture
  refine ⟨?_, ?_⟩
  · obtain ⟨visits, out, h, ho⟩ := parse_rounds settings templates session fixture script
    refine ⟨visits, out, h, ?_⟩
    have hlinks : (Run.primaryStart settings script { session, fixture }).events.filter (·.ofLink) =
        [] := List.filter_eq_nil_iff.2 fun e hm hl =>
      Run.not_ofPortal_of_mem_primaryStart hm (Event.ofPortal_of_ofLink hl)
    rw [ho]
    exact Outcome.frames h (Template.separated_ofScript _) hsession hscrapes hlinks hscrape
      (Run.finishReport_quiet _ _ _) rfl rfl rfl
  · obtain ⟨visits, out, h, ho⟩ :=
      parseWithOverrides_rounds settings templates session fixture script overrides
    refine ⟨visits, out, h, ?_⟩
    have hlinks : (Run.retryStart settings overrides script { session, fixture }).events.filter
        (·.ofLink) = [] := List.filter_eq_nil_iff.2 fun e hm hl =>
      Run.not_ofPortal_of_mem_retryStart hm (Event.ofPortal_of_ofLink hl)
    have hscrape' : (Run.retryStart settings overrides script { session, fixture }).events.filter
        (·.ofScrape) = [fixture.scrapeReport] := by
      show ((Run.primaryStart settings script { session, fixture }).events ++ [_]).filter _ = _
      rw [List.filter_append, hscrape]
      rfl
    rw [ho]
    exact Outcome.frames h (separated_overridden overrides script) hsession hscrapes hlinks hscrape'
      (Run.finishReport_quiet _ _ _) rfl rfl rfl

end

/-- A link reads a turn that an action of the call deleted, and one reads a conduit. -/
theorem call_frames_deleted :
    let session : Session := { conduits := ⟨[("c", [.user "kept"])]⟩ }
    let fixture : Fixture := { history := [.user "hello"] }
    let templates (id : String) := if id = "t" then some "\x7b\x7bv\x7d\x7d \x7b\x7bw\x7d\x7d" else none
    let script := "~\x7b\x7b~@USER-1:delete~\x7d\x7d~~\x7b\x7b~'t'[v: @USER-1, w: @c:USER-1]~\x7d\x7d~"
    let call := parse {} templates session fixture script
    call.result = .ok "hello kept" ∧ ∃ visits,
      call.Frames {} session fixture script ⟨{}, templates, ∅⟩ visits ∧
      ∃ v ∈ visits, v.1.fixture.history = [] ∧
        v.1.session.lookup (.turn ⟨none, ⟨.user, 1⟩, false⟩) = .ok "hello" ∧
        v.1.session.lookup (.turn ⟨some "c", ⟨.user, 1⟩, false⟩) = .ok "kept" := by
  intro session fixture templates script call
  let c : Context := ⟨{}, templates, ∅⟩
  let start := Run.primaryStart {} script { session, fixture }
  let first := (Template.ofScript (Mount.extract script).2).innermost.get (by decide +kernel)
  let deleted := ((Run.runPortal c (Run.resolve c) first).run start).2
  have hruns : ((Run.runPortal c (Run.resolve c) first).run start).1 = .ok "" ∧
      (first.splice "").innermost.isSome ∧ deleted.fixture.history = [] ∧
      call.result = .ok "hello kept" ∧ call.session.history = [.user "hello"] ∧
      call.session.conduits = ⟨[("c", [.user "kept"])]⟩ := by decide +kernel
  obtain ⟨hr, hsecond, hlive, hresult, hhistory, hconduits⟩ := hruns
  obtain ⟨⟨visits, out, h, hf⟩, -⟩ := call_frames {} templates session fixture script ∅
  have hdelete : (Run.runPortal c (Run.resolve c) first).run start = (.ok "", deleted) :=
    Prod.ext hr rfl
  obtain ⟨rest, rfl, hrest⟩ := h.exists_round (Option.some_get _).symm hdelete
  obtain ⟨second, hn⟩ := Option.isSome_iff_exists.1 hsecond
  obtain ⟨rest, rfl⟩ := hrest.exists_visits_eq_cons hn
  have hm : (deleted, second) ∈ (start, first) :: (deleted, second) :: rest :=
    List.mem_cons_of_mem _ List.mem_cons_self
  refine ⟨hresult, _, hf, _, hm, hlive, ?_, ?_⟩
  · rw [hf.readsHistory _ hm ⟨none, ⟨.user, 1⟩, false⟩ rfl, hhistory]
    decide
  · rw [hf.readsConduit _ hm ⟨some "c", ⟨.user, 1⟩, false⟩ "c" rfl, hconduits]
    decide

end PortalScript
