import PortalScript.Proofs.Fixture.Handle
import PortalScript.Proofs.Resolution.Actions
import PortalScript.Proofs.Resolution.Frame
import PortalScript.Proofs.Table.Entries

/-! # What actions aim at

Links read the history that was scraped, actions find their turns in the live conversation. The two are
the same until a portal deletes or edits a turn (`Run.Rounds.history_before`), so an action finds its turn
just if a link to that turn can be read, and copies what such a link reads (`actions_aim`). -/

namespace PortalScript

theorem ActionRecord.effect_history {r : ActionRecord} (h : Action.ofName r.action ≠ .delete)
    (h' : Action.ofName r.action ≠ .edit) (s : History × Option String) : (r.effect s).1 = s.1 := by
  unfold effect
  dsimp only
  split
  · rfl
  split
  · rename_i hr
    exact absurd hr h
  · rename_i hr
    exact absurd hr h'
  · rfl
  · rfl

theorem ActionRecord.effect_copy {r : ActionRecord} {turn : Turn} {history : History}
    (h : Action.ofName r.action = .copy) (ht : r.target.select history = some turn)
    (clipboard : Option String) :
    (r.effect (history, clipboard)).2 = some (turn.copy (Table.lookup "format" r.params)) := by
  obtain ⟨i, hp, hi⟩ := TurnRef.select_eq_some_iff.1 ht
  simp only [effect, hp, hi, Option.bind_some, Option.map_some, h]

namespace Action
variable {vs : List (String × String)}

theorem exists_copy_request (vs : List (String × String)) : ∃ r, copy.request vs = .ok r := by
  rw [request]
  split
  · exact ⟨_, rfl⟩
  · exact ⟨_, rfl⟩

theorem lookup_format (h : (Table.lookup "format" vs).getD "text" = "text") :
    Table.lookup "format" (vs ++ copy.defaults vs) = some "text" := by
  rw [Table.lookup_append]
  cases hv : Table.lookup "format" vs with
  | some format =>
    rw [hv] at h
    exact congrArg some h
  | none =>
    unfold defaults
    dsimp only
    split <;> rename_i hany
    · obtain ⟨e, hm, he⟩ := List.any_eq_true.1 hany
      exact absurd (of_decide_eq_true he) (Table.lookup_eq_none_iff.1 hv e hm)
    · rfl

end Action

/-- What the link to the turn of an action reads is the visible text of that turn. -/
theorem ActionPortal.select_link {p : ActionPortal} {history : History} {text : String} :
    p.link.select history = .ok text ↔
      ∃ turn, p.target.select history = some turn ∧ turn.text = text := by
  have ht : p.link.target = p.target := rfl
  have hf : p.link.thoughts = false := rfl
  unfold TurnLink.select
  rw [ht, hf]
  rcases p.target.select history with - | (content | ⟨chat, thoughts⟩) <;> simp [Turn.text]

namespace Run
variable {c : Context} {s s' : State} {body : Fragment} {r : Except Halt String}

/-- The portal deletes or edits a turn. -/
def Rewrites (body : Fragment) : Prop :=
  ∃ p, Portal.parse body = .ok (.action p) ∧ (p.action = .delete ∨ p.action = .edit)

theorem Step.history (h : Step c s body r s') (hb : ¬ Rewrites body) :
    s'.fixture.history = s.fixture.history := by
  cases h with
  | @performed p vs request handle f hp hk hc hv hr hh hf =>
    show f.history = s.fixture.history
    have hname : Action.ofName request.action = p.action := by
      rw [Action.request_eq hr, Action.ofName_name hk]
    rw [Fixture.perform_eq_enact hh hf]
    refine ActionRecord.effect_history (fun ha => hb ⟨p, hp, .inl ?_⟩) (fun ha => hb ⟨p, hp, .inr ?_⟩) _
    · exact hname.symm.trans ha
    · exact hname.symm.trans ha
  | _ => rfl

theorem run_act_performed (settings : Settings) {p : ActionPortal} {vs : List (String × String)}
    {request : Request} {handle : Handle} {f : Fixture} (hk : p.action.isKnown) (hc : p.conduit = none)
    (hv : s.session.values p.params.entries = .ok vs) (hr : p.action.request vs = .ok request)
    (hh : s.fixture.find p.target = some handle) (hf : s.fixture.perform handle request = .ok f) :
    ((act settings (resolveValue literal) p).run s).1 = .ok () := by
  unfold act
  dsimp only
  split
  · rename_i name hn
    rw [hn] at hk
    cases hk
  · rw [hc, Option.isSome_none, if_neg Bool.false_ne_true]
    obtain ⟨res, hres, hvs⟩ := run_actionParams (s := s)
      (fun reason => .action ⟨p.targetLabel, p.action.name, reason⟩) p.params.entries
    obtain rfl := (hvs vs).2 hv
    have hperform := run_perform_eq settings p.target request
      (s.follow (s.session.links Except.isOk p.params.entries))
    have hh' : (s.follow (s.session.links Except.isOk p.params.entries)).fixture.find p.target =
      some handle := hh
    have hf' : (s.follow (s.session.links Except.isOk p.params.entries)).fixture.perform handle request =
      .ok f := hf
    simp only [hh', hf'] at hperform
    rw [run_bind hres]
    dsimp only
    rw [hr]
    dsimp only
    rw [run_bind hperform]
    rfl

theorem Step.eq_of_perform (h : Step c s body r s') {p : ActionPortal} {vs : List (String × String)}
    {request : Request} {handle : Handle} {f : Fixture} (hp : Portal.parse body = .ok (.action p))
    (hk : p.action.isKnown) (hc : p.conduit = none)
    (hv : s.session.values p.params.entries = .ok vs) (hr : p.action.request vs = .ok request)
    (hh : s.fixture.find p.target = some handle) (hf : s.fixture.perform handle request = .ok f) :
    r = .ok "" ∧ s'.fixture = f := by
  cases h with
  | malformed hp' | standIn hp' | unresolved hp' | expanded hp' | nothing hp' | missing hp' =>
    cases hp.symm.trans hp'
  | refused hp' ha =>
    cases hp.symm.trans hp'
    cases ha.symm.trans (run_act_performed c.settings hk hc hv hr hh hf)
  | performed hp' hk' hc' hv' hr' hh' hf' =>
    cases hp.symm.trans hp'
    cases hv.symm.trans hv'
    cases hr.symm.trans hr'
    cases hh.symm.trans hh'
    cases hf.symm.trans hf'
    exact ⟨rfl, rfl⟩

theorem runPortal_copy {span : Span} {p : ActionPortal} {vs : List (String × String)} {turn : Turn}
    (hp : Portal.parse span.fragment = .ok (.action p)) (ha : p.action = .copy) (hc : p.conduit = none)
    (hv : s.session.values p.params.entries = .ok vs)
    (hf : (Table.lookup "format" vs).getD "text" = "text")
    (hl : s.fixture.history.length ≤ Text.maxWord64)
    (ht : p.target.select s.fixture.history = some turn) :
    ∃ s', (runPortal c literal span).run s = (.ok "", s') ∧ s'.fixture.clipboard = some turn.text := by
  obtain ⟨handle, hh⟩ := Option.isSome_iff_exists.1 (Fixture.isSome_find_iff.2 (by rw [ht]; rfl))
  obtain ⟨request, hr⟩ := Action.exists_copy_request vs
  have hrequest := Action.request_eq hr
  have hformat := Action.lookup_format hf
  have hrefusal : request.refusal? = none := by
    rw [hrequest, Request.refusal?]
    simp [Request.param?, hformat, Action.name, Action.ofName]
  have hperform := Fixture.perform_of_find hh hl request
  rw [hrefusal] at hperform
  obtain ⟨r, s', h, he⟩ := run_runPortal c span s
  obtain ⟨rfl, hfixture⟩ := h.eq_of_perform hp (ha ▸ rfl) hc hv (ha ▸ hr) hh hperform
  refine ⟨_, he, ?_⟩
  show s'.fixture.clipboard = _
  rw [hfixture, Fixture.enact]
  dsimp only
  rw [ActionRecord.effect_copy (by rw [hrequest]; rfl) ht, hrequest, hformat]
  rfl

variable {t : Template} {visits before after : List (State × Span)} {out : Except Halt String × State}
  {v : State × Span}

/-- Until a portal deletes or edits a turn, the live conversation is the one with which the loop
started. -/
theorem Rounds.history_before (h : Rounds c t s visits out) (hs : Template.Separated t)
    (hv : visits = before ++ v :: after) (hq : ∀ u ∈ before, ¬ Rewrites u.2.fragment) :
    v.1.fixture.history = s.fixture.history := by
  refine h.invariant_before hs (P := fun s' => s'.fixture.history = s.fixture.history)
    (q := fun span => ¬ Rewrites span.fragment) (fun s' span hb hp => ?_) rfl hv hq
  obtain ⟨r, s'', h', he⟩ := run_runPortal c span s'
  rw [he]
  exact (h'.history hb).trans hp

/-- An action aims at the turn that the link with its target reads: it finds one just if the link can be
read, and copying as text puts on the clipboard what the link reads, be it empty. -/
structure Aims (c : Context) (v : State × Span) (p : ActionPortal) : Prop where
  found : (v.1.fixture.find p.target).isSome ↔ ∃ text, v.1.session.read (.turn p.link) = .ok text
  copied : p.action = .copy → ∀ vs text, v.1.session.values p.params.entries = .ok vs →
    (Table.lookup "format" vs).getD "text" = "text" → v.1.session.read (.turn p.link) = .ok text →
    ∃ s', (runPortal c (resolve c) v.2).run v.1 = (.ok "", s') ∧ s'.fixture.clipboard = some text

theorem aims_of_history {p : ActionPortal} (hp : Portal.parse v.2.fragment = .ok (.action p))
    (hc : p.conduit = none) (hrun : runPortal c (resolve c) v.2 = runPortal c literal v.2)
    (hh : v.1.session.history = v.1.fixture.history)
    (hl : v.1.fixture.history.length ≤ Text.maxWord64) : Aims c v p := by
  have hread : v.1.session.read (.turn p.link) = p.link.select v.1.fixture.history := by
    have hconduit : p.link.conduit = none := hc
    rw [Session.read, Session.historyOf, hconduit]
    exact congrArg p.link.select hh
  refine ⟨?_, fun ha vs text hv hf ht => ?_⟩
  · rw [Fixture.isSome_find_iff, hread, Option.isSome_iff_exists]
    constructor
    · rintro ⟨turn, ht⟩
      exact ⟨turn.text, ActionPortal.select_link.2 ⟨turn, ht, rfl⟩⟩
    · rintro ⟨text, ht⟩
      obtain ⟨turn, ht, -⟩ := ActionPortal.select_link.1 ht
      exact ⟨turn, ht⟩
  · rw [hread] at ht
    obtain ⟨turn, hturn, rfl⟩ := ActionPortal.select_link.1 ht
    rw [hrun]
    exact runPortal_copy hp ha hc hv hf hl hturn

/-- Until one of the portals deletes or edits a turn, their actions on the live conversation aim at what
links read. -/
def AimUntilRewrite (c : Context) (visits : List (State × Span)) : Prop :=
  ∀ before v after, visits = before ++ v :: after → (∀ u ∈ before, ¬ Rewrites u.2.fragment) →
    ∀ p, Portal.parse v.2.fragment = .ok (.action p) → p.conduit = none → Aims c v p

theorem Rounds.aim (h : Rounds c t s visits out) (hs : Template.Separated t)
    (hh : s.session.history = s.fixture.history) (hl : s.fixture.history.length ≤ Text.maxWord64) :
    AimUntilRewrite c visits := by
  intro before v after hv hq p hp hc
  have hm : v ∈ visits := hv ▸ List.mem_append_right _ List.mem_cons_self
  have hlive := h.history_before hs hv hq
  have hsession : v.1.session.history = v.1.fixture.history := by
    rw [((h.framed hs).2 v hm).history, hh, hlive]
  exact aims_of_history hp hc (h.runPortal_eq hs v hm) hsession (hlive ▸ hl)

end Run

/-- A turn is found just if it can be selected, and a handle names that turn until the history changes: no
request on it is refused as stale or absent. So in a call that scrapes, until an action deletes or edits a
turn, actions on the live conversation aim at the turns that links read. Handles spell places as words, and
no history is longer than there are words. -/
theorem actions_aim (fixture : Fixture) (hl : fixture.history.length ≤ Text.maxWord64) :
    (∀ target, ((fixture.find target).isSome ↔ (target.select fixture.history).isSome) ∧
      ∀ handle, fixture.find target = some handle → ∀ fixture' : Fixture,
        fixture'.history = fixture.history → fixture'.Reaches target handle) ∧
    ∀ (settings : Settings) (templates : String → Option String) (session : Session) (script : String)
      (overrides : Table String), fixture.scrapeError = none →
      (∃ visits out, Run.Rounds ⟨settings, templates, ∅⟩ (.ofScript (Mount.extract script).2)
          (Run.primaryStart settings script { session, fixture }) visits out ∧
        parse settings templates session fixture script = Run.primaryOutcome out ∧
        Run.AimUntilRewrite ⟨settings, templates, ∅⟩ visits) ∧
      ∃ visits out, Run.Rounds ⟨settings, templates, Override.standIns overrides⟩
          (Run.overridden overrides script).1
          (Run.retryStart settings overrides script { session, fixture }) visits out ∧
        parseWithOverrides settings templates session fixture script overrides =
          Run.retryOutcome out ∧
        Run.AimUntilRewrite ⟨settings, templates, Override.standIns overrides⟩ visits := by
  refine ⟨fun target => ⟨Fixture.isSome_find_iff, fun handle hh fixture' hf => ?_⟩,
    fun settings templates session script overrides hscrape => ?_⟩
  · exact Fixture.reaches_of_find ((Fixture.find_congr hf target).trans hh) (hf ▸ hl)
  have hstart := Run.primaryStart_eq settings script { session, fixture }
  have hretry := Run.retryStart_eq settings overrides script { session, fixture }
  have hlive : (Run.primaryStart settings script { session, fixture }).session.history =
      (Run.primaryStart settings script { session, fixture }).fixture.history := by
    rw [hstart]
    show (session.prepared settings fixture script).history = fixture.history
    rw [Session.prepared_eq]
    exact if_pos hscrape
  refine ⟨?_, ?_⟩
  · obtain ⟨visits, out, h, ho⟩ := parse_rounds settings templates session fixture script
    exact ⟨visits, out, h, ho,
      h.aim (Template.separated_ofScript _) hlive (by rw [hstart]; exact hl)⟩
  · obtain ⟨visits, out, h, ho⟩ :=
      parseWithOverrides_rounds settings templates session fixture script overrides
    exact ⟨visits, out, h, ho, h.aim (separated_overridden overrides script)
      (by rw [hretry]; exact hlive) (by rw [hretry, hstart]; exact hl)⟩

/-- An empty turn is found and copied, in place of what was on the clipboard. -/
theorem empty_turn_copied :
    let fixture : Fixture := { history := [.user "", .ai "answer" ""], clipboard := some "old" }
    let start := Run.primaryStart {} "~\x7b\x7b~@USER-1:copy~\x7d\x7d~" { session := {}, fixture }
    fixture.Reaches ⟨.user, 1⟩ ⟨⟨.user, 1⟩, "0"⟩ ∧
      ∃ span s', (Run.runPortal ⟨{}, fun _ => none, ∅⟩ (Run.resolve ⟨{}, fun _ => none, ∅⟩) span).run start =
        (.ok "", s') ∧ s'.fixture.clipboard = some "" := by
  intro fixture start
  obtain ⟨hreaches, hcall⟩ := actions_aim fixture (by decide)
  refine ⟨(hreaches ⟨.user, 1⟩).2 _ (by decide +kernel) fixture rfl, ?_⟩
  obtain ⟨⟨visits, out, h, -, haim⟩, -⟩ :=
    hcall {} (fun _ => none) {} "~\x7b\x7b~@USER-1:copy~\x7d\x7d~" ∅ rfl
  have hparse : ((Template.ofScript (Mount.extract "~\x7b\x7b~@USER-1:copy~\x7d\x7d~").2).innermost.map
      fun span => Portal.parse span.fragment) =
        some (.ok (.action ⟨none, ⟨.user, 1⟩, .copy, ∅⟩)) := by
    decide +kernel
  obtain ⟨span, hn, hp⟩ := Option.map_eq_some_iff.1 hparse
  obtain ⟨rest, hvisits⟩ := h.exists_visits_eq_cons hn
  have haims := haim [] (start, span) rest hvisits (by simp) _ hp rfl
  have hread : start.session.read (.turn ⟨none, ⟨.user, 1⟩, false⟩) = .ok "" := by decide +kernel
  obtain ⟨s', hrun, hclipboard⟩ := haims.copied rfl [] "" rfl rfl hread
  exact ⟨span, s', hrun, hclipboard⟩

end PortalScript
