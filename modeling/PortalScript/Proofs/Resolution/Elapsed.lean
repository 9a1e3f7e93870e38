import PortalScript.Proofs.Resolution.Mounted
import PortalScript.Proofs.Resolution.Reports

/-! # How long a call takes

A call waits for the conversations it fetches, all at the same time, and then behind every action that
was performed. A portal takes the settling time just as often as it reports that an action succeeded
(`elapsed_runPortal`), so the loop takes it as often as that is reported (`Rounds.elapsed`), and before
the loop there is only the longest of the fetches. -/

namespace PortalScript

/-- Whether the event says that an action succeeded. -/
def Event.succeedsAction : Event → Bool
  | actionSucceeded _ _ => true
  | _ => false

theorem Event.not_succeedsAction_of_not_ofPortal {e : Event} (h : ¬ e.ofPortal) :
    ¬ e.succeedsAction := by
  cases e <;> simp_all [ofPortal, ofLink, ofAction, succeedsAction]

theorem Event.not_succeedsAction_of_ofLink {e : Event} (h : e.ofLink) : ¬ e.succeedsAction := by
  cases e <;> simp_all [ofLink, succeedsAction]

/-- How long a directive takes to be fetched or given up by pauses that last as long as they are asked to. -/
def Mount.delay (settings : Settings) (f : Fixture) (m : Mount) : Nat :=
  match settings.mountTimeout with
  | none => f.delay m.source
  | some limit => min (f.delay m.source) limit

namespace Settings
variable {settings : Settings} (h : settings.timer.Exact)
include h

theorem settleTime_of_exact : settings.settleTime = settings.settle := by
  unfold settleTime
  split <;> rename_i hs
  · exact hs.symm
  · exact h _

theorem fetchTime_of_exact (f : Fixture) (m : Mount) :
    settings.fetchTime f m.source = m.delay settings f := by
  unfold fetchTime Mount.delay
  cases settings.mountTimeout with
  | none => exact f.fetchDelay_of_exact h m.source
  | some limit => exact congrArg₂ min (f.fetchDelay_of_exact h m.source) (h limit)

end Settings

namespace Run
variable {c : Context} {s s' : State} {body : Fragment} {r : Except Halt String}

theorem fetchTime_of_exact {settings : Settings} (h : settings.timer.Exact) (f : Fixture)
    (mounts : List Mount) :
    fetchTime settings f mounts = (mounts.map (Mount.delay settings f)).max?.getD 0 := by
  have hmax : (mounts.map (Mount.delay settings f)).foldl max 0 =
      max 0 ((mounts.map (Mount.delay settings f)).max?.getD 0) := List.foldl_max
  rw [Nat.zero_max] at hmax
  rw [← hmax, fetchTime]
  simp only [Settings.fetchTime_of_exact h]

/-- How often it is reported that an action succeeded. -/
def successes (es : List Event) : Nat := es.countP (·.succeedsAction)

@[simp] theorem successes_append (es es' : List Event) :
    successes (es ++ es') = successes es + successes es' := List.countP_append

theorem successes_links (session : Session) (links : List (Link × String)) :
    successes (links.flatMap session.linkEvents) = 0 := by
  refine List.countP_eq_zero.2 fun e he => ?_
  obtain ⟨link, -, hl⟩ := List.mem_flatMap.1 he
  exact Event.not_succeedsAction_of_ofLink (Session.ofLink_of_mem_linkEvents hl)

theorem successes_eq_zero {es : List Event} (h : ∀ e ∈ es, ¬ e.ofPortal) : successes es = 0 :=
  List.countP_eq_zero.2 fun e he => Event.not_succeedsAction_of_not_ofPortal (h e he)

/-- Only an action that is performed takes time, and it is the only portal to report a success. -/
theorem Step.elapsed (h : Step c s body r s') : s'.elapsed =
    s.elapsed + c.settings.settleTime * successes (innerEvents c s.session body r) := by
  have hlinks := successes_links s.session (links c s.session body)
  cases h with
  | malformed hp => simp [innerEvents, hp, hlinks]
  | standIn hp hs => simp [innerEvents, hp, hlinks]
  | unresolved hp | expanded hp | nothing hp | missing hp =>
    simp [innerEvents, hp, hlinks, State.follow]
  | @refused p e hp ha =>
    have hn : successes (innerEvents c s.session body (.error (.hard e))) = 0 := by
      simp only [innerEvents, hp, actionReport]
      rw [← List.singleton_append, successes_append, successes_append, hlinks]
      rfl
    rw [hn]
    rfl
  | @performed p vs request handle f hp hk hc hv hr hh hf =>
    have hn : successes (innerEvents c s.session body (.ok "")) = 1 := by
      simp only [innerEvents, hp, actionReport]
      rw [← List.singleton_append, successes_append, successes_append, hlinks]
      rfl
    rw [hn, Nat.mul_one]

theorem elapsed_runPortal (c : Context) (span : Span) (s : State) :
    ((runPortal c literal span).run s).2.elapsed =
      s.elapsed + c.settings.settleTime * successes (portalEvents c (s, span)) := by
  have hreport : successes [portalReport span (executed c (s, span)).1] = 0 := by
    rcases (executed c (s, span)).1 with e | text <;> rfl
  have hn : successes (portalEvents c (s, span)) =
      successes (innerEvents c s.session span.fragment (executed c (s, span)).1) := by
    rw [portalEvents, ← List.singleton_append, successes_append, successes_append, hreport]
    exact Nat.zero_add _
  rw [run_runPortal_eq, hn]
  exact (step_executed c (s, span)).elapsed

theorem Rounds.elapsed {t : Template} {visits : List (State × Span)}
    {out : Except Halt String × State} (h : Rounds c t s visits out) (hs : Template.Separated t) :
    out.2.elapsed + c.settings.settleTime * successes s.events =
      s.elapsed + c.settings.settleTime * successes out.2.events := by
  refine (h.invariant hs (P := fun s' =>
    s'.elapsed + c.settings.settleTime * successes s.events =
      s.elapsed + c.settings.settleTime * successes s'.events) ?_ rfl).1
  intro s' span hinv
  rw [elapsed_runPortal, events_runPortal_eq, successes_append, Nat.mul_add]
  omega

end Run

section
variable {α : Type}

/-- How often the call reports that an action succeeded. -/
def Outcome.successes (o : Outcome α) : Nat := Run.successes (o.events.map (·.event))

/-- The call took the time of its fetches, and some for every action that succeeded. -/
def Outcome.Lasts (o : Outcome α) (fetches settling : Nat) : Prop :=
  o.elapsed = fetches + settling * o.successes

theorem Outcome.lasts {settings : Settings} {fixture : Fixture} {mounts : List Mount}
    {c : Context} {t : Template} {s : State} {visits : List (State × Span)}
    {out : Except Halt String × State} {o : Outcome α} {pass : Pass} {last : Event}
    (h : Run.Rounds c t s visits out) (hs : Template.Separated t) (hc : c.settings = settings)
    (hstart : s.elapsed = Run.fetchTime settings fixture mounts)
    (hquiet : ∀ e ∈ s.events, ¬ e.ofPortal) (hlast : ¬ last.ofPortal)
    (helapsed : o.elapsed = out.2.elapsed)
    (he : o.events = (out.2.events ++ [last]).map (⟨pass, ·⟩)) :
    o.Lasts (Run.fetchTime settings fixture mounts) settings.settleTime := by
  have hsuccesses : o.successes = Run.successes out.2.events := by
    have hl : Run.successes [last] = 0 := Run.successes_eq_zero (by simpa using hlast)
    rw [Outcome.successes, he, Run.map_event, Run.successes_append, hl, Nat.add_zero]
  have hloop := h.elapsed hs
  rw [hc, Run.successes_eq_zero hquiet, hstart] at hloop
  rw [Outcome.Lasts, helapsed, hsuccesses]
  omega

theorem calls_last (settings : Settings) (templates : String → Option String) (session : Session)
    (fixture : Fixture) (script : String) (overrides : Table String) :
    (parse settings templates session fixture script).Lasts
        (Run.fetchTime settings fixture (Mount.extract script).1) settings.settleTime ∧
      (parseWithOverrides settings templates session fixture script overrides).Lasts
        (Run.fetchTime settings fixture (Mount.extract script).1) settings.settleTime := by
  have hstart := congrArg State.elapsed (Run.primaryStart_eq settings script { session, fixture })
  rw [Nat.zero_add] at hstart
  constructor
  · obtain ⟨visits, out, h, ho⟩ := parse_rounds settings templates session fixture script
    rw [ho]
    exact Outcome.lasts h (Template.separated_ofScript _) rfl hstart
      (fun e => Run.not_ofPortal_of_mem_primaryStart) (Run.finishReport_quiet _ _ _).1 rfl rfl
  · obtain ⟨visits, out, h, ho⟩ :=
      parseWithOverrides_rounds settings templates session fixture script overrides
    rw [ho]
    exact Outcome.lasts h (separated_overridden overrides script) rfl hstart
      (fun e => Run.not_ofPortal_of_mem_retryStart) (Run.finishReport_quiet _ _ _).1 rfl rfl

/-- Where pauses last as long as they are asked to, every call, whatever comes of it, takes as long as the
longest fetch of a directive, given up at the timeout, and the settling delay for each action that
succeeded. -/
theorem elapsed_exact {settings : Settings} (h : settings.timer.Exact)
    (templates : String → Option String) (session : Session) (fixture : Fixture) (script : String)
    (overrides : Table String) :
    (parse settings templates session fixture script).Lasts
        (((Mount.extract script).1.map (Mount.delay settings fixture)).max?.getD 0) settings.settle ∧
      (parseWithOverrides settings templates session fixture script overrides).Lasts
        (((Mount.extract script).1.map (Mount.delay settings fixture)).max?.getD 0)
        settings.settle := by
  rw [← Run.fetchTime_of_exact h, ← Settings.settleTime_of_exact h]
  exact calls_last settings templates session fixture script overrides

end

/-- A fetch that is given up, one that is shorter, an action that succeeds and one that ends the call. -/
theorem elapsed_exact_aborted :
    let settings : Settings := { settle := 5, mountTimeout := some 20, timer := ⟨id⟩ }
    let fixture : Fixture := {
      history := [.user "hello"]
      conversations := ⟨[("far", []), ("near", [])]⟩
      fetchDelays := ⟨[("far", 30), ("near", 10)]⟩ }
    let script := "#> mount['a'] from 'far'\n#> mount['b'] from 'near'\n" ++
      "~\x7b\x7b~@USER-1:delete~\x7d\x7d~~\x7b\x7b~@USER-1:delete~\x7d\x7d~"
    let call := parse settings (fun _ => none) {} fixture script
    settings.timer.Exact ∧ ¬ call.result.isOk ∧ call.elapsed = 25 := by
  intro settings fixture script call
  have hexact : settings.timer.Exact := fun _ => rfl
  obtain ⟨hlasts, -⟩ := elapsed_exact hexact (fun _ => none) {} fixture script ∅
  have hcall : ¬ call.result.isOk ∧
      ((Mount.extract script).1.map (Mount.delay settings fixture)).max?.getD 0 +
        settings.settle * call.successes = 25 := by decide +kernel
  rw [Outcome.Lasts, hcall.2] at hlasts
  exact ⟨hexact, hcall.1, hlasts⟩

end PortalScript
