import PortalScript.Proofs.Resolution.Calm
import PortalScript.Proofs.Resolution.Closed

/-! # The portals that are executed

`Executes` tells which portals the resolution of a template comes to execute. An action reports that
it starts, and no report is taken back (`Grows`), so where none has been reported every executed portal
was a data portal. Then the template is resolved without a failure of a key just if all these portals
are sound (`Loops.spec`). -/

namespace PortalScript

/-- Whether the event says that an action starts. -/
def Event.startsAction : Event → Bool
  | actionStarted _ _ => true
  | _ => false

namespace Run
variable {c : Context} {s s' : State} {keys : List String} {α : Type}

/-- A part of a pass that only adds events. -/
def Grows (m : Run α) : Prop := ∀ s, s.events <+: (m.run s).2.events

theorem grows_perform (settings : Settings) (target : TurnRef) (r : Request) :
    Grows (perform settings target r) := by
  intro s
  unfold perform
  have hg : (get : Run State).run s = (s, s) := rfl
  rw [run_bind hg]
  split
  · exact List.prefix_rfl
  · split
    · exact List.prefix_rfl
    · exact List.prefix_rfl

theorem closed_grows : Closed Grows where
  pure _ _ := List.prefix_rfl
  bind hm hf s := (hm s).trans (hf _ _)
  emit _ _ := List.prefix_append _ _
  record _ _ := List.prefix_rfl
  lookup _ _ := List.prefix_rfl
  modifySession _ _ := List.prefix_rfl
  perform := grows_perform

theorem grows_resolveValue (raw : Fragment) : Grows (resolveValue literal raw) :=
  closed_grows.resolveValue (fun _ => closed_grows.pure _) raw

theorem actionStarted_isPrefix (settings : Settings) (p : ActionPortal) (s : State) :
    s.events ++ [.actionStarted p.targetLabel p.action.name] <+:
      ((executeAction settings (resolveValue literal) p).run s).2.events := by
  rw [executeAction, run_emit_bind]
  show ((emit (.actionStarted p.targetLabel p.action.name)).run s).2.events <+: _
  refine closed_grows.bind (closed_grows.act grows_resolveValue p) (fun r => ?_) _
  split <;>
    exact closed_grows.bind (closed_grows.modifySession _) fun _ =>
      closed_grows.bind (closed_grows.emit _) fun _ => closed_grows.pure _

theorem grows_runPortal (c : Context) (span : Span) : Grows (runPortal c literal span) :=
  closed_grows.runPortal (fun _ => closed_grows.pure _) span

/-- No action has been executed. -/
def NoAction (s : State) : Prop := ∀ e ∈ s.events, ¬ e.startsAction

theorem NoAction.mono (h : NoAction s') (hp : s.events <+: s'.events) : NoAction s :=
  fun e he => h e (hp.subset he)

theorem NoAction.not_action {span : Span} (h : NoAction ((runPortal c literal span).run s).2) :
    ∀ p, Portal.parse span.fragment ≠ .ok (.action p) := by
  intro p hp
  rw [runPortal, run_emit_bind, executePortal, hp] at h
  generalize ((emit (.portalStarted span.label)).run s).2 = s at h
  refine h.mono (s := ((executeAction c.settings (resolveValue literal) p).run s).2) ?_
    (.actionStarted p.targetLabel p.action.name) ?_ rfl
  · rcases hr : (executeAction c.settings (resolveValue literal) p).run s with ⟨r, s'⟩
    rw [run_bind hr]
    rcases r with (f | e) | text <;> exact List.prefix_append _ _
  · refine (actionStarted_isPrefix c.settings p s).subset ?_
    simp

/-- Resolving a template from a state comes to execute a portal. -/
inductive Executes (c : Context) : Template → State → Span → Prop
  | here {t : Template} {s : State} {span : Span} (hn : t.innermost = some span) : Executes c t s span
  | later {t : Template} {s s' : State} {span span' : Span} {text : String}
      (hn : t.innermost = some span) (hr : (runPortal c (resolve c) span).run s = (.ok text, s'))
      (h : Executes c (span.splice text) s' span') : Executes c t s span'

section
variable {t : Template} {span : Span} {out : Except Halt String × State}

theorem not_executes (hn : t.innermost = none) (span : Span) : ¬ Executes c t s span := by
  rintro (hn' | ⟨hn', -, -⟩) <;> simp [hn] at hn'

theorem forall_executes_iff (hn : t.innermost = some span) {p : Span → Prop} :
    (∀ span', Executes c t s span' → p span') ↔
      p span ∧ ∀ text s', (runPortal c (resolve c) span).run s = (.ok text, s') →
        ∀ span', Executes c (span.splice text) s' span' → p span' := by
  constructor
  · intro h
    exact ⟨h span (.here hn), fun text s' hr span' hs => h span' (.later hn hr hs)⟩
  · rintro ⟨h, hrest⟩ span' (hn' | ⟨hn', hr, hs⟩)
    · cases hn.symm.trans hn'
      exact h
    · cases hn.symm.trans hn'
      exact hrest _ _ hr _ hs

theorem Loops.events_isPrefix (h : Loops c t s out) (hs : Template.Separated t) :
    s.events <+: out.2.events := by
  induction h with
  | done hn => exact List.prefix_rfl
  | @halt t s s' span e hn hr =>
    have hg := grows_runPortal c span s
    rwa [← runPortal_resolve hs hn, hr] at hg
  | @round t s s' span text out hn hr hl ih =>
    have hg := grows_runPortal c span s
    rw [← runPortal_resolve hs hn, hr] at hg
    exact hg.trans (ih (hs.splice hn text))

theorem Loops.spec (h : Loops c t s out) (hs : Template.Separated t)
    (hu : Unreadable c s.session keys) (ha : NoAction out.2) :
    (∀ f, out.1 ≠ .error (.soft f)) ∧
      Spec c keys s out (∀ span, Executes c t s span → Sound c keys span.fragment) := by
  induction h with
  | done hn =>
    refine ⟨?_, .ok (.refl c _) rfl not_false fun span h => absurd h (not_executes hn span)⟩
    rintro f ⟨⟩
  | @halt t s s' span e hn hr =>
    have hr' := hr
    rw [runPortal_resolve hs hn] at hr'
    have hp := @spec_runPortal c s keys span hu (NoAction.not_action (by rw [hr']; exact ha))
    have hsoft := runPortal_ne_soft c literal span s
    rw [hr'] at hp hsoft
    refine ⟨hsoft, hp.congr .rfl ?_⟩
    rw [forall_executes_iff hn]
    refine ⟨And.left, fun h => ⟨h, fun text s'' hr'' => ?_⟩⟩
    rw [hr] at hr''
    cases hr''
  | @round t s s' span text out hn hr hl ih =>
    have hr' := hr
    rw [runPortal_resolve hs hn] at hr'
    have ha' : NoAction s' := ha.mono (hl.events_isPrefix (hs.splice hn text))
    have hp := @spec_runPortal c s keys span hu (NoAction.not_action (by rw [hr']; exact ha'))
    rw [hr'] at hp
    obtain ⟨hsoft, ih⟩ := ih (hs.splice hn text) (hu.of_calm hp.calm) ha
    refine ⟨hsoft, (hp.andThen not_false ih .rfl).congr .rfl ?_⟩
    rw [forall_executes_iff hn]
    refine and_congr_right fun _ => ⟨fun h => h text s' hr, fun h text' s'' hr'' => ?_⟩
    rw [hr] at hr''
    cases hr''
    exact h

end

end Run

end PortalScript
