import PortalScript.Proofs.Resolution.Retry
import PortalScript.Proofs.Resolution.Reports
import PortalScript.Proofs.Resolution.Unnoticed
import PortalScript.Proofs.Template.Occurrence

/-! # Where the two passes agree

An override of a link that does not occur in the script replaces nothing (`apply_eq_self`), and one of a
template that no executed portal expands stands in for nothing (`resolve_congr`). Where no override
does more, the retry resolves the same template as the primary pass and in the same way. It starts with
one event more, which a resolution does not notice (`commutes_precede`), and it reports the failures as
warnings. So the two passes tell the same in the end (`passes_agree`). -/

namespace PortalScript

/-- The token of the template that the portal expands. -/
def Span.templateToken? (span : Span) : Option String :=
  match Portal.parse span.fragment with
  | .ok (.data p) => some (Run.templateToken p.id)
  | _ => none

namespace Override
variable {key text replacement : String} {overrides : Table String}

/-- The key occurs in the text as a whole token. -/
def Occurs (key text : String) : Prop :=
  key.toList ≠ [] ∧ ∃ u v, text.toList = u ++ (key.toList ++ v) ∧ Template.WholeToken u v

theorem occurs_iff :
    Occurs key text ↔ key.toList ≠ [] ∧ (Template.cutToken? key.toList none text.toList).isSome := by
  refine and_congr_right fun hk => ⟨?_, fun h => ?_⟩
  · rintro ⟨u, v, ht, hw⟩
    by_contra h
    refine Template.cutToken?_none hk (Option.not_isSome_iff_eq_none.1 h) ht ?_
    rw [Option.or_none]
    exact hw
  · obtain ⟨⟨u, v⟩, hc⟩ := Option.isSome_iff_exists.1 h
    obtain ⟨hu, hv, -⟩ := Template.cutToken?_some hc
    rw [Option.or_none] at hu
    refine ⟨u, v, ?_, hu, hv⟩
    rw [← List.append_assoc]
    exact Template.eq_append_of_cutToken? hc

instance (key text : String) : Decidable (Occurs key text) := decidable_of_iff _ occurs_iff.symm

theorem substitute_eq_self (h : ¬ Occurs key text) (replacement : String) :
    (Template.ofScript text).substitute key replacement = (.ofScript text, 0) := by
  unfold Template.substitute Template.ofScript
  rw [Template.substituteChars, Template.substituteChars]
  dsimp only
  cases hk : key.toList with
  | nil => rfl
  | cons c cs =>
    have hc : Template.cutToken? (c :: cs) none text.toList = none := by
      rw [← hk]
      by_contra hc
      exact h (occurs_iff.2 ⟨by simp [hk], Option.isSome_iff_ne_none.2 hc⟩)
    dsimp only
    rw [Template.substituteSource_of_none hc]
    rfl

theorem applyAll_eq_self {es : List (String × String)} (h : ∀ e ∈ es, ¬ Occurs e.1 text) :
    applyAll es (.ofScript text) = (.ofScript text, 0) := by
  induction es with
  | nil => rfl
  | cons e es ih =>
    rw [applyAll, substitute_eq_self (h e List.mem_cons_self)]
    dsimp only
    rw [ih fun e he => h e (List.mem_cons_of_mem _ he)]
    rfl

theorem apply_eq_self (h : ∀ key ∈ overrides.keys, ¬ isTemplateToken key → ¬ Occurs key text) :
    apply overrides (.ofScript text) = (.ofScript text, 0) := by
  refine applyAll_eq_self fun e he => ?_
  have he' := List.mem_mergeSort.1 he
  obtain ⟨hm, ht⟩ := List.mem_filter.1 he'
  exact h e.1 (List.mem_map.2 ⟨e, hm, rfl⟩) (by simpa using ht)

end Override

namespace Run
variable {settings : Settings} {templates : String → Option String} {standIns standIns' : Table String}
  {c : Context} {t : Template} {s s' : State} {span : Span} {out : Except Halt String × State}

/-- The same stands in for a portal, if anything does. -/
def SameStandIn (standIns standIns' : Table String) (span : Span) : Prop :=
  ∀ token ∈ span.templateToken?, standIns.get? token = standIns'.get? token

/-- A portal reads the stand-ins only to look up its own. -/
theorem runPortal_congr (h : SameStandIn standIns standIns' span)
    (nested : Template → Run (Except Halt String)) :
    runPortal ⟨settings, templates, standIns⟩ nested span =
      runPortal ⟨settings, templates, standIns'⟩ nested span := by
  have hbody : executePortal ⟨settings, templates, standIns⟩ nested span.fragment =
      executePortal ⟨settings, templates, standIns'⟩ nested span.fragment := by
    unfold executePortal
    cases hp : Portal.parse span.fragment with
    | error e => rfl
    | ok p =>
      cases p with
      | action p => rfl
      | data p =>
        have hs := h (templateToken p.id) (by simp [Span.templateToken?, hp])
        dsimp only
        unfold executeData
        dsimp only
        rw [hs]
        rfl
  rw [runPortal, runPortal, hbody]

theorem Loops.congr (h : Loops ⟨settings, templates, standIns⟩ t s out) (ht : Template.Separated t)
    (hs : ∀ span, Executes ⟨settings, templates, standIns⟩ t s span →
      SameStandIn standIns standIns' span) :
    Loops ⟨settings, templates, standIns'⟩ t s out := by
  have hrun {t : Template} {s : State} {span : Span} (ht : Template.Separated t)
      (hn : t.innermost = some span)
      (hs : ∀ span, Executes ⟨settings, templates, standIns⟩ t s span →
        SameStandIn standIns standIns' span) :
      runPortal ⟨settings, templates, standIns⟩ (resolve ⟨settings, templates, standIns⟩) span =
        runPortal ⟨settings, templates, standIns'⟩ (resolve ⟨settings, templates, standIns'⟩) span := by
    rw [runPortal_resolve ht hn, runPortal_resolve ht hn, runPortal_congr (hs span (.here hn))]
  induction h with
  | done hn => exact .done hn
  | halt hn hr => exact .halt hn (hrun ht hn hs ▸ hr)
  | round hn hr hl ih =>
    refine .round hn (hrun ht hn hs ▸ hr) (ih (ht.splice hn _) fun span he => ?_)
    exact hs span (.later hn hr he)

theorem resolve_congr (ht : Template.Separated t)
    (hs : ∀ span, Executes ⟨settings, templates, standIns⟩ t s span →
      SameStandIn standIns standIns' span) :
    (resolve ⟨settings, templates, standIns⟩ t).run s =
      (resolve ⟨settings, templates, standIns'⟩ t).run s :=
  ((loops_resolve ht s).congr ht hs).unique (loops_resolve ht s)

theorem precede_injective {past : List Event} (h : s.precede past = s'.precede past) : s = s' := by
  obtain ⟨session, fixture, failures, events, elapsed⟩ := s
  obtain ⟨session', fixture', failures', events', elapsed'⟩ := s'
  simpa [State.precede] using h

theorem resolve_eq_of_precede {c' : Context} (past : List Event)
    (h : (resolve c t).run (s.precede past) = (resolve c' t).run (s.precede past)) :
    (resolve c t).run s = (resolve c' t).run s := by
  rw [commutes_precede past c t s, commutes_precede past c' t s] at h
  obtain ⟨hresult, hstate⟩ := Prod.mk.inj h
  exact Prod.ext hresult (precede_injective hstate)

/-- It is enough that the portals have the same stand-ins that are executed with some of them and after
some events. -/
theorem resolve_congr_precede (past past' : List Event) (ht : Template.Separated t)
    (hs : (∀ span, Executes ⟨settings, templates, standIns⟩ t (s.precede past) span →
        SameStandIn standIns standIns' span) ∨
      ∀ span, Executes ⟨settings, templates, standIns'⟩ t (s.precede past') span →
        SameStandIn standIns standIns' span) :
    (resolve ⟨settings, templates, standIns⟩ t).run s =
      (resolve ⟨settings, templates, standIns'⟩ t).run s := by
  rcases hs with hs | hs
  · exact resolve_eq_of_precede past (resolve_congr ht hs)
  · have hs' : ∀ span, Executes ⟨settings, templates, standIns'⟩ t (s.precede past') span →
        SameStandIn standIns' standIns span := fun span he token hm => (hs span he token hm).symm
    exact (resolve_eq_of_precede past' (resolve_congr ht hs')).symm

end Run

/-- The outcome of a primary pass and that of a retry tell the same: the texts, the failures and what
ends the call correspond, and the reports are the same but for the pass, the record of the overrides
and the last. -/
structure Outcome.Agrees (first : Outcome String) (second : Outcome Resolution) : Prop where
  session : second.session = first.session
  fixture : second.fixture = first.fixture
  elapsed : second.elapsed = first.elapsed
  resolved : ∀ text, first.result = .ok text ↔ second.result = .ok ⟨text, []⟩
  unresolved : ∀ failures, first.result = .error (.unresolved failures) ↔
    failures ≠ [] ∧ ∃ text, second.result = .ok ⟨text, failures⟩
  hard : ∀ e, first.result = .error (.hard e) ↔ second.result = .error (.hard e)
  events : ∃ before after last last',
    first.events = (before ++ (after ++ [last])).map (⟨.primary, ·⟩) ∧
    second.events = (before ++ .overridesApplied 0 :: (after ++ [last'])).map (⟨.retry, ·⟩) ∧
    Event.EndsParse last ∧ Event.EndsParse last'

theorem Run.endsParse_finishReport {α : Type} (text : α → String) (warnings : α → Nat)
    (result : Except CallError α) : Event.EndsParse (finishReport text warnings result) := by
  cases result with
  | ok a => exact .completed _ _
  | error e => exact .failed _

section
variable {out : Except Halt String × State}

theorem Run.agrees (hsoft : ∀ f, out.1 ≠ .error (.soft f)) (past : List Event) :
    (primaryOutcome (out.1, out.2.precede past)).Agrees
      (retryOutcome (out.1, out.2.precede (past ++ [.overridesApplied 0]))) where
  session := rfl
  fixture := rfl
  elapsed := rfl
  resolved text := by
    show primaryResult out = .ok text ↔ retryResult out = .ok ⟨text, []⟩
    rw [primaryResult_eq_ok_iff, retryResult_eq_ok_iff]
  unresolved failures := by
    show primaryResult out = .error (.unresolved failures) ↔
      failures ≠ [] ∧ ∃ text, retryResult out = .ok ⟨text, failures⟩
    simp only [primaryResult_eq_unresolved_iff hsoft, retryResult_eq_ok_iff, exists_and_right]
  hard e := primaryResult_eq_hard_iff.trans retryResult_eq_hard_iff.symm
  events := by
    have hlast := endsParse_finishReport id (fun _ => 0) (primaryResult out)
    have hlast' := endsParse_finishReport (·.text) (·.warnings.length) (retryResult out)
    refine ⟨past, out.2.events, _, _, ?_, ?_, hlast, hlast'⟩
    · exact congrArg (List.map _) (List.append_assoc _ _ _)
    · show (past ++ [Event.overridesApplied 0] ++ out.2.events ++ [_]).map _ = _
      rw [List.append_assoc, List.append_assoc, List.singleton_append]
      rfl

end

/-- Take overrides whose links do not occur in the script and whose templates are none that either pass
expands. The two passes then agree: they leave the same session and the same fixture after the same time,
one gives a text just if the other gives it without warnings, one reports failures just if the other has
them as warnings, and a hard failure of one is that of the other. -/
theorem passes_agree {settings : Settings} {templates : String → Option String} {session : Session}
    {fixture : Fixture} {script : String} {overrides : Table String}
    (hlinks : ∀ key ∈ overrides.keys, ¬ Override.isTemplateToken key →
      ¬ Override.Occurs key (Mount.extract script).2)
    (htemplates :
      (∀ span, Run.Executes ⟨settings, templates, ∅⟩ (.ofScript (Mount.extract script).2)
          (Run.primaryStart settings script { session, fixture }) span →
        ∀ token ∈ span.templateToken?, token ∉ overrides.keys) ∨
      ∀ span, Run.Executes ⟨settings, templates, Override.standIns overrides⟩
          (Run.overridden overrides script).1
          (Run.retryStart settings overrides script { session, fixture }) span →
        ∀ token ∈ span.templateToken?, token ∉ overrides.keys) :
    (parse settings templates session fixture script).Agrees
      (parseWithOverrides settings templates session fixture script overrides) := by
  have hover : Run.overridden overrides script = (.ofScript (Mount.extract script).2, 0) :=
    Override.apply_eq_self hlinks
  have ht := Template.separated_ofScript (Mount.extract script).2
  have hstart := Run.retryStart_eq settings overrides script { session, fixture }
  rw [hover] at htemplates hstart
  rw [parse_eq, parseWithOverrides_eq, hover, hstart]
  rw [hstart] at htemplates
  generalize Run.primaryStart settings script { session, fixture } = s at htemplates ⊢
  obtain ⟨s₀, hs₀⟩ : ∃ s₀ : State, s₀ = { s with events := [] } := ⟨_, rfl⟩
  have hprimary : s = s₀.precede s.events := by simp [State.precede, hs₀]
  have hretry : { s with events := s.events ++ [.overridesApplied 0] } =
      s₀.precede (s.events ++ [.overridesApplied 0]) := by simp [State.precede, hs₀]
  generalize s.events = past at hprimary hretry htemplates ⊢
  rw [hretry] at htemplates ⊢
  rw [hprimary] at htemplates ⊢
  have hstands {span : Span} (h : ∀ token ∈ span.templateToken?, token ∉ overrides.keys) :
      Run.SameStandIn ∅ (Override.standIns overrides) span := fun token hm =>
    (Override.get?_standIns_eq_none (h token hm)).symm
  have hsame : (Run.resolve ⟨settings, templates, ∅⟩ (.ofScript (Mount.extract script).2)).run s₀ =
      (Run.resolve ⟨settings, templates, Override.standIns overrides⟩
        (.ofScript (Mount.extract script).2)).run s₀ := by
    refine Run.resolve_congr_precede past (past ++ [.overridesApplied 0]) ht ?_
    exact htemplates.imp (fun h span he => hstands (h span he)) fun h span he => hstands (h span he)
  obtain ⟨visits, hrounds⟩ := Run.exists_rounds (c := ⟨settings, templates, ∅⟩) ht s₀
  rw [Run.commutes_precede, Run.commutes_precede, ← hsame]
  exact Run.agrees hrounds.ne_soft past

/-- Of a template with one opening marker, no portal is executed but the innermost. -/
theorem Run.Executes.eq_of_count {c : Context} {t : Template} {s : State} {span span' : Span}
    (h : Executes c t s span') (hn : t.innermost = some span)
    (hc : t.tokens.count (.mark .opening) ≤ 1) : span' = span := by
  cases h with
  | here hn' => exact Option.some.inj (hn'.symm.trans hn)
  | @later _ _ s' span₀ _ text hn' hr hl =>
    have hcount := Template.count_opening_splice hn' text
    exact absurd hl (not_executes (innermost_eq_none_of_count (by omega)) span')

/-- Overrides of another link and another template leave a call with an unresolved link as it is. -/
theorem passes_agree_beside :
    let overrides : Table String := ⟨[("$y", "z"), ("'other'", "w")]⟩
    (∀ key ∈ overrides.keys, ¬ Override.isTemplateToken key →
      ¬ Override.Occurs key (Mount.extract (filled " $x")).2) ∧
    (parse {} brackets {} {} (filled " $x")).result = .error (.unresolved [⟨"$x", .empty⟩]) ∧
    (parse {} brackets {} {} (filled " $x")).Agrees
      (parseWithOverrides {} brackets {} {} (filled " $x") overrides) := by
  intro overrides
  have hlinks : ∀ key ∈ overrides.keys, ¬ Override.isTemplateToken key →
      ¬ Override.Occurs key (Mount.extract (filled " $x")).2 := by decide +kernel
  have hcount : (Template.ofScript (Mount.extract (filled " $x")).2).tokens.count (.mark .opening) ≤ 1 := by
    decide +kernel
  have hspan : ∀ span ∈ (Template.ofScript (Mount.extract (filled " $x")).2).innermost,
      ∀ token ∈ span.templateToken?, token ∉ overrides.keys := by decide +kernel
  have hsome : (Template.ofScript (Mount.extract (filled " $x")).2).innermost.isSome := by decide +kernel
  obtain ⟨span, hn⟩ := Option.isSome_iff_exists.1 hsome
  refine ⟨hlinks, by decide +kernel, passes_agree hlinks (.inl fun span' he => ?_)⟩
  rw [he.eq_of_count hn hcount]
  exact hspan span hn

end PortalScript
