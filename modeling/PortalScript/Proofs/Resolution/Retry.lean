import PortalScript.Proofs.Link.Spelling
import PortalScript.Proofs.Override.Links
import PortalScript.Proofs.Resolution.Executes
import PortalScript.Proofs.Resolution.Passes

/-! # A retry with the reported tokens

The primary pass reports the tokens of its failures, and the retry is given texts for just these. In
both passes links read the same, so a link that failed fails again wherever it is still followed, and
no template that failed is looked up again. `retry_honours_iff` says when the retry succeeds without
a warning of a reported token. -/

namespace PortalScript

/-- The call executed no action. -/
def Outcome.NoAction {α : Type} (o : Outcome α) : Prop := ∀ r ∈ o.events, ¬ r.event.startsAction

instance {α : Type} (o : Outcome α) : Decidable o.NoAction :=
  inferInstanceAs (Decidable (∀ r ∈ o.events, ¬ r.event.startsAction))

namespace Override

theorem isTemplateToken_templateToken (id : String) : isTemplateToken (Run.templateToken id) := by
  have hl : (Run.templateToken id).toList = '\'' :: (id.toList ++ ['\'']) := by
    simp [Run.templateToken]
  have hlast : (Run.templateToken id).toList.getLast? = some '\'' := by
    rw [hl, ← List.cons_append, List.getLast?_concat]
  have hn : 2 ≤ (Run.templateToken id).length := by
    rw [← String.length_toList, hl]
    simp
  rw [isTemplateToken, hlast, hl]
  simp [hn]

theorem get?_standIns_eq_none {overrides : Table String} {token : String}
    (h : token ∉ overrides.keys) :
    (standIns overrides).get? token = none := by
  refine Table.lookup_eq_none_iff.2 fun e he hk => h ?_
  rw [← hk]
  exact List.mem_map.2 ⟨e, (List.mem_filter.1 he).1, rfl⟩

theorem not_mem_keys_of_get?_standIns {overrides : Table String} {id : String}
    (h : (standIns overrides).get? (Run.templateToken id) = none) :
    Run.templateToken id ∉ overrides.keys := by
  intro hm
  obtain ⟨e, he, hk⟩ := List.mem_map.1 hm
  refine Table.lookup_eq_none_iff.1 h e (List.mem_filter.2 ⟨he, ?_⟩) hk
  rw [hk]
  exact isTemplateToken_templateToken id

end Override

namespace Run
variable {c : Context} {overrides : Table String} {script : String} {s : State}

/-- Both passes start in sessions in which links read the same, the second after the first. -/
theorem read_retryStart (settings : Settings) (overrides : Table String) (script : String)
    {s s' : State} (hs : s'.session = (primaryStart settings script s).session)
    (hf : s'.fixture = (primaryStart settings script s).fixture) (l : Link) :
    (retryStart settings overrides script s').session.read l =
      (primaryStart settings script s).session.read l := by
  show (primaryStart settings script s').session.read l = _
  rw [primaryStart_eq] at hs hf
  rw [primaryStart_eq, primaryStart_eq, hs, hf]
  exact congrArg (Session.read · l) (Session.prepared_prepared script _)

/-- A primary pass without actions leaves the session as it was when the script was prepared, and
reports links that are not read there and templates. -/
theorem primary_spec {failures : List SoftFailure} (hs : s.failures = [])
    (h : ((primary c script).run s).1 = .error (.unresolved failures))
    (ha : NoAction ((primary c script).run s).2) :
    Calm c (primaryStart c.settings script s) ((primary c script).run s).2 ∧
      ∀ f ∈ failures, Unread c (primaryStart c.settings script s).session f := by
  have he := run_primary c script s
  rw [he] at h ha ⊢
  have hsep := Template.separated_ofScript (Mount.extract script).2
  have hl := loops_resolve (c := c) hsep (primaryStart c.settings script s)
  have hu : Unreadable c (primaryStart c.settings script s).session [] := ⟨by simp, by simp⟩
  have hn := ha.mono (List.prefix_append _ _)
  obtain ⟨hsoft, hspec⟩ := hl.spec hsep hu hn
  refine ⟨hspec.calm.trans (.emit _), ?_⟩
  obtain ⟨fs, hfs, hun⟩ := hspec.calm.failures
  rw [(failures_primaryStart c.settings script s).trans hs, List.nil_append] at hfs
  intro f hf
  refine hun f ?_
  dsimp only [primaryResult] at h
  split at h
  · rename_i halt hr
    cases halt with
    | soft f => exact absurd hr (hsoft f)
    | hard e => cases h
  · split at h
    · cases h
    · cases h
      rwa [← hfs]

/-- A retry without actions gets through without a warning of a key just if all that it executes is
sound. -/
theorem retry_spec {keys : List String} (hs : s.failures = [])
    (hu : Unreadable { c with standIns := Override.standIns overrides }
      (retryStart c.settings overrides script s).session keys)
    (ha : NoAction ((retry c overrides script).run s).2) :
    (∃ r, ((retry c overrides script).run s).1 = .ok r ∧ ∀ w ∈ r.warnings, w.token ∉ keys) ↔
      ∀ span, Executes { c with standIns := Override.standIns overrides } (overridden overrides script).1
          (retryStart c.settings overrides script s) span →
        Sound { c with standIns := Override.standIns overrides } keys span.fragment := by
  have he := run_retry c overrides script s
  rw [he] at ha ⊢
  generalize hc : ({ c with standIns := Override.standIns overrides } : Context) = c' at ha hu ⊢
  have hsep : Template.Separated (overridden overrides script).1 :=
    (Template.separated_ofScript _).applyAll _
  have hl := loops_resolve (c := c') hsep (retryStart c.settings overrides script s)
  obtain ⟨hsoft, hspec⟩ := hl.spec hsep hu (ha.mono (List.prefix_append _ _))
  have hstart : Clear keys (retryStart c.settings overrides script s) := by
    have hf : (retryStart c.settings overrides script s).failures = [] :=
      (failures_primaryStart c.settings script s).trans hs
    simp [Clear, hf]
  refine Iff.trans ?_ (hspec.clear_iff.trans (and_iff_right hstart))
  generalize (resolve c' (overridden overrides script).1).run (retryStart c.settings overrides script s)
    = out at hsoft ⊢
  rcases out with ⟨(f | e) | text, s'⟩
  · exact absurd rfl (hsoft f)
  · constructor
    · rintro ⟨r, hr, -⟩
      cases hr
    · exact fun h => absurd trivial h.1
  · constructor
    · rintro ⟨r, hr, hw⟩
      cases hr
      exact ⟨not_false, hw⟩
    · exact fun h => ⟨_, rfl, h.2⟩

end Run

section
variable {α : Type} {pass : Pass} {run : Run (Except CallError α)} {session : Session}
  {fixture : Fixture}

theorem Run.outcome_result : (outcome pass run session fixture).result =
    (run.run { session, fixture }).1 := rfl

theorem Run.outcome_session : (outcome pass run session fixture).session =
    (run.run { session, fixture }).2.session := rfl

theorem Run.outcome_fixture : (outcome pass run session fixture).fixture =
    (run.run { session, fixture }).2.fixture := rfl

theorem Outcome.NoAction.state (h : (Run.outcome pass run session fixture).NoAction) :
    Run.NoAction (run.run { session, fixture }).2 := fun e hm =>
  h ⟨pass, e⟩ (List.mem_map.2 ⟨e, hm, rfl⟩)

end

theorem Run.unreadable_retry {settings : Settings} {templates : String → Option String}
    {overrides : Table String} {failures : List SoftFailure} {s s' : State}
    (hk : ∀ key, key ∈ overrides.keys ↔ ∃ f ∈ failures, f.token = key)
    (hf : ∀ f ∈ failures, Unread ⟨settings, templates, ∅⟩ s.session f)
    (hr : ∀ l, s'.session.read l = s.session.read l) :
    Unreadable ⟨settings, templates, Override.standIns overrides⟩ s'.session overrides.keys := by
  refine ⟨fun token ht l hl => ?_, fun id h => Override.not_mem_keys_of_get?_standIns h⟩
  obtain ⟨f, hmem, rfl⟩ := (hk token).1 ht
  rcases hf f hmem with ⟨l', hl', hlookup⟩ | ⟨id, hid, -⟩
  · cases hl.symm.trans hl'
    refine ⟨f.reason, ?_⟩
    rw [← hlookup, Session.lookup, Session.lookup, hr]
  · -- a template token is no link
    obtain ⟨c, cs, hc, hsigil⟩ := (Link.spelled_of_read (Link.read_of_parse hl)).exists_sigil
    have hq := Override.isTemplateToken_templateToken id
    rw [← hid, Override.isTemplateToken, hc] at hq
    rcases hsigil with rfl | rfl <;> simp at hq

/-- Take a script whose primary pass reports failures, and overrides for just the reported tokens.
Where no action is executed, the retry succeeds without a warning of such a token just if every portal
that it executes is well-formed and, unless something stands in for it, has no such token as a
value. -/
theorem retry_honours_iff {settings : Settings} {templates : String → Option String}
    {session : Session} {fixture : Fixture} {script : String} {overrides : Table String}
    {failures : List SoftFailure} {first : Outcome String} {second : Outcome Resolution}
    (hfirst : parse settings templates session fixture script = first)
    (hsecond : parseWithOverrides settings templates first.session first.fixture script overrides =
      second)
    (hf : first.result = .error (.unresolved failures))
    (hk : ∀ key, key ∈ overrides.keys ↔ ∃ f ∈ failures, f.token = key)
    (ha : first.NoAction) (ha' : second.NoAction) :
    (∃ r, second.result = .ok r ∧ ∀ w ∈ r.warnings, w.token ∉ overrides.keys) ↔
      ∀ span, Run.Executes ⟨settings, templates, Override.standIns overrides⟩
          (Run.overridden overrides script).1
          (Run.retryStart settings overrides script
            { session := first.session, fixture := first.fixture }) span →
        Run.Sound ⟨settings, templates, Override.standIns overrides⟩ overrides.keys span.fragment := by
  rw [parse] at hfirst
  rw [parseWithOverrides] at hsecond
  have hsession : first.session = _ := (congrArg Outcome.session hfirst).symm
  have hfixture : first.fixture = _ := (congrArg Outcome.fixture hfirst).symm
  rw [← hfirst] at ha hf
  rw [← hsecond] at ha' ⊢
  rw [Run.outcome_session] at hsession
  rw [Run.outcome_fixture] at hfixture
  rw [Run.outcome_result] at hf ⊢
  have hc := Run.primary_spec rfl hf ha.state
  have hr := @Run.read_retryStart settings overrides script { session, fixture }
    { session := first.session, fixture := first.fixture } (hsession.trans hc.1.session)
    (hfixture.trans hc.1.fixture)
  exact Run.retry_spec rfl (Run.unreadable_retry hk hc.2 hr) ha'.state

/-- A store whose only template shows its value between brackets. -/
def brackets (id : String) : Option String :=
  if id = "echo" then some (.ofList ['[', '{', '{', 'v', '}', '}', ']']) else none

/-- A script that fills this template with a value, spelled as given behind the colon. -/
def filled (value : String) : String :=
  .ofList (Marker.opening.spelling ++ "'echo'[v:".toList ++ value.toList ++ ']' :: Marker.closing.spelling)

/-- The primary pass of such a script, where no variable has a value. -/
def tried (value : String) : Outcome String := parse {} brackets {} {} (filled value)

/-- The retry with a text for the variable. -/
def retried (value : String) : Outcome Resolution :=
  parseWithOverrides {} brackets (tried value).session (tried value).fixture (filled value) ⟨[("$a", "x")]⟩

/-- With a blank between the colon and the link, the override is applied. -/
theorem retried_blank : (tried " $a").result = .error (.unresolved [⟨"$a", .empty⟩]) ∧
    (retried " $a").result = .ok ⟨"[x]", []⟩ ∧
    ∀ span, Run.Executes ⟨{}, brackets, Override.standIns ⟨[("$a", "x")]⟩⟩
        (Run.overridden ⟨[("$a", "x")]⟩ (filled " $a")).1
        (Run.retryStart {} ⟨[("$a", "x")]⟩ (filled " $a")
          { session := (tried " $a").session, fixture := (tried " $a").fixture }) span →
      Run.Sound ⟨{}, brackets, Override.standIns ⟨[("$a", "x")]⟩⟩ ["$a"] span.fragment := by
  have hf : (tried " $a").result = .error (.unresolved [⟨"$a", .empty⟩]) := by decide +kernel
  have hr : (retried " $a").result = .ok ⟨"[x]", []⟩ := by decide +kernel
  have ha : (tried " $a").NoAction := by decide +kernel
  have ha' : (retried " $a").NoAction := by decide +kernel
  have hk : ∀ key, key ∈ (⟨[("$a", "x")]⟩ : Table String).keys ↔
      ∃ f ∈ [(⟨"$a", .empty⟩ : SoftFailure)], f.token = key := by simp [Table.keys, eq_comm]
  exact ⟨hf, hr, (retry_honours_iff rfl rfl hf hk ha ha').1 ⟨_, hr, by simp⟩⟩

/-- Without one, the colon counts as a part of the token, and the override is not applied. -/
theorem retried_colon : (tried "$a").result = .error (.unresolved [⟨"$a", .empty⟩]) ∧
    (tried "$a").NoAction ∧ (retried "$a").NoAction ∧
    (retried "$a").result = .ok ⟨"", [⟨"$a", .empty⟩]⟩ := by
  refine ⟨?_, ?_, ?_, ?_⟩ <;> decide +kernel

end PortalScript
