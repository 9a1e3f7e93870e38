import PortalScript.Proofs.Cli.Reading
import PortalScript.Proofs.Link.Spelling
import PortalScript.Proofs.Resolution.Failures
import PortalScript.Proofs.Resolution.Retry

/-! # Reported tokens on the command line

What a primary pass reports is known by the token of a link or of a template (`knownBy_of_mem_unresolved`).
On the command line a token ends at the first equals sign (`Cli.Options.override?_eq_some_iff`), and the
only names in a token that may have one are the alias of a link and the id of a template. So the advice to
override each reported token by a text can be followed just if no such name has an equals sign
(`Cli.advice_read_iff`). -/

namespace PortalScript

namespace Link

/-- The alias in a link. -/
def conduit? : Link → Option String
  | session _ => none
  | turn l => l.conduit

theorem Reads.mem_equals_iff {text : List Char} {l : Link} (h : Reads text l) :
    '=' ∈ text ↔ ∃ name ∈ l.conduit?, '=' ∈ name.toList := by
  cases h with
  | @session name hne hn =>
    have hname : '=' ∉ name.toList := fun hm => absurd (hn _ hm) (by decide +kernel)
    simp [conduit?, hname]
  | @turn l digits hl hd =>
    have htarget : '=' ∉ l.target.spelled digits := fun hm => absurd (hd.isRefChar _ hm) (by decide)
    have hspecifier : '=' ∉ TurnLink.specifierText l.thoughts := by cases l.thoughts <;> decide
    rw [TurnLink.spelled, conduit?]
    cases l.conduit <;> simp [TurnLink.aliasText, htarget, hspecifier]

end Link

/-- What a failure can be known by: the token of a link, or that of a template. The name is the part that
a script may spell as it likes: the alias, if there is one, or the id. -/
inductive SoftFailure.KnownBy : SoftFailure → Option String → Prop
  | link {token : String} {l : Link} (reason : LinkFailure) (hl : Link.parse token = .ok l) :
      KnownBy ⟨token, reason⟩ l.conduit?
  | template (id : String) : KnownBy ⟨Run.templateToken id, .missingTemplate id⟩ (some id)

namespace SoftFailure.KnownBy
variable {f : SoftFailure} {name : Option String}

theorem mem_equals_iff (h : f.KnownBy name) :
    '=' ∈ f.token.toList ↔ ∃ n ∈ name, '=' ∈ n.toList := by
  cases h with
  | link reason hl => exact (Link.parse_ok_iff.1 hl).mem_equals_iff
  | template id => simp [Run.templateToken, String.toList_append]

theorem exists_head (h : f.KnownBy name) :
    ∃ c cs, f.token.toList = c :: cs ∧ (c = '$' ∨ c = '@' ∨ c = '\'') := by
  cases h with
  | link reason hl =>
    obtain ⟨c, cs, hc, hsigil⟩ := (Link.spelled_of_read (Portal.within_ok_iff.1 hl)).exists_sigil
    exact ⟨c, cs, hc, hsigil.imp_right .inl⟩
  | template id => exact ⟨'\'', id.toList ++ ['\''], by simp [Run.templateToken], .inr (.inr rfl)⟩

theorem token_ne_empty (h : f.KnownBy name) : f.token ≠ "" := by
  obtain ⟨c, cs, hhead, -⟩ := h.exists_head
  intro he
  simp [he] at hhead

end SoftFailure.KnownBy

namespace Run
variable {c : Context} {session : Session} {body : Fragment} {f : SoftFailure}

theorem knownBy_of_linkFailure? {raw : Fragment} (h : session.failure? raw = some f) :
    ∃ name, f.KnownBy name := by
  obtain ⟨⟨l, token⟩, hl, hf⟩ := Option.bind_eq_some_iff.1 h
  have hparse : Link.parse token = .ok l := by
    unfold Value.link? at hl
    split at hl <;> cases hl
    rename_i hv
    exact Value.parse_of_classify hv
  unfold Session.linkFailure? at hf
  split at hf <;> cases hf
  exact ⟨_, .link _ hparse⟩

theorem knownBy_of_mem_softFailures (h : f ∈ softFailures c session body) : ∃ name, f.KnownBy name := by
  unfold softFailures at h
  split at h
  · split at h
    · cases h
    · rename_i g gs hlinks
      obtain ⟨entry, -, hf⟩ := List.mem_filterMap.1 (hlinks ▸ h)
      exact knownBy_of_linkFailure? hf
    · split at h
      · cases List.mem_singleton.1 h
        exact ⟨_, .template _⟩
      · cases h
  · cases h

end Run

theorem knownBy_of_mem_unresolved {settings : Settings} {templates : String → Option String}
    {session : Session} {fixture : Fixture} {script : String} {failures : List SoftFailure}
    (h : (parse settings templates session fixture script).result = .error (.unresolved failures)) :
    ∀ f ∈ failures, ∃ name, f.KnownBy name := by
  obtain ⟨visits, out, hrounds, ho⟩ := parse_rounds settings templates session fixture script
  have hsep := Template.separated_ofScript (Mount.extract script).2
  rw [ho] at h
  obtain ⟨-, ⟨text, htext⟩, hf⟩ := (Run.primaryResult_eq_unresolved_iff hrounds.ne_soft).1 h
  have hnoted := hrounds.failures hsep (by rw [htext]; rfl)
  rw [Run.failures_primaryStart, List.nil_append, hf] at hnoted
  intro f hm
  obtain ⟨visit, -, hm⟩ := List.mem_flatMap.1 (hnoted ▸ hm)
  exact Run.knownBy_of_mem_softFailures hm

namespace Cli

/-- The arguments that override the token of each failure by a text. -/
def adviceArgs (failures : List SoftFailure) (text : SoftFailure → String) : List String :=
  failures.flatMap fun f => ["--override", f.token ++ "=" ++ text f]

section
variable {f : SoftFailure} {name : Option String} {failures : List SoftFailure}

theorem exists_override? (h : f.KnownBy name) (text : String) :
    ∃ entry, Options.override? (f.token ++ "=" ++ text) = some entry := by
  by_cases hm : '=' ∈ f.token.toList
  · obtain ⟨front, back, htoken, hfront⟩ := List.eq_append_cons_of_mem hm
    obtain ⟨c, cs, hhead, hc⟩ := h.exists_head
    have hne : front ≠ [] := by
      rintro rfl
      obtain rfl : c = '=' := (List.cons.inj (hhead.symm.trans htoken)).1
      revert hc
      decide
    refine ⟨(.ofList front, .ofList back ++ "=" ++ text), Options.override?_eq_some_iff.2 ⟨?_, ?_, ?_⟩⟩
    · rw [← String.toList_inj]
      simp [String.toList_append, htoken]
    · rwa [ne_eq, ← String.toList_inj, String.toList_ofList]
    · rwa [String.toList_ofList]
  · exact ⟨(f.token, text), Options.override?_eq_some_iff.2 ⟨rfl, h.token_ne_empty, hm⟩⟩

/-- Advised arguments in front of those of a command are read one after the other. -/
theorem parse_adviceArgs (hf : ∀ f ∈ failures, ∃ name, f.KnownBy name) (text : SoftFailure → String)
    (args : List String) : Command.parse (adviceArgs failures text ++ args) =
      (Command.parse args).map (Command.overriding
        (failures.filterMap fun f => Options.override? (f.token ++ "=" ++ text f))) := by
  induction failures with
  | nil =>
    rw [adviceArgs, List.flatMap_nil, List.nil_append]
    cases Command.parse args <;> rfl
  | cons f failures ih =>
    obtain ⟨⟨name, hname⟩, hrest⟩ := List.forall_mem_cons.1 hf
    obtain ⟨entry, he⟩ := exists_override? hname (text f)
    obtain ⟨c, cs, hhead, hc⟩ := hname.exists_head
    have hvalue : (f.token ++ "=" ++ text f).toList = c :: (cs ++ '=' :: (text f).toList) := by
      simp [String.toList_append, hhead]
    have hplain : Reading.shape (f.token ++ "=" ++ text f) = .plain :=
      Reading.shape_eq_plain hvalue (by rcases hc with rfl | rfl | rfl <;> decide)
    have hargs : adviceArgs (f :: failures) text ++ args =
        "--override" :: (f.token ++ "=" ++ text f) :: (adviceArgs failures text ++ args) := rfl
    have hentries : (f :: failures).filterMap (fun f => Options.override? (f.token ++ "=" ++ text f)) =
        entry :: failures.filterMap fun f => Options.override? (f.token ++ "=" ++ text f) :=
      List.filterMap_cons_some he
    rw [hargs, Command.parse_override hplain he, ih hrest, hentries]
    cases Command.parse args <;> rfl

end

/-- Take the failures that a primary pass reports. The command line gives just the token of a failure back,
with any text for it, if the alias or the template id in the token has no equals sign. The command that had
them, with an override for each failure as advised, has all of them if no token has one. -/
theorem advice_read_iff {settings : Settings} {templates : String → Option String} {session : Session}
    {fixture : Fixture} {script : String} {failures : List SoftFailure}
    (h : (parse settings templates session fixture script).result = .error (.unresolved failures)) :
    (∀ f ∈ failures, ∃ name, f.KnownBy name ∧ ∀ text,
      (Options.override? (f.token ++ "=" ++ text) = some (f.token, text) ↔
        ∀ n ∈ name, '=' ∉ n.toList)) ∧
    ∀ (text : SoftFailure → String) (args : List String) (command : Command),
      Command.parse args = .ok command →
      (Command.parse (adviceArgs failures text ++ args) =
          .ok (command.overriding (failures.map fun f => (f.token, text f))) ↔
        ∀ f ∈ failures, '=' ∉ f.token.toList) := by
  have hknown := knownBy_of_mem_unresolved h
  have hread : ∀ f ∈ failures, ∀ text,
      Options.override? (f.token ++ "=" ++ text) = some (f.token, text) ↔ '=' ∉ f.token.toList := by
    intro f hf text
    obtain ⟨name, hname⟩ := hknown f hf
    rw [Options.override?_eq_some_iff]
    exact ⟨fun hr => hr.2.2, fun hm => ⟨rfl, hname.token_ne_empty, hm⟩⟩
  constructor
  · intro f hf
    obtain ⟨name, hname⟩ := hknown f hf
    refine ⟨name, hname, fun text => ?_⟩
    rw [hread f hf, hname.mem_equals_iff]
    simp
  · intro text args command hcommand
    rw [parse_adviceArgs hknown, hcommand, Except.map, Except.ok.injEq, Command.overriding_inj,
      List.filterMap_eq_map_iff_forall_eq_some]
    exact forall₂_congr fun f hf => hread f hf (text f)

/-- A script with a link to what is not mounted and a template that is not there. -/
def unsettled : String :=
  filled " @notes:USER-1" ++ .ofList (Marker.opening.spelling ++ "'nope'".toList ++ Marker.closing.spelling)

/-- Both tokens are overridden as advised, by texts that have equals signs themselves. -/
theorem advice_read_unsettled :
    let failures : List SoftFailure :=
      [⟨"@notes:USER-1", .unknownConduit "notes"⟩, ⟨"'nope'", .missingTemplate "nope"⟩]
    (parse {} brackets {} {} unsettled).result = .error (.unresolved failures) ∧
    Command.parse (adviceArgs failures (fun _ => "a=b") ++ ["--fixture", "f.json", "script"]) =
      .ok ⟨"script", {
        fixture := some "f.json", overrides := [("@notes:USER-1", "a=b"), ("'nope'", "a=b")] }⟩ := by
  intro failures
  have h : (parse {} brackets {} {} unsettled).result = .error (.unresolved failures) := by decide +kernel
  have hcommand : Command.parse ["--fixture", "f.json", "script"] =
      .ok ⟨"script", { fixture := some "f.json" }⟩ := by decide +kernel
  have htokens : ∀ f ∈ failures, '=' ∉ f.token.toList := by decide +kernel
  exact ⟨h, ((advice_read_iff h).2 (fun _ => "a=b") _ _ hcommand).2 htokens⟩

/-- An alias with an equals sign is cut there. -/
theorem advice_misread_equals :
    let failures : List SoftFailure := [⟨"@a=b:USER-1", .unknownConduit "a=b"⟩]
    (parse {} brackets {} {} (filled " @a=b:USER-1")).result = .error (.unresolved failures) ∧
    Options.override? ("@a=b:USER-1" ++ "=" ++ "text") = some ("@a", "b:USER-1=text") ∧
    Command.parse (adviceArgs failures (fun _ => "text") ++ ["script"]) =
      .ok ⟨"script", { overrides := [("@a", "b:USER-1=text")] }⟩ := by
  refine ⟨?_, ?_, ?_⟩ <;> decide +kernel

end Cli

end PortalScript
