import PortalScript.Proofs.Resolution.Calm

/-! # Following the links of a portal

A portal without a portal inside resolves its values on their own: it follows the links among them
and takes the others as they stand. What the values come to is a function of the session, and the
state changes only by the reports and failures of the links (`State.follow`). -/

namespace PortalScript

/-- The link that a value is, with its spelling. -/
def Value.link? (raw : Fragment) : Option (Link × String) :=
  match classify raw with
  | .ok (.link l token) => some (l, token)
  | _ => none

/-- Whether a run goes on behind a result. -/
def survives {α : Type} : Except Halt α → Bool
  | .error (.hard _) => false
  | _ => true

namespace Event

/-- The link that is reported to have failed, and why. -/
def failedLink? : Event → Option (String × String)
  | linkFailed token error => some (token, error)
  | _ => none

def startedPortal? : Event → Option String
  | portalStarted portal => some portal
  | _ => none

def ofLink : Event → Bool
  | linkStarted _ | linkSucceeded _ _ | linkFailed _ _ => true
  | _ => false

def ofScrape : Event → Bool
  | scrapeCompleted _ | scrapeFailed _ => true
  | _ => false

def ofAction : Event → Bool
  | actionStarted _ _ | actionSucceeded _ _ | actionFailed _ _ _ => true
  | _ => false

/-- Whether the event is reported while a portal runs. -/
def ofPortal : Event → Bool
  | portalStarted _ | portalSucceeded _ _ | portalFailed _ _ => true
  | e => e.ofLink || e.ofAction

variable {e : Event}

theorem failedLink?_eq_none (h : ¬ e.ofLink) : e.failedLink? = none := by
  cases e <;> simp_all [ofLink, failedLink?]

theorem not_ofScrape_of_ofPortal (h : e.ofPortal) : ¬ e.ofScrape := by
  cases e <;> simp_all [ofPortal, ofLink, ofAction, ofScrape]

theorem not_ofLink_of_ofAction (h : e.ofAction) : ¬ e.ofLink := by
  cases e <;> simp_all [ofAction, ofLink]

theorem ofPortal_of_ofLink (h : e.ofLink) : e.ofPortal := by
  cases e <;> simp_all [ofLink, ofPortal]

theorem ofPortal_of_ofAction (h : e.ofAction) : e.ofPortal := by
  cases e <;> simp_all [ofAction, ofPortal]

theorem startedPortal?_eq_none (h : ¬ e.ofPortal ∨ e.ofAction) : e.startedPortal? = none := by
  cases e <;> simp_all [ofAction, ofPortal, startedPortal?]

theorem startedPortal?_of_ofLink (h : e.ofLink) : e.startedPortal? = none := by
  cases e <;> simp_all [ofLink, startedPortal?]

end Event

/-- Whether the failure is one of a link, and not of a template. -/
def SoftFailure.ofLink (f : SoftFailure) : Bool :=
  match f.reason with
  | .missingTemplate _ => false
  | _ => true

namespace Session
variable {s : Session}

/-- The failure of following a link. -/
def linkFailure? (s : Session) (link : Link × String) : Option SoftFailure :=
  match s.lookup link.1 with
  | .ok _ => none
  | .error reason => some ⟨link.2, reason⟩

/-- The reports of following a link. -/
def linkEvents (s : Session) (link : Link × String) : List Event :=
  .linkStarted link.2 ::
    match s.lookup link.1 with
    | .ok text => [.linkSucceeded link.2 text.length]
    | .error reason => [.linkFailed link.2 reason.message]

/-- What a value comes to where no portal is left inside. -/
def value (s : Session) (raw : Fragment) : Except Halt String :=
  match Value.classify raw with
  | .error e => .error (.hard (.malformed e))
  | .ok (.portal raw) => .ok (Template.ofFragment raw).render
  | .ok (.link l token) => (s.lookup l).mapError fun reason => .soft ⟨token, reason⟩
  | .ok (.quoted text) => .ok text
  | .ok (.bare text) => .ok text

/-- What the values of all parameters come to. The first soft failure stands for all unless there is
a hard one. -/
def values (s : Session) : List (String × Fragment) → Except Halt (List (String × String))
  | [] => .ok []
  | (key, raw) :: rest =>
    match s.value raw with
    | .ok text => (s.values rest).map ((key, text) :: ·)
    | .error (.hard e) => .error (.hard e)
    | .error (.soft f) =>
      match s.values rest with
      | .error (.hard e) => .error (.hard e)
      | _ => .error (.soft f)

/-- The links among the values that are read: those behind a value are only where it `goesOn`. -/
def links (s : Session) (goesOn : Except Halt String → Bool) :
    List (String × Fragment) → List (Link × String)
  | [] => []
  | (_, raw) :: rest =>
    (Value.link? raw).toList ++ if goesOn (s.value raw) then s.links goesOn rest else []

/-- The failure of a value, if it is a link that is not read. -/
def failure? (s : Session) (raw : Fragment) : Option SoftFailure :=
  (Value.link? raw).bind s.linkFailure?

theorem read_ne_missingTemplate (l : Link) (id : String) :
    s.read l ≠ .error (.missingTemplate id) := by
  cases l with
  | session name => rintro ⟨⟩
  | turn l =>
    obtain ⟨conduit, target, thoughts⟩ := l
    have hselect (history : History) : TurnLink.select ⟨conduit, target, thoughts⟩ history ≠
        .error (.missingTemplate id) := by
      unfold TurnLink.select
      split <;> rintro ⟨⟩
    cases conduit with
    | none => exact hselect s.history
    | some name =>
      simp only [read, historyOf]
      cases s.conduits.get? name with
      | none => rintro ⟨⟩
      | some history => exact hselect history

theorem ofLink_of_linkFailure? {link : Link × String} {f : SoftFailure}
    (h : s.linkFailure? link = some f) : f.ofLink := by
  unfold linkFailure? at h
  split at h
  · cases h
  · rename_i reason hl
    cases h
    unfold lookup at hl
    split at hl
    · split at hl <;> cases hl
      rfl
    · rename_i e hr
      cases hl
      cases reason with
      | missingTemplate id => exact absurd hr (read_ne_missingTemplate link.1 id)
      | _ => rfl

theorem filterMap_linkEvents (links : List (Link × String)) :
    (links.flatMap s.linkEvents).filterMap Event.failedLink? =
      (links.filterMap s.linkFailure?).map fun f => (f.token, f.reason.message) := by
  induction links with
  | nil => rfl
  | cons link links ih =>
    rw [List.flatMap_cons, List.filterMap_append, ih, List.filterMap_cons]
    unfold linkEvents linkFailure?
    cases s.lookup link.1 <;> rfl

theorem ofLink_of_mem_linkEvents {link : Link × String} {e : Event} (h : e ∈ s.linkEvents link) :
    e.ofLink := by
  unfold linkEvents at h
  cases hl : s.lookup link.1 <;> rw [hl] at h <;> simp at h <;> rcases h with rfl | rfl <;> rfl

theorem value_cases (s : Session) (raw : Fragment) :
    (∃ text, s.value raw = .ok text ∧ s.failure? raw = none) ∨
      (∃ f, s.value raw = .error (.soft f) ∧ s.failure? raw = some f) ∨
      ∃ e, s.value raw = .error (.hard e) ∧ Value.link? raw = none := by
  unfold value failure? Value.link?
  rcases Value.classify raw with e | (raw | ⟨l, token⟩ | text | text)
  · exact .inr (.inr ⟨_, rfl, rfl⟩)
  · exact .inl ⟨_, rfl, rfl⟩
  · simp only [Option.bind_some, linkFailure?]
    cases s.lookup l with
    | ok text => exact .inl ⟨_, rfl, rfl⟩
    | error reason => exact .inr (.inl ⟨_, rfl, rfl⟩)
  · exact .inl ⟨_, rfl, rfl⟩
  · exact .inl ⟨_, rfl, rfl⟩

/-- Unless a hard failure ends them, the values fail with the first of the failures of links among
them, and every link is followed. -/
theorem values_cases (s : Session) (entries : List (String × Fragment)) :
    (∃ e, s.values entries = .error (.hard e)) ∨
      ((∃ vs, s.values entries = .ok vs ∧ entries.filterMap (fun e => s.failure? e.2) = []) ∨
        ∃ f fs, s.values entries = .error (.soft f) ∧
          entries.filterMap (fun e => s.failure? e.2) = f :: fs) ∧
      s.links survives entries = entries.filterMap fun e => Value.link? e.2 := by
  induction entries with
  | nil => exact .inr ⟨.inl ⟨[], rfl, rfl⟩, rfl⟩
  | cons e entries ih =>
    obtain ⟨key, raw⟩ := e
    rw [values, links]
    rcases value_cases s raw with ⟨text, hv, hf⟩ | ⟨f, hv, hf⟩ | ⟨e, hv, -⟩
    · simp only [hv, List.filterMap_cons, hf]
      rcases ih with ⟨e, hr⟩ | ⟨hr, hl⟩
      · exact .inl ⟨e, by rw [hr]; rfl⟩
      · refine .inr ⟨?_, ?_⟩
        · rcases hr with ⟨vs, hr, hn⟩ | ⟨f, fs, hr, hn⟩
          · exact .inl ⟨(key, text) :: vs, by rw [hr]; rfl, hn⟩
          · exact .inr ⟨f, fs, by rw [hr]; rfl, hn⟩
        · rw [hl]
          cases Value.link? raw <;> rfl
    · simp only [hv, List.filterMap_cons, hf]
      rcases ih with ⟨e, hr⟩ | ⟨hr, hl⟩
      · exact .inl ⟨e, by rw [hr]⟩
      · refine .inr ⟨.inr ⟨f, _, ?_, rfl⟩, ?_⟩
        · rcases hr with ⟨vs, hr, -⟩ | ⟨f, fs, hr, -⟩ <;> rw [hr]
        · rw [hl]
          cases Value.link? raw <;> rfl
    · exact .inl ⟨e, by rw [hv]⟩

end Session

namespace State
variable {s : State} {links links' : List (Link × String)}

/-- The state after links were followed. -/
def follow (s : State) (links : List (Link × String)) : State :=
  { s with
    events := s.events ++ links.flatMap s.session.linkEvents
    failures := s.failures ++ links.filterMap s.session.linkFailure? }

@[simp] theorem follow_nil (s : State) : s.follow [] = s := by simp [follow]

@[simp] theorem session_follow (s : State) (links : List (Link × String)) :
    (s.follow links).session = s.session := rfl

theorem follow_follow (s : State) (links links' : List (Link × String)) :
    (s.follow links).follow links' = s.follow (links ++ links') := by
  simp [follow]

end State

namespace Run
variable {s : State}

theorem run_resolveLink_eq (l : Link) (token : String) : (resolveLink l token).run s =
    ((s.session.lookup l).mapError fun reason => .soft ⟨token, reason⟩, s.follow [(l, token)]) := by
  rw [run_resolveLink]
  simp only [State.follow, Session.linkEvents, Session.linkFailure?, List.flatMap_singleton,
    List.filterMap_cons, List.filterMap_nil]
  cases s.session.lookup l <;> simp [Except.mapError]

theorem run_resolveValue (raw : Fragment) : (resolveValue literal raw).run s =
    (s.session.value raw, s.follow (Value.link? raw).toList) := by
  unfold resolveValue Session.value Value.link?
  rcases Value.classify raw with e | (raw | ⟨l, token⟩ | text | text)
  case ok.link => exact run_resolveLink_eq l token
  all_goals rw [Option.toList_none, State.follow_nil]; rfl

theorem run_resolveParams (entries : List (String × Fragment)) :
    (resolveParams (resolveValue literal) entries).run s =
      (s.session.values entries, s.follow (s.session.links survives entries)) := by
  induction entries generalizing s with
  | nil => rw [Session.links, State.follow_nil]; rfl
  | cons e entries ih =>
    obtain ⟨key, raw⟩ := e
    rw [resolveParams, run_bind (run_resolveValue raw), Session.values, Session.links]
    rcases Session.value_cases s.session raw with ⟨text, hv, -⟩ | ⟨f, hv, -⟩ | ⟨e, hv, -⟩
    · rw [hv]
      dsimp only [survives]
      rw [run_bind ih, run_pure, State.follow_follow]
      rfl
    · rw [hv]
      dsimp only [survives]
      rw [run_bind ih, State.session_follow, State.follow_follow]
      rcases s.session.values entries with (f' | e') | vs <;> rfl
    · rw [hv]
      simp only [survives, Bool.false_eq_true, if_false, List.append_nil]
      rfl

/-- An action follows the links up to the first that is not read. Its values come to texts just if they do
for a data portal, and then to the same. -/
theorem run_actionParams (fail : String → HardFailure) (entries : List (String × Fragment)) :
    ∃ r, (actionParams (resolveValue literal) fail entries).run s =
        (r, s.follow (s.session.links Except.isOk entries)) ∧
      ∀ vs, r = .ok vs ↔ s.session.values entries = .ok vs := by
  induction entries generalizing s with
  | nil =>
    refine ⟨.ok [], by rw [Session.links, State.follow_nil]; rfl, fun vs => ?_⟩
    rw [Session.values, Except.ok.injEq, Except.ok.injEq]
  | cons e entries ih =>
    obtain ⟨key, raw⟩ := e
    rw [actionParams, run_bind (run_resolveValue raw), Session.values, Session.links]
    rcases Session.value_cases s.session raw with ⟨text, hv, -⟩ | ⟨f, hv, -⟩ | ⟨e, hv, -⟩
    · obtain ⟨r, hr, hvs⟩ := ih (s := s.follow (Value.link? raw).toList)
      rw [hv]
      dsimp only
      rw [run_bind hr, run_pure, State.follow_follow]
      refine ⟨r.map ((key, text) :: ·), rfl, fun vs => ?_⟩
      rw [State.session_follow] at hvs
      simp only [Params.map_eq_ok_iff, hvs]
    · rw [hv]
      simp only [Except.isOk, Except.toBool, Bool.false_eq_true, if_false, List.append_nil]
      refine ⟨_, rfl, fun vs => ⟨by rintro ⟨⟩, fun h => ?_⟩⟩
      split at h <;> cases h
    · rw [hv]
      simp only [Except.isOk, Except.toBool, Bool.false_eq_true, if_false, List.append_nil]
      exact ⟨_, rfl, fun vs => ⟨by rintro ⟨⟩, by rintro ⟨⟩⟩⟩

end Run

end PortalScript
