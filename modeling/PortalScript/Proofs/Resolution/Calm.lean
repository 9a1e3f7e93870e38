import PortalScript.Proofs.Resolution.Loop

/-! # Portals that execute no action

A portal that is no action changes neither the session nor the fixture, and each failure that it notes
is of a link that the session does not read or of a template for which nothing stands in (`Calm`).
Take keys under which nothing is read. The portal gets through without a failure of theirs just if it
is `Sound` (`spec_runPortal`): it is well-formed, and unless something stands in for it, no value is a
link spelled as a key. -/

namespace PortalScript

theorem Value.parse_of_classify {raw : Fragment} {l : Link} {token : String}
    (h : Value.classify raw = .ok (.link l token)) : Link.parse token = .ok l := by
  unfold classify at h
  dsimp only at h
  split at h
  · cases h
  split at h
  · cases h
  split at h
  · cases hp : Link.parse raw.trim.text with
    | error e =>
      rw [hp] at h
      cases h
    | ok l' =>
      rw [hp] at h
      cases h
      exact hp
  split at h <;> cases h

namespace Run
variable {c : Context} {s s' s'' : State} {keys : List String} {α β γ : Type}

theorem run_bind {m : Run α} {f : α → Run β} {a : α} (h : m.run s = (a, s')) :
    (m >>= f).run s = (f a).run s' := by
  rw [StateT.run_bind, h]
  rfl

theorem run_pure (a : α) (s : State) : (pure a : Run α).run s = (a, s) := rfl

theorem run_emit_bind (e : Event) (m : Run α) (s : State) :
    (emit e >>= fun _ => m).run s = m.run ((emit e).run s).2 := rfl

/-- Why a failure is noted: the session does not read the link, or nothing stands in for the
template. -/
def Unread (c : Context) (session : Session) (f : SoftFailure) : Prop :=
  (∃ l, Link.parse f.token = .ok l ∧ session.lookup l = .error f.reason) ∨
    ∃ id, f.token = templateToken id ∧ c.standIns.get? (templateToken id) = none

/-- What a part of a pass without actions does to the state. -/
structure Calm (c : Context) (s s' : State) : Prop where
  session : s'.session = s.session
  fixture : s'.fixture = s.fixture
  events : s.events <+: s'.events
  failures : ∃ fs, s'.failures = s.failures ++ fs ∧ ∀ f ∈ fs, Unread c s.session f

theorem Calm.refl (c : Context) (s : State) : Calm c s s :=
  ⟨rfl, rfl, List.prefix_rfl, [], by simp, by simp⟩

theorem Calm.trans (h : Calm c s s') (h' : Calm c s' s'') : Calm c s s'' := by
  obtain ⟨fs, hfs, hu⟩ := h.failures
  obtain ⟨fs', hfs', hu'⟩ := h'.failures
  refine ⟨h'.session.trans h.session, h'.fixture.trans h.fixture, h.events.trans h'.events,
    fs ++ fs', ?_, ?_⟩
  · rw [hfs', hfs, List.append_assoc]
  · intro f hf
    rcases List.mem_append.1 hf with hf | hf
    · exact hu f hf
    · exact h.session ▸ hu' f hf

theorem Calm.emit (e : Event) : Calm c s ((emit e).run s).2 :=
  ⟨rfl, rfl, List.prefix_append _ _, [], (List.append_nil _).symm, by simp⟩

theorem Calm.record {f : SoftFailure} (h : Unread c s.session f) : Calm c s ((record f).run s).2 :=
  ⟨rfl, rfl, List.prefix_rfl, [f], rfl, by simpa using h⟩

/-- Nothing is read under the keys: their links fail and something stands in for their templates. -/
structure Unreadable (c : Context) (session : Session) (keys : List String) : Prop where
  link : ∀ token ∈ keys, ∀ l, Link.parse token = .ok l → ∃ reason, session.lookup l = .error reason
  template : ∀ id, c.standIns.get? (templateToken id) = none → templateToken id ∉ keys

/-- Whether a failure ends the pass. -/
def Ends : Except Halt α → Prop
  | .error (.hard _) => True
  | _ => False

/-- No failure of a key is noted. -/
def Clear (keys : List String) (s : State) : Prop := ∀ f ∈ s.failures, f.token ∉ keys

/-- A part of a pass without actions gets through without a failure of a key just if `p`. -/
structure Spec (c : Context) (keys : List String) (s : State) (out : Except Halt α × State) (p : Prop) :
    Prop where
  calm : Calm c s out.2
  clear_iff : (¬ Ends out.1 ∧ Clear keys out.2) ↔ Clear keys s ∧ p

namespace Spec
variable {p q : Prop} {r : Except Halt α} {r' : Except Halt β} {e : HardFailure}

theorem ok (hc : Calm c s s') (hf : s'.failures = s.failures) (hr : ¬ Ends r) (hp : p) :
    Spec c keys s (r, s') p := by
  refine ⟨hc, ?_⟩
  rw [Clear, Clear, hf]
  exact ⟨fun h => ⟨h.2, hp⟩, fun h => ⟨hr, h.1⟩⟩

theorem hard (hc : Calm c s s') (hp : ¬ p) :
    Spec c keys s ((.error (.hard e) : Except Halt α), s') p :=
  ⟨hc, fun h => absurd trivial h.1, fun h => absurd h.2 hp⟩

theorem soft {f : SoftFailure} (hc : Calm c s s') (hf : s'.failures = s.failures ++ [f])
    (hp : p ↔ f.token ∉ keys) :
    Spec c keys s ((.error (.soft f) : Except Halt α), s') p := by
  refine ⟨hc, ?_⟩
  rw [Clear, hf, hp]
  simp only [Ends, not_false_eq_true, true_and, List.mem_append, List.mem_singleton]
  exact ⟨fun h => ⟨fun g hg => h g (.inl hg), h f (.inr rfl)⟩,
    fun h g hg => hg.elim (h.1 g) fun hg => hg ▸ h.2⟩

theorem andThen (h : Spec c keys s (r, s') p) (hr : ¬ Ends r) (h' : Spec c keys s' (r', s'') q)
    {r'' : Except Halt γ} (hends : Ends r'' ↔ Ends r') : Spec c keys s (r'', s'') (p ∧ q) := by
  refine ⟨h.calm.trans h'.calm, ?_⟩
  have h := h.clear_iff
  have h' := h'.clear_iff
  dsimp only at h h' ⊢
  rw [hends, h', ← and_assoc, ← h]
  exact ⟨fun h => ⟨⟨hr, h.1⟩, h.2⟩, fun h => ⟨h.1.2, h.2⟩⟩

theorem ends (h : Spec c keys s (r, s') p) (hr : Ends r) (hr' : Ends r') (q : Prop) :
    Spec c keys s (r', s') (p ∧ q) := by
  refine ⟨h.calm, fun h' => absurd hr' h'.1, fun h' => ?_⟩
  exact absurd hr (h.clear_iff.2 ⟨h'.1, h'.2.1⟩).1

theorem congr (h : Spec c keys s (r, s') p) (hends : Ends r' ↔ Ends r) (hpq : q ↔ p) :
    Spec c keys s (r', s') q := by
  refine ⟨h.calm, ?_⟩
  rw [hpq]
  dsimp only
  rw [hends]
  exact h.clear_iff

theorem emit_before (e : Event) {out : Except Halt α × State}
    (h : Spec c keys ((emit e).run s).2 out p) : Spec c keys s out p :=
  ⟨(Calm.emit e).trans h.calm, h.clear_iff⟩

theorem emit_behind (h : Spec c keys s (r, s') p) (e : Event) (hends : Ends r' ↔ Ends r) :
    Spec c keys s (r', ((emit e).run s').2) p := by
  refine ⟨h.calm.trans (Calm.emit e), ?_⟩
  dsimp only
  rw [hends]
  exact h.clear_iff

end Spec

/-- A value under which the pass goes on without a failure of a key. -/
def Harmless (keys : List String) (raw : Fragment) : Prop :=
  ∃ v, Value.classify raw = .ok v ∧ ∀ l token, v = .link l token → token ∉ keys

theorem run_resolveLink {l : Link} {token : String} : (resolveLink l token).run s =
    match s.session.lookup l with
    | .ok text => (.ok text, { s with
        events := s.events ++ [.linkStarted token] ++ [.linkSucceeded token text.length] })
    | .error reason => (.error (.soft ⟨token, reason⟩), { s with
        events := s.events ++ [.linkStarted token] ++ [.linkFailed token reason.message],
        failures := s.failures ++ [⟨token, reason⟩] }) := by
  unfold resolveLink
  cases h : s.session.lookup l <;>
    simp only [StateT.run_bind, Run.emit, record, StateT.run_modify, StateT.run_get, pure_bind, h,
      StateT.run_pure] <;> rfl

theorem spec_resolveLink {l : Link} {token : String} (hu : Unreadable c s.session keys)
    (hl : Link.parse token = .ok l) :
    Spec c keys s ((resolveLink l token).run s) (token ∉ keys) := by
  rw [run_resolveLink]
  cases h : s.session.lookup l with
  | ok text =>
    have hm : token ∉ keys := fun hm => by
      obtain ⟨reason, hr⟩ := hu.link token hm l hl
      rw [h] at hr
      cases hr
    refine .ok ⟨rfl, rfl, ?_, [], (List.append_nil _).symm, by simp⟩ rfl not_false hm
    simp
  | error reason =>
    refine .soft ⟨rfl, rfl, ?_, [_], rfl, ?_⟩ rfl .rfl
    · simp
    · intro f hf
      cases List.mem_singleton.1 hf
      exact .inl ⟨l, hl, h⟩

theorem spec_resolveValue {raw : Fragment} (hu : Unreadable c s.session keys) :
    Spec c keys s ((resolveValue literal raw).run s) (Harmless keys raw) := by
  unfold resolveValue
  cases h : Value.classify raw with
  | error e =>
    refine .hard (.refl c s) ?_
    rintro ⟨v, hv, -⟩
    rw [h] at hv
    cases hv
  | ok v =>
    cases v with
    | link l token =>
      refine (spec_resolveLink hu (Value.parse_of_classify h)).congr .rfl ?_
      constructor
      · rintro ⟨v, hv, ht⟩
        rw [h] at hv
        cases hv
        exact ht l token rfl
      · intro ht
        refine ⟨_, h, ?_⟩
        rintro l token ⟨⟩
        exact ht
    | _ => exact .ok (.refl c s) rfl not_false ⟨_, h, fun _ _ h => by cases h⟩

theorem Unreadable.of_calm (hu : Unreadable c s.session keys) (h : Calm c s s') :
    Unreadable c s'.session keys := h.session ▸ hu

theorem spec_resolveParams {entries : List (String × Fragment)} (hu : Unreadable c s.session keys) :
    Spec c keys s ((resolveParams (resolveValue literal) entries).run s)
      (∀ e ∈ entries, Harmless keys e.2) := by
  induction entries generalizing s with
  | nil => exact .ok (.refl c s) rfl not_false (by simp)
  | cons e entries ih =>
    have hv := @spec_resolveValue c s keys e.2 hu
    rw [resolveParams, List.forall_mem_cons]
    rcases hr : (resolveValue literal e.2).run s with ⟨r, s'⟩
    rw [hr] at hv
    rw [run_bind hr]
    have ih := ih (hu.of_calm hv.calm)
    rcases hrest : (resolveParams (resolveValue literal) entries).run s' with ⟨r', s''⟩
    rw [hrest] at ih
    rcases r with (f | e) | value
    · dsimp only
      rw [run_bind hrest]
      rcases r' with (f' | e') | values
      · exact hv.andThen not_false ih .rfl
      · exact hv.andThen not_false ih .rfl
      · exact hv.andThen not_false ih .rfl
    · dsimp only
      rw [run_pure]
      refine hv.ends ?_ ?_ _ <;> trivial
    · dsimp only
      rw [run_bind hrest, run_pure]
      refine hv.andThen not_false ih ?_
      rcases r' with (f' | e') | values <;> exact .rfl

/-- What is executed as a portal without a failure of a key: a data portal whose values are
harmless, unless something stands in for it. -/
def Sound (c : Context) (keys : List String) (body : Fragment) : Prop :=
  ∃ p, Portal.parse body = .ok (.data p) ∧
    (c.standIns.get? (templateToken p.id) = none → ∀ e ∈ p.params.entries, Harmless keys e.2)

theorem spec_missing {id : String} (hs : c.standIns.get? (templateToken id) = none)
    (hu : Unreadable c s.session keys) : Spec c keys s ((missing c id).run s) True := by
  unfold missing
  split
  · exact .ok (.refl c s) rfl not_false trivial
  · have hf : Unread c s.session ⟨templateToken id, .missingTemplate id⟩ := .inr ⟨id, rfl, hs⟩
    exact .soft (.record hf) rfl ⟨fun _ => hu.template id hs, fun _ => trivial⟩

theorem spec_executeData {p : DataPortal} (hu : Unreadable c s.session keys) :
    Spec c keys s ((executeData c (resolveValue literal) p).run s)
      (c.standIns.get? (templateToken p.id) = none → ∀ e ∈ p.params.entries, Harmless keys e.2) := by
  unfold executeData
  cases h : c.standIns.get? (templateToken p.id) with
  | some text => exact .ok (.refl c s) rfl not_false (fun h => by cases h)
  | none =>
    have hp := @spec_resolveParams c s keys p.params.entries hu
    simp only [forall_const]
    rcases hr : (resolveParams (resolveValue literal) p.params.entries).run s with ⟨r, s'⟩
    rw [hr] at hp
    rw [run_bind hr]
    rcases r with e | values
    · exact hp.congr (by cases e <;> rfl) .rfl
    · dsimp only
      cases ht : c.templates p.id with
      | some body => exact hp.congr .rfl .rfl
      | none =>
        have hm := spec_missing h (hu.of_calm hp.calm)
        rcases hr' : (missing c p.id).run s' with ⟨r', s''⟩
        rw [hr'] at hm
        exact (hp.andThen not_false hm .rfl).congr .rfl ⟨fun h => ⟨h, trivial⟩, And.left⟩

theorem spec_executePortal {body : Fragment} (hu : Unreadable c s.session keys)
    (ha : ∀ p, Portal.parse body ≠ .ok (.action p)) :
    Spec c keys s ((executePortal c literal body).run s) (Sound c keys body) := by
  unfold executePortal
  cases h : Portal.parse body with
  | error e =>
    refine .hard (.refl c s) ?_
    rintro ⟨p, hp, -⟩
    rw [h] at hp
    cases hp
  | ok p =>
    cases p with
    | action p => exact absurd h (ha p)
    | data p =>
      refine (spec_executeData hu).congr .rfl ⟨?_, fun hp => ⟨p, h, hp⟩⟩
      rintro ⟨p, hp, hv⟩
      rw [h] at hp
      cases hp
      exact hv

theorem spec_runPortal {span : Span} (hu : Unreadable c s.session keys)
    (ha : ∀ p, Portal.parse span.fragment ≠ .ok (.action p)) :
    Spec c keys s ((runPortal c literal span).run s) (Sound c keys span.fragment) := by
  rw [runPortal, run_emit_bind]
  refine .emit_before (.portalStarted span.label) ?_
  have hp := spec_executePortal (hu.of_calm (.emit (.portalStarted span.label))) ha
  rcases hr : (executePortal c literal span.fragment).run
    ((emit (.portalStarted span.label)).run s).2 with ⟨r, s'⟩
  rw [hr] at hp
  rw [run_bind hr]
  rcases r with (f | e) | text <;> exact hp.emit_behind _ .rfl

theorem runPortal_ne_soft (c : Context) (nested : Template → Run (Except Halt String)) (span : Span)
    (s : State) (f : SoftFailure) : ((runPortal c nested span).run s).1 ≠ .error (.soft f) := by
  rw [runPortal, run_emit_bind]
  rcases hr : (executePortal c nested span.fragment).run
    ((emit (.portalStarted span.label)).run s).2 with ⟨r, s'⟩
  rw [run_bind hr]
  rcases r with (f | e) | text <;> rintro ⟨⟩

end Run

end PortalScript
