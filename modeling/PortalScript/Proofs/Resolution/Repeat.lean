import PortalScript.Proofs.Resolution.Retry
import PortalScript.Proofs.Resolution.Unnoticed

/-! # The same call again

A call that executes no action leaves the session that it prepared and the conversation that it found.
The same call prepares that session once more, which changes nothing (`Session.prepared_prepared`), so
it starts to resolve in the state of the first call with one more scrape counted (`primaryStart_again`),
and no portal notices that (`commutes_recount`). Hence it comes to the same (`repeats`), whatever could
not be fetched, scraped or resolved. -/

namespace PortalScript

namespace Run
variable {c : Context} {t : Template} {s : State}

/-- Where no action is executed, resolving a template changes neither the session nor the fixture, and
with one more scrape counted it comes to the same. -/
theorem resolve_again {out : Except Halt String × State} (ht : Template.Separated t)
    (hout : (resolve c t).run s = out) (hn : NoAction out.2) :
    out.2.session = s.session ∧ out.2.fixture = s.fixture ∧
      (resolve c t).run s.recount = (out.1, out.2.recount) := by
  have hu : Unreadable c s.session [] := ⟨by simp, by simp⟩
  have hloops := loops_resolve (c := c) ht s
  rw [hout] at hloops
  obtain ⟨-, hspec⟩ := hloops.spec ht hu hn
  refine ⟨hspec.calm.session, hspec.calm.fixture, ?_⟩
  rw [commutes_recount c t s, hout]

theorem primaryStart_again (settings : Settings) (script : String) (session : Session)
    (fixture : Fixture) :
    let s := primaryStart settings script { session, fixture }
    primaryStart settings script { session := s.session, fixture := s.fixture } = s.recount := by
  intro s
  have hs : s = primaryStart settings script { session, fixture } := rfl
  rw [primaryStart_eq] at hs
  have hsession : s.session.prepared settings s.fixture script = s.session := by
    rw [hs]
    exact Session.prepared_prepared script session
  rw [primaryStart_eq]
  dsimp only
  rw [hsession, hs]
  rfl

theorem retryStart_again (settings : Settings) (overrides : Table String) (script : String)
    (session : Session) (fixture : Fixture) :
    let s := retryStart settings overrides script { session, fixture }
    retryStart settings overrides script { session := s.session, fixture := s.fixture } =
      s.recount := by
  have hstart := primaryStart_again settings script session fixture
  dsimp only at hstart ⊢
  rw [retryStart_eq, retryStart_eq, hstart]
  generalize primaryStart settings script { session, fixture } = s
  rfl

end Run

section
variable {α : Type}

/-- The call `second` came to the same as `first`, and each of them changed nothing about the fixture
but the number of scrapes. -/
structure Outcome.Repeats (second first : Outcome α) (fixture : Fixture) : Prop where
  result : second.result = first.result
  session : second.session = first.session
  events : second.events = first.events
  elapsed : second.elapsed = first.elapsed
  scraped : first.fixture = { fixture with scrapes := fixture.scrapes + 1 }
  rescraped : second.fixture = { first.fixture with scrapes := first.fixture.scrapes + 1 }

theorem Outcome.NoAction.of_events {o : Outcome α} {s : State} {pass : Pass} {last : Event}
    (h : o.NoAction) (he : o.events = (s.events ++ [last]).map (⟨pass, ·⟩)) : Run.NoAction s := by
  intro e hm
  refine h ⟨pass, e⟩ ?_
  rw [he]
  exact List.mem_map.2 ⟨e, List.mem_append_left _ hm, rfl⟩

theorem Run.repeats_primary {out : Except Halt String × State} {fixture : Fixture}
    (hf : out.2.fixture = { fixture with scrapes := fixture.scrapes + 1 }) :
    (primaryOutcome (out.1, out.2.recount)).Repeats (primaryOutcome out) fixture :=
  ⟨rfl, rfl, rfl, rfl, hf, rfl⟩

theorem Run.repeats_retry {out : Except Halt String × State} {fixture : Fixture}
    (hf : out.2.fixture = { fixture with scrapes := fixture.scrapes + 1 }) :
    (retryOutcome (out.1, out.2.recount)).Repeats (retryOutcome out) fixture :=
  ⟨rfl, rfl, rfl, rfl, hf, rfl⟩

/-- A call that executes no action comes to the same when it is made again on what it left, and leaves
everything as it is but the number of scrapes. -/
theorem repeats (settings : Settings) (templates : String → Option String) (session : Session)
    (fixture : Fixture) (script : String) (overrides : Table String) :
    (∀ first, parse settings templates session fixture script = first → first.NoAction →
      (parse settings templates first.session first.fixture script).Repeats first fixture) ∧
    ∀ first, parseWithOverrides settings templates session fixture script overrides = first →
      first.NoAction →
        (parseWithOverrides settings templates first.session first.fixture script overrides).Repeats
          first fixture := by
  have hfixture := congrArg State.fixture (Run.primaryStart_eq settings script { session, fixture })
  constructor
  · intro first hfirst hn
    rw [parse_eq] at hfirst
    generalize hout : (Run.resolve _ _).run _ = out at hfirst
    subst hfirst
    obtain ⟨hs, hf, hagain⟩ :=
      Run.resolve_again (Template.separated_ofScript _) hout (hn.of_events rfl)
    have hstart : Run.primaryStart settings script
        { session := (Run.primaryOutcome out).session, fixture := (Run.primaryOutcome out).fixture } =
          (Run.primaryStart settings script { session, fixture }).recount := by
      rw [← Run.primaryStart_again, ← hs, ← hf]
      rfl
    rw [parse_eq, hstart, hagain]
    exact Run.repeats_primary (hf.trans hfixture)
  · intro first hfirst hn
    rw [parseWithOverrides_eq] at hfirst
    generalize hout : (Run.resolve _ _).run _ = out at hfirst
    subst hfirst
    obtain ⟨hs, hf, hagain⟩ :=
      Run.resolve_again (separated_overridden overrides script) hout (hn.of_events rfl)
    have hstart : Run.retryStart settings overrides script
        { session := (Run.retryOutcome out).session, fixture := (Run.retryOutcome out).fixture } =
          (Run.retryStart settings overrides script { session, fixture }).recount := by
      rw [← Run.retryStart_again, ← hs, ← hf]
      rfl
    rw [parseWithOverrides_eq, hstart, hagain]
    exact Run.repeats_retry (hf.trans hfixture)

/-- A script that mounts two conversations and fills a template. -/
def mountsAndFills : String :=
  "#> mount['a'] from 'far'\n#> mount['b'] from 'nowhere'\n" ++ filled " $x"

/-- A fixture of which nothing can be had: the scrape fails, and the one conversation is too far away. -/
def unreachable : Fixture :=
  { scrapeError := some "down"
    conversations := ⟨[("far", [.user "hello"])]⟩
    fetchDelays := ⟨[("far", 30001)]⟩ }

/-- Where the scrape and both fetches fail and a link cannot be read, what an earlier call left is kept,
and the call comes to the same again, with or without overrides. -/
theorem repeats_unreachable :
    let session : Session := { history := [.user "before"], conduits := ⟨[("a", [])]⟩ }
    let first := parse {} brackets session unreachable mountsAndFills
    let retried := parseWithOverrides {} brackets session unreachable mountsAndFills ∅
    (first.result = .error (.unresolved [⟨"$x", .empty⟩]) ∧ first.NoAction ∧
      (parse {} brackets first.session first.fixture mountsAndFills).Repeats first unreachable) ∧
    retried.result = .ok ⟨"", [⟨"$x", .empty⟩]⟩ ∧ retried.NoAction ∧
      (parseWithOverrides {} brackets retried.session retried.fixture mountsAndFills ∅).Repeats
        retried unreachable := by
  intro session first retried
  have hfirst : first.NoAction := by decide +kernel
  have hretried : retried.NoAction := by decide +kernel
  have h := repeats {} brackets session unreachable mountsAndFills ∅
  exact ⟨⟨by decide +kernel, hfirst, h.1 first rfl hfirst⟩, by decide +kernel, hretried,
    h.2 retried rfl hretried⟩

end

end PortalScript
