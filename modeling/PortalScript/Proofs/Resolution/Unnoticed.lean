import PortalScript.Proofs.Resolution.Closed
import PortalScript.Proofs.Resolution.Step

/-! # What a resolution does not notice

A resolution reads the session and the live conversation. It reads neither the events that were
reported before it started (`commutes_precede`) nor how often the conversation was scraped
(`commutes_recount`): resolving a template after such a change gives the same result, and in the end
state the same change. -/

namespace PortalScript

namespace Fixture

/-- The fixture with one more scrape counted. -/
def recount (f : Fixture) : Fixture := { f with scrapes := f.scrapes + 1 }

variable {f : Fixture}

theorem effect_recount (i : Nat) (turn : Turn) (r : Request) :
    f.recount.effect i turn r = (f.effect i turn r).map recount := by
  unfold effect
  split
  · rfl
  split
  · cases r.param? "new_text" <;> rfl
  split
  · cases copied turn ((r.param? "format").getD "text") <;> rfl
  split <;> rfl

theorem perform_recount (h : Handle) (r : Request) :
    f.recount.perform h r = (f.perform h r).map recount := by
  have hl : f.recount.locate h = f.locate h := rfl
  unfold perform
  rw [hl]
  cases f.locate h with
  | error e => rfl
  | ok place =>
    dsimp only
    rw [effect_recount]
    cases f.effect place.1 place.2 r <;> rfl

end Fixture

namespace State

/-- The state with events reported before all that it has. -/
def precede (past : List Event) (s : State) : State := { s with events := past ++ s.events }

/-- The state with one more scrape counted. -/
def recount (s : State) : State := { s with fixture := s.fixture.recount }

end State

namespace Run
variable {α β : Type} {φ : State → State} {m : Run α} {f : α → Run β}

/-- It makes no difference to `m` whether the state is changed before or behind it. -/
def Commutes (φ : State → State) (m : Run α) : Prop := ∀ s, m.run (φ s) = ((m.run s).1, φ (m.run s).2)

theorem Commutes.pure (a : α) : Commutes φ (pure a) := fun _ => rfl

theorem Commutes.bind (hm : Commutes φ m) (hf : ∀ a, Commutes φ (f a)) : Commutes φ (m >>= f) := by
  intro s
  rw [run_bind (hm s), hf]
  rfl

/-- A change of the state that leaves the session as it is and commutes with the steps that write. -/
structure Unnoticed (φ : State → State) : Prop where
  session : ∀ s, (φ s).session = s.session
  emit : ∀ e, Commutes φ (emit e)
  record : ∀ f, Commutes φ (record f)
  modifySession : ∀ f, Commutes φ (modifySession f)
  perform : ∀ settings target r, Commutes φ (perform settings target r)

theorem Unnoticed.closed (h : Unnoticed φ) : Closed (Commutes φ) where
  pure := .pure
  bind := .bind
  emit := h.emit
  record := h.record
  lookup l s := by
    show ((φ s).session.lookup l, φ s) = (s.session.lookup l, φ s)
    rw [h.session]
  modifySession := h.modifySession
  perform := h.perform

theorem unnoticed_precede (past : List Event) : Unnoticed (State.precede past) where
  session _ := rfl
  emit e s := by
    show ((), { s with events := past ++ s.events ++ [e] }) =
      ((), { s with events := past ++ (s.events ++ [e]) })
    rw [List.append_assoc]
  record _ _ := rfl
  modifySession _ _ := rfl
  perform settings target r s := by
    rw [run_perform_eq, run_perform_eq, State.precede]
    cases s.fixture.find target with
    | none => rfl
    | some handle =>
      dsimp only
      cases s.fixture.perform handle r <;> rfl

theorem unnoticed_recount : Unnoticed State.recount where
  session _ := rfl
  emit _ _ := rfl
  record _ _ := rfl
  modifySession _ _ := rfl
  perform settings target r s := by
    have hfind : s.recount.fixture.find target = s.fixture.find target := rfl
    rw [run_perform_eq, run_perform_eq, hfind]
    cases s.fixture.find target with
    | none => rfl
    | some handle =>
      have hperform : s.recount.fixture.perform handle r =
          (s.fixture.perform handle r).map Fixture.recount := Fixture.perform_recount handle r
      dsimp only
      rw [hperform]
      cases s.fixture.perform handle r <;> rfl

/-- The events before a resolution have no part in it. -/
theorem commutes_precede (past : List Event) (c : Context) (t : Template) :
    Commutes (State.precede past) (resolve c t) := (unnoticed_precede past).closed.resolve t

theorem commutes_recount (c : Context) (t : Template) : Commutes State.recount (resolve c t) :=
  unnoticed_recount.closed.resolve t

end Run

end PortalScript
