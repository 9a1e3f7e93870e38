import PortalScript.Resolution.Expansion
import PortalScript.Resolution.Mounting
import PortalScript.Resolution.Override

/-! # Passes

The primary pass resolves a script completely or reports every link that it could not resolve. The
retry applies overrides first, empties the portals that still fail, and reports them as warnings. -/

namespace PortalScript

/-- What a call gives: its result, the session and the fixture after it, its events, and the
milliseconds it took. -/
structure Outcome (α : Type) where
  result : Except CallError α
  session : Session
  fixture : Fixture
  events : List Event.Record
  elapsed : Nat

/-- The text of a retry and the soft failures that remain. -/
structure Resolution where
  text : String
  warnings : List SoftFailure
deriving Repr, DecidableEq

namespace Resolution

def isClean (r : Resolution) : Bool := r.warnings.isEmpty

end Resolution

namespace Run

def finish {α : Type} (result : Except CallError α) (text : α → String) (warnings : α → Nat) :
    Run (Except CallError α) := do
  match result with
  | .ok a => emit (.parseCompleted (text a).length (warnings a))
  | .error e => emit (.parseFailed e.message)
  return result

/-- Turns what ended a template into what ends the call. A soft failure never gets this far. -/
def callError : Halt → CallError
  | .hard e => .hard e
  | .soft f => .unresolved [f]

def primary (c : Context) (script : String) : Run (Except CallError String) := do
  emit (.parseStarted script.length)
  let rest ← prepare c.settings script
  let resolved ← resolve c (.ofScript rest)
  let failures := (← get).failures
  let result := match resolved with
    | .error e => .error (callError e)
    | .ok text => if failures.isEmpty then .ok text else .error (.unresolved failures)
  finish result id fun _ => 0

def retry (c : Context) (overrides : Table String) (script : String) :
    Run (Except CallError Resolution) := do
  emit (.parseStarted script.length)
  let rest ← prepare c.settings script
  let (template, n) := Override.apply overrides (.ofScript rest)
  emit (.overridesApplied n)
  let resolved ← resolve { c with standIns := Override.standIns overrides } template
  let failures := (← get).failures
  let result := match resolved with
    | .error e => .error (callError e)
    | .ok text => .ok ⟨text, failures⟩
  finish result (·.text) (·.warnings.length)

def outcome {α : Type} (pass : Pass) (run : Run (Except CallError α)) (session : Session)
    (fixture : Fixture) : Outcome α :=
  let (result, s) := StateT.run run { session, fixture }
  ⟨result, s.session, s.fixture, s.events.map (⟨pass, ·⟩), s.elapsed⟩

end Run

/-- Resolves a script completely, or fails with every link that could not be resolved. -/
def parse (settings : Settings) (templates : String → Option String) (session : Session)
    (fixture : Fixture) (script : String) : Outcome String :=
  Run.outcome .primary (Run.primary ⟨settings, templates, ∅⟩ script) session fixture

/-- Resolves a script with overrides in place of tokens that failed. -/
def parseWithOverrides (settings : Settings) (templates : String → Option String) (session : Session)
    (fixture : Fixture) (script : String) (overrides : Table String) : Outcome Resolution :=
  Run.outcome .retry (Run.retry ⟨settings, templates, ∅⟩ overrides script) session fixture

end PortalScript
