import PortalScript.Event
import PortalScript.Failure
import PortalScript.Fixture
import PortalScript.Session

/-! # The state of a call

A call reads its `Settings` and the store of templates and works on a `State`: the session, the
fixture, the soft failures and the events so far, and the milliseconds that have passed. Time passes
only where the call waits. -/

namespace PortalScript

/-- What a portal gives whose template is not in the store. -/
inductive MissingTemplate
  | failure
  | nothing
deriving Repr, DecidableEq

structure Settings where
  /-- The pause after each performed action, in milliseconds. -/
  settle : Nat := 500
  /-- The milliseconds after which fetching a conversation is given up, if ever. -/
  mountTimeout : Option Nat := some 30000
  missingTemplate : MissingTemplate := .failure
  /-- What the call waits by. -/
  timer : Timer := .usual

/-- How many milliseconds a performed action takes to settle. There is a pause only if one is set. -/
def Settings.settleTime (settings : Settings) : Nat :=
  if settings.settle = 0 then 0 else settings.timer.length settings.settle

/-- What a call reads and never changes. -/
structure Context where
  settings : Settings
  templates : String → Option String
  /-- The texts that stand in for the results of portals, by the quoted ids of their templates. -/
  standIns : Table String := ∅

structure State where
  session : Session
  fixture : Fixture
  failures : List SoftFailure := []
  events : List Event := []
  elapsed : Nat := 0
deriving Repr, DecidableEq

abbrev Run := StateM State

namespace Run

def emit (e : Event) : Run Unit := modify fun s => { s with events := s.events ++ [e] }

def record (f : SoftFailure) : Run Unit := modify fun s => { s with failures := s.failures ++ [f] }

def modifySession (f : Session → Session) : Run Unit := modify fun s => { s with session := f s.session }

def wait (milliseconds : Nat) : Run Unit :=
  modify fun s => { s with elapsed := s.elapsed + milliseconds }

end Run

end PortalScript
