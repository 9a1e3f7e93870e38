import PortalScript.Timer
import PortalScript.Turn.Stored

/-! # Fixtures

A fixture is a live conversation held in memory together with all that can be reached from it:
other conversations, templates and variables. Turns are found by `find` and acted on by `perform`,
which changes nothing when it fails. -/

namespace PortalScript

/-- A turn that was found: the reference it was found by, and where it stood in the history. -/
structure Handle where
  target : TurnRef
  locator : String
deriving Repr, DecidableEq

structure Request where
  action : String
  params : List (String × String)
deriving Repr, DecidableEq

def Request.param? (r : Request) (key : String) : Option String := Table.lookup key r.params

structure ActionRecord where
  target : TurnRef
  action : String
  params : List (String × String)
deriving Repr, DecidableEq

inductive SurfaceError
  | scrape (reason : String)
  | unknownConversation (id : String)
  | timedOut (milliseconds : Nat)
  | staleHandle (locator : String)
  | absentTurn (target : TurnRef)
  | noNewText
  | unsupportedFormat (format : String)
  | unsupportedAction (name : String)
deriving Repr, DecidableEq

def SurfaceError.message : SurfaceError → String
  | scrape reason => reason
  | unknownConversation id => s!"conversation '{id}' not found"
  | timedOut ms => s!"timed out after {ms}ms"
  | staleHandle locator => s!"stale handle '{locator}'"
  | absentTurn target => s!"{target.label} is no longer present"
  | noNewText => "edit requires new_text"
  | unsupportedFormat format => s!"unsupported copy format '{format}'"
  | unsupportedAction name => s!"unsupported action '{name}'"

structure Fixture where
  history : History := []
  conversations : Table History := ∅
  templates : Table String := ∅
  /-- The variables with which a session starts. -/
  vars : Table String := ∅
  /-- The pause in fetching a conversation, in milliseconds, if there is one. -/
  fetchDelays : Table Nat := ∅
  /-- What every scrape fails with, if it fails. -/
  scrapeError : Option String := none
  actions : List ActionRecord := []
  clipboard : Option String := none
  /-- How often the live conversation was scraped. -/
  scrapes : Nat := 0
deriving Repr, DecidableEq

namespace Fixture

/-- Reads the live conversation, and counts the attempt. -/
def scrape (f : Fixture) : Except SurfaceError History × Fixture :=
  (match f.scrapeError with
    | some reason => .error (.scrape reason)
    | none => .ok f.history,
    { f with scrapes := f.scrapes + 1 })

/-- How many milliseconds fetching a conversation takes. There is a pause only if one is asked for. -/
def fetchDelay (f : Fixture) (id : String) (timer : Timer := .usual) : Nat :=
  match f.fetchDelays.get? id with
  | some delay => timer.length delay
  | none => 0

def fetch (f : Fixture) (id : String) : Except SurfaceError History :=
  match f.conversations.get? id with
  | some history => .ok history
  | none => .error (.unknownConversation id)

def find (f : Fixture) (target : TurnRef) : Option Handle :=
  (target.position f.history).map fun i => ⟨target, toString i⟩

/-- The place in the history that a handle names, if the turn there is still one of the handle's
author. -/
def locate (f : Fixture) (h : Handle) : Except SurfaceError (Nat × Turn) :=
  match Text.readNat? Text.maxWord64 h.locator.toList with
  | none => .error (.staleHandle h.locator)
  | some i =>
    match f.history[i]? with
    | some turn => if turn.author = h.target.author then .ok (i, turn) else .error (.absentTurn h.target)
    | none => .error (.absentTurn h.target)

def copied (turn : Turn) (format : String) : Except SurfaceError String :=
  if format = "text" then .ok turn.text
  else if format = "json" then .ok turn.toJson.compact
  else .error (.unsupportedFormat format)

/-- The effect of a request on the turn at place `i`. -/
def effect (f : Fixture) (i : Nat) (turn : Turn) (r : Request) : Except SurfaceError Fixture :=
  if r.action = "delete" then .ok { f with history := f.history.eraseIdx i }
  else if r.action = "edit" then
    match r.param? "new_text" with
    | some text => .ok { f with history := f.history.set i (turn.withText text) }
    | none => .error .noNewText
  else if r.action = "copy" then
    match copied turn ((r.param? "format").getD "text") with
    | .ok text => .ok { f with clipboard := some text }
    | .error e => .error e
  else if r.action = "rerun" || r.action = "branch" then .ok f
  else .error (.unsupportedAction r.action)

def perform (f : Fixture) (h : Handle) (r : Request) : Except SurfaceError Fixture :=
  match f.locate h with
  | .error e => .error e
  | .ok (i, turn) =>
    match effect f i turn r with
    | .error e => .error e
    | .ok f' => .ok { f' with actions := f'.actions ++ [⟨h.target, r.action, r.params⟩] }

end Fixture

end PortalScript
