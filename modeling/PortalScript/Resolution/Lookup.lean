import PortalScript.Link
import PortalScript.Resolution.State

/-! # Following links

A link reads a variable, or a turn of the session's history or of a conduit. A link that reads no
text fails softly, under its spelling in the script. -/

namespace PortalScript

namespace TurnLink

/-- The text of the turn in a history, or how many turns of its author there are instead. -/
def select (l : TurnLink) (history : History) : Except LinkFailure String :=
  match l.target.select history with
  | none => .error (.outOfRange l.target (history.countBy l.target.author))
  | some (.ai chat thoughts) => .ok (if l.thoughts then thoughts else chat)
  | some (.user content) => .ok content

end TurnLink

namespace Session

def historyOf (s : Session) (l : TurnLink) : Except LinkFailure History :=
  match l.conduit with
  | none => .ok s.history
  | some name =>
    match s.conduits.get? name with
    | some history => .ok history
    | none => .error (.unknownConduit name)

def read (s : Session) : Link → Except LinkFailure String
  | .session name => .ok ((s.vars.get? name).getD "")
  | .turn l => (s.historyOf l).bind l.select

/-- The text of a link. No text is a failure. -/
def lookup (s : Session) (l : Link) : Except LinkFailure String :=
  match s.read l with
  | .ok text => if text.isEmpty then .error .empty else .ok text
  | .error e => .error e

end Session

namespace Run

/-- Follows a link; a failure is noted under the link's spelling. -/
def resolveLink (l : Link) (token : String) : Run (Except Halt String) := do
  emit (.linkStarted token)
  match (← get).session.lookup l with
  | .ok text =>
    emit (.linkSucceeded token text.length)
    return .ok text
  | .error reason =>
    emit (.linkFailed token reason.message)
    record ⟨token, reason⟩
    return .error (.soft ⟨token, reason⟩)

end Run

end PortalScript
