import PortalScript.Portal
import PortalScript.Resolution.State

/-! # Action portals

An action acts on a turn of the live conversation and gives no text. Its failure is always hard, as
the conversation may have changed already, and either way the outcome is left in a session
variable. How parameter values are resolved is a parameter here. -/

namespace PortalScript

/-- The request of an action: editing needs a text, copying is as text unless told otherwise. -/
def Action.request (a : Action) (params : List (String × String)) : Except String Request :=
  match a with
  | .edit =>
    if params.any fun (k, v) => k = "new_text" && !Text.allBlank v.toList then .ok ⟨a.name, params⟩
    else .error "edit requires a non-empty new_text"
  | .copy =>
    if params.any fun (k, _) => k = "format" then .ok ⟨a.name, params⟩
    else .ok ⟨a.name, params ++ [("format", "text")]⟩
  | _ => .ok ⟨a.name, params⟩

namespace Run

/-- Resolves the values of an action's parameters in order, up to the first failure. A soft failure
becomes one of the action. -/
def actionParams (resolve : Fragment → Run (Except Halt String)) (fail : String → HardFailure) :
    List (String × Fragment) → Run (Except HardFailure (List (String × String)))
  | [] => return .ok []
  | (key, raw) :: rest => do
    match ← resolve raw with
    | .ok value => return (← actionParams resolve fail rest).map ((key, value) :: ·)
    | .error (.soft f) => return .error (fail s!"parameter '{key}' unresolved: {f.message}")
    | .error (.hard e) => return .error e

/-- Performs a request on a turn of the live conversation, then waits for it to settle. -/
def perform (settings : Settings) (target : TurnRef) (r : Request) : Run (Except String Unit) := do
  let s ← get
  match s.fixture.find target with
  | none => return .error "target not found"
  | some handle =>
    match s.fixture.perform handle r with
    | .error e => return .error e.message
    | .ok f =>
      set { s with fixture := f }
      wait settings.settleTime
      return .ok ()

def act (settings : Settings) (resolve : Fragment → Run (Except Halt String)) (p : ActionPortal) :
    Run (Except HardFailure Unit) := do
  let fail (reason : String) : HardFailure := .action ⟨p.targetLabel, p.action.name, reason⟩
  match p.action with
  | .unknown name =>
    return .error (.malformed ⟨.unknownAction name, "@" ++ p.targetLabel ++ ":" ++ name⟩)
  | _ =>
    if p.conduit.isSome then
      return .error (fail "target not found: actions apply only to the live conversation")
    else
      match ← actionParams resolve fail p.params.entries with
      | .error e => return .error e
      | .ok params =>
        match p.action.request params with
        | .error reason => return .error (fail reason)
        | .ok r => return (← perform settings p.target r).mapError fail

/-- Runs an action portal and leaves the outcome in the session. -/
def executeAction (settings : Settings) (resolve : Fragment → Run (Except Halt String))
    (p : ActionPortal) : Run (Except Halt String) := do
  emit (.actionStarted p.targetLabel p.action.name)
  match ← act settings resolve p with
  | .ok () =>
    modifySession (·.setVar Session.lastActionStatus Session.statusSuccess)
    emit (.actionSucceeded p.targetLabel p.action.name)
    return .ok ""
  | .error e =>
    modifySession (·.setVar Session.lastActionStatus Session.statusFailed)
    emit (.actionFailed p.targetLabel p.action.name e.message)
    return .error (.hard e)

end Run

end PortalScript
