import PortalScript.Placeholder
import PortalScript.Resolution.Acting
import PortalScript.Resolution.Lookup
import PortalScript.Template.Span
import PortalScript.Value

/-! # Resolving a template

The leftmost innermost portal of a template is executed and replaced by its result until none is
left. A soft failure empties the portal, a hard one ends the run. A parameter value that opens with
a portal marker is a template of its own and is resolved in its turn.

Each portal uses up its eight marker characters of source text, and a nested value lies within the
portal it is a part of; so the source length of the template bounds the run, and `resolve` gives it
that much fuel. -/

namespace PortalScript.Run

/-- The token under which the failures of a template id are known. -/
def templateToken (id : String) : String := "'" ++ id ++ "'"

/-- Resolves a parameter value; `nested` resolves the templates inside. -/
def resolveValue (nested : Template → Run (Except Halt String)) (raw : Fragment) :
    Run (Except Halt String) :=
  match Value.classify raw with
  | .error e => return .error (.hard (.malformed e))
  | .ok (.portal raw) => nested (.ofFragment raw)
  | .ok (.link l token) => resolveLink l token
  | .ok (.quoted text) => return .ok text
  | .ok (.bare text) => return .ok text

/-- Resolves the values of all parameters, also after a soft failure. The first soft failure is the
result unless a hard one follows. -/
def resolveParams (resolve : Fragment → Run (Except Halt String)) :
    List (String × Fragment) → Run (Except Halt (List (String × String)))
  | [] => return .ok []
  | (key, raw) :: rest => do
    match ← resolve raw with
    | .ok value => return (← resolveParams resolve rest).map ((key, value) :: ·)
    | .error (.hard e) => return .error (.hard e)
    | .error (.soft f) =>
      match ← resolveParams resolve rest with
      | .error (.hard e) => return .error (.hard e)
      | _ => return .error (.soft f)

/-- What a portal gives whose template is not in the store. -/
def missing (c : Context) (id : String) : Run (Except Halt String) :=
  match c.settings.missingTemplate with
  | .nothing => return .ok ""
  | .failure => do
    let f : SoftFailure := ⟨templateToken id, .missingTemplate id⟩
    record f
    return .error (.soft f)

/-- Expands the template of a data portal with its parameters. A stand-in makes the parameters
moot. -/
def executeData (c : Context) (resolve : Fragment → Run (Except Halt String)) (p : DataPortal) :
    Run (Except Halt String) :=
  match c.standIns.get? (templateToken p.id) with
  | some text => return .ok text
  | none => do
    match ← resolveParams resolve p.params.entries with
    | .error e => return .error e
    | .ok values =>
      match c.templates p.id with
      | some body => return .ok (Placeholder.fill values body)
      | none => missing c p.id

def executePortal (c : Context) (nested : Template → Run (Except Halt String)) (body : Fragment) :
    Run (Except Halt String) :=
  match Portal.parse body with
  | .error e => return .error (.hard (.malformed e))
  | .ok (.data p) => executeData c (resolveValue nested) p
  | .ok (.action p) => executeAction c.settings (resolveValue nested) p

/-- Executes a portal between the events that report it; a soft failure gives no text. -/
def runPortal (c : Context) (nested : Template → Run (Except Halt String)) (span : Span) :
    Run (Except Halt String) := do
  emit (.portalStarted span.label)
  match ← executePortal c nested span.fragment with
  | .ok text =>
    emit (.portalSucceeded span.label text.length)
    return .ok text
  | .error (.soft f) =>
    emit (.portalFailed span.label f.message)
    return .ok ""
  | .error (.hard e) =>
    emit (.portalFailed span.label e.message)
    return .error (.hard e)

/-- Resolves the portals of a template, of which there are no more than there is fuel. -/
def resolveWith (c : Context) : Nat → Template → Run (Except Halt String)
  | 0, t => return .ok t.render
  | fuel + 1, t =>
    match t.innermost with
    | none => return .ok t.render
    | some span => do
      match ← runPortal c (resolveWith c fuel) span with
      | .ok text => resolveWith c fuel (span.splice text)
      | .error e => return .error e

/-- Resolves every portal of a template, the leftmost innermost first. -/
def resolve (c : Context) (t : Template) : Run (Except Halt String) :=
  resolveWith c t.sourceLength t

end PortalScript.Run
