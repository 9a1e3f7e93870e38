import PortalScript.ParseError
import PortalScript.Turn.Reference

/-! # Failures of a resolution

A soft failure empties the portal in which it occurs and the resolution goes on; a hard failure ends
the call. `CallError` is what a call as a whole can fail with: a hard failure, or the soft failures
of a pass that does not put up with them. -/

namespace PortalScript

/-- Why a link or a template id gave no text. -/
inductive LinkFailure
  | empty
  | unknownConduit (name : String)
  | outOfRange (target : TurnRef) (available : Nat)
  | missingTemplate (id : String)
deriving Repr, DecidableEq

def LinkFailure.message : LinkFailure → String
  | empty => "resolved value is empty"
  | unknownConduit name => s!"conduit '{name}' is not mounted"
  | outOfRange target n =>
    s!"{target.label} is out of range ({n} {target.author.label} turn(s) available)"
  | missingTemplate id => s!"prompt template '{id}' not found"

/-- A link or template id that gave no text, under its spelling in the script. -/
structure SoftFailure where
  token : String
  reason : LinkFailure
deriving Repr, DecidableEq

def SoftFailure.message (f : SoftFailure) : String := s!"unresolved {f.token}: {f.reason.message}"

structure ActionError where
  target : String
  action : String
  reason : String
deriving Repr, DecidableEq

def ActionError.message (e : ActionError) : String :=
  s!"action '{e.action}' on {e.target} failed: {e.reason}"

inductive HardFailure
  | malformed (error : ParseError)
  | action (error : ActionError)
deriving Repr, DecidableEq

def HardFailure.message : HardFailure → String
  | malformed e => "syntax error: " ++ e.message
  | action e => e.message

/-- What ends a portal: a soft failure, which the call survives, or a hard one. -/
inductive Halt
  | soft (failure : SoftFailure)
  | hard (failure : HardFailure)
deriving Repr, DecidableEq

def Halt.message : Halt → String
  | soft f => f.message
  | hard f => f.message

inductive CallError
  | hard (failure : HardFailure)
  /-- The soft failures of the pass, in the order in which they occurred. -/
  | unresolved (failures : List SoftFailure)
deriving Repr, DecidableEq

/-- The soft failures of a pass, one a line below their number. -/
def SoftFailure.listing (failures : List SoftFailure) : String :=
  failures.foldl (fun text f => text ++ "\n  - " ++ f.message) s!"{failures.length} unresolved link(s)"

def CallError.message : CallError → String
  | hard f => f.message
  | unresolved fs => SoftFailure.listing fs

end PortalScript
