import PortalScript.Resolution.Expansion

/-! # The steps of a resolution

Resolving a template is a few steps over and over: events are emitted, failures noted, links looked up,
the session is written to, and requests are performed. So what holds of these steps, and of two parts
that run one after the other when it holds of both, holds of the whole (`Closed.resolve`). -/

namespace PortalScript.Run

/-- What follows a look-up. -/
def reportLink (token : String) : Except LinkFailure String → Run (Except Halt String)
  | .ok text => do
    emit (.linkSucceeded token text.length)
    return .ok text
  | .error reason => do
    emit (.linkFailed token reason.message)
    record ⟨token, reason⟩
    return .error (.soft ⟨token, reason⟩)

theorem resolveLink_eq (l : Link) (token : String) : resolveLink l token = (do
    emit (.linkStarted token)
    reportLink token (← (do return (← get).session.lookup l))) := rfl

/-- A property that the steps of a resolution have, and that is kept by running one part after
another. -/
structure Closed (P : {α : Type} → Run α → Prop) : Prop where
  pure : ∀ {α : Type} (a : α), P (pure a)
  bind : ∀ {α β : Type} {m : Run α} {f : α → Run β}, P m → (∀ a, P (f a)) → P (m >>= f)
  emit : ∀ e, P (emit e)
  record : ∀ f, P (record f)
  lookup : ∀ l, P (do return (← get).session.lookup l)
  modifySession : ∀ f, P (modifySession f)
  perform : ∀ settings target r, P (perform settings target r)

namespace Closed
variable {P : {α : Type} → Run α → Prop} (hP : Closed P) {c : Context} {settings : Settings}
  {value : Fragment → Run (Except Halt String)} {nested : Template → Run (Except Halt String)}
include hP

theorem resolveLink (l : Link) (token : String) : P (resolveLink l token) := by
  rw [resolveLink_eq]
  refine hP.bind (hP.emit _) fun _ => hP.bind (hP.lookup l) fun r => ?_
  cases r with
  | ok text => exact hP.bind (hP.emit _) fun _ => hP.pure _
  | error reason =>
    exact hP.bind (hP.emit _) fun _ => hP.bind (hP.record _) fun _ => hP.pure _

theorem resolveValue (hn : ∀ t, P (nested t)) (raw : Fragment) : P (resolveValue nested raw) := by
  unfold Run.resolveValue
  split
  · exact hP.pure _
  · exact hn _
  · exact hP.resolveLink _ _
  · exact hP.pure _
  · exact hP.pure _

theorem resolveParams (hv : ∀ raw, P (value raw)) (entries : List (String × Fragment)) :
    P (resolveParams value entries) := by
  induction entries with
  | nil => exact hP.pure _
  | cons e entries ih =>
    refine hP.bind (hv e.2) fun r => ?_
    rcases r with (f | h) | value
    · refine hP.bind ih fun r => ?_
      split <;> exact hP.pure _
    · exact hP.pure _
    · exact hP.bind ih fun _ => hP.pure _

theorem actionParams (hv : ∀ raw, P (value raw)) (fail : String → HardFailure)
    (entries : List (String × Fragment)) : P (actionParams value fail entries) := by
  induction entries with
  | nil => exact hP.pure _
  | cons e entries ih =>
    refine hP.bind (hv e.2) fun r => ?_
    rcases r with (f | h) | value
    · exact hP.pure _
    · exact hP.pure _
    · exact hP.bind ih fun _ => hP.pure _

theorem act (hv : ∀ raw, P (value raw)) (p : ActionPortal) : P (act settings value p) := by
  unfold Run.act
  dsimp only
  split
  · exact hP.pure _
  split
  · exact hP.pure _
  refine hP.bind (hP.actionParams hv _ _) fun r => ?_
  split
  · exact hP.pure _
  split
  · exact hP.pure _
  · exact hP.bind (hP.perform settings _ _) fun _ => hP.pure _

theorem executeAction (hv : ∀ raw, P (value raw)) (p : ActionPortal) :
    P (executeAction settings value p) := by
  refine hP.bind (hP.emit _) fun _ => hP.bind (hP.act hv p) fun r => ?_
  split <;>
    exact hP.bind (hP.modifySession _) fun _ => hP.bind (hP.emit _) fun _ => hP.pure _

theorem missing (id : String) : P (missing c id) := by
  unfold Run.missing
  split
  · exact hP.pure _
  · exact hP.bind (hP.record _) fun _ => hP.pure _

theorem executeData (hv : ∀ raw, P (value raw)) (p : DataPortal) : P (executeData c value p) := by
  unfold Run.executeData
  split
  · exact hP.pure _
  refine hP.bind (hP.resolveParams hv _) fun r => ?_
  split
  · exact hP.pure _
  split
  · exact hP.pure _
  · exact hP.missing _

theorem executePortal (hn : ∀ t, P (nested t)) (body : Fragment) : P (executePortal c nested body) := by
  unfold Run.executePortal
  split
  · exact hP.pure _
  · exact hP.executeData (hP.resolveValue hn) _
  · exact hP.executeAction (hP.resolveValue hn) _

theorem runPortal (hn : ∀ t, P (nested t)) (span : Span) : P (runPortal c nested span) := by
  refine hP.bind (hP.emit _) fun _ => hP.bind (hP.executePortal hn _) fun r => ?_
  rcases r with (f | e) | text <;> exact hP.bind (hP.emit _) fun _ => hP.pure _

theorem resolveWith (fuel : Nat) (t : Template) : P (resolveWith c fuel t) := by
  induction fuel generalizing t with
  | zero => exact hP.pure _
  | succ fuel ih =>
    rw [Run.resolveWith]
    split
    · exact hP.pure _
    refine hP.bind (hP.runPortal ih _) fun r => ?_
    cases r with
    | ok text => exact ih _
    | error e => exact hP.pure _

theorem resolve (t : Template) : P (Run.resolve c t) := hP.resolveWith t.sourceLength t

end Closed

end PortalScript.Run
