import PortalScript.Proofs.Portal.Values
import PortalScript.Proofs.Template.Stretch
import PortalScript.Resolution.Expansion

/-! # Nested templates hold no portal

Executing a portal resolves each parameter value that opens with a portal marker as a template of
its own. That value is cut out of the body of an innermost portal, which has no marker, so the nested
template is given back as it stands (`runPortal_eq_literal`) and the recursion ends at once. The way
there: what a portal does depends on the resolution of nested templates only through the values of
that portal (`executePortal_congr`). -/

namespace PortalScript

theorem Template.innermost_eq_none {t : Template} (h : t.nextMarker = none) : t.innermost = none := by
  rw [innermost]
  split
  · rfl
  · simp_all

namespace Run

/-- Gives a template back as it stands. -/
def literal (t : Template) : Run (Except Halt String) := return .ok t.render

theorem resolveWith_of_innermost_eq_none {t : Template} (c : Context) (fuel : Nat)
    (h : t.innermost = none) : resolveWith c fuel t = literal t := by
  cases fuel with
  | zero => rfl
  | succ fuel => rw [resolveWith, h, literal]

section
variable {nested nested' : Template → Run (Except Halt String)}
  {resolve resolve' : Fragment → Run (Except Halt String)}

theorem resolveValue_congr {value : Fragment} (h : ∀ raw, Value.classify value = .ok (.portal raw) →
    nested (.ofFragment raw) = nested' (.ofFragment raw)) :
    resolveValue nested value = resolveValue nested' value := by
  unfold resolveValue
  split
  · rfl
  · rename_i raw hr
    exact h raw hr
  · rfl
  · rfl
  · rfl

theorem resolveParams_congr {entries : List (String × Fragment)}
    (h : ∀ e ∈ entries, resolve e.2 = resolve' e.2) :
    resolveParams resolve entries = resolveParams resolve' entries := by
  induction entries with
  | nil => rfl
  | cons e entries ih =>
    rw [resolveParams, resolveParams, h e List.mem_cons_self,
      ih fun e he => h e (List.mem_cons_of_mem _ he)]

theorem actionParams_congr {fail : String → HardFailure} {entries : List (String × Fragment)}
    (h : ∀ e ∈ entries, resolve e.2 = resolve' e.2) :
    actionParams resolve fail entries = actionParams resolve' fail entries := by
  induction entries with
  | nil => rfl
  | cons e entries ih =>
    rw [actionParams, actionParams, h e List.mem_cons_self,
      ih fun e he => h e (List.mem_cons_of_mem _ he)]

theorem executeData_congr {c : Context} {p : DataPortal}
    (h : ∀ e ∈ p.params.entries, resolve e.2 = resolve' e.2) :
    executeData c resolve p = executeData c resolve' p := by
  unfold executeData
  rw [resolveParams_congr h]

theorem executeAction_congr {settings : Settings} {p : ActionPortal}
    (h : ∀ e ∈ p.params.entries, resolve e.2 = resolve' e.2) :
    executeAction settings resolve p = executeAction settings resolve' p := by
  unfold executeAction act
  simp only [actionParams_congr h]

/-- A portal resolves no nested template but those its values are. -/
theorem executePortal_congr {c : Context} {body : Fragment}
    (h : ∀ value raw, body.IsValueOf value → Value.classify value = .ok (.portal raw) →
      nested (.ofFragment raw) = nested' (.ofFragment raw)) :
    executePortal c nested body = executePortal c nested' body := by
  have hv {p : Portal} (hp : Portal.parse body = .ok p) :
      ∀ e ∈ p.params.entries, resolveValue nested e.2 = resolveValue nested' e.2 :=
    fun e he => resolveValue_congr fun raw hr => h e.2 raw (Portal.isValueOf_of_parse hp e he) hr
  unfold executePortal
  split
  · rfl
  · rename_i p hp
    exact executeData_congr (hv hp)
  · rename_i p hp
    exact executeAction_congr (hv hp)

end

theorem runPortal_eq_literal (c : Context) {nested : Template → Run (Except Halt String)}
    (h : ∀ t : Template, t.innermost = none → nested t = literal t) {span : Span}
    (hs : Template.Separated span.body) (hn : span.body.nextMarker = none) :
    runPortal c nested span = runPortal c literal span := by
  unfold runPortal
  rw [executePortal_congr]
  intro value raw hv hr
  refine h _ (Template.innermost_eq_none ?_)
  exact Template.nextMarker_ofFragment_of_infix hs hn (Value.infix_of_classify_portal hv hr)

end Run

end PortalScript
