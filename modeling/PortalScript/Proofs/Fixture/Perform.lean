import PortalScript.Fixture
import PortalScript.Portal
import PortalScript.Proofs.Text.Numeral

/-! # What performing a request does

`ActionRecord.effect` says what an action on record does to the live conversation and the clipboard. A
request that is performed on a turn that was just found has this effect and is put on record
(`Fixture.perform_eq_enact`); all else in the fixture stays (`Fixture.foldl_enact`). -/

namespace PortalScript

/-- What a copy of a turn puts on the clipboard. -/
def Turn.copy (turn : Turn) (format : Option String) : String :=
  if format = some "json" then turn.toJson.compact else turn.text

/-- What an action does to the live conversation and the clipboard: the turn that its reference names
is removed, given another text, or copied. -/
def ActionRecord.effect (r : ActionRecord) : History × Option String → History × Option String
  | (history, clipboard) =>
    match (r.target.position history).bind fun i => (history[i]?).map fun turn => (i, turn) with
    | none => (history, clipboard)
    | some (i, turn) =>
      match Action.ofName r.action with
      | .delete => (history.eraseIdx i, clipboard)
      | .edit =>
        (history.set i (turn.withText ((Table.lookup "new_text" r.params).getD "")), clipboard)
      | .copy => (history, some (turn.copy (Table.lookup "format" r.params)))
      | _ => (history, clipboard)

namespace Fixture
variable {f f' : Fixture} {h : Handle} {r : Request} {target : TurnRef} {i : Nat} {turn : Turn}

/-- The fixture after an action, which is put on record. -/
def enact (f : Fixture) (r : ActionRecord) : Fixture :=
  { f with
    history := (r.effect (f.history, f.clipboard)).1
    clipboard := (r.effect (f.history, f.clipboard)).2
    actions := f.actions ++ [r] }

theorem foldl_enact (records : List ActionRecord) (f : Fixture) :
    let after := records.foldl (fun s r => r.effect s) (f.history, f.clipboard)
    records.foldl enact f =
      { f with history := after.1, clipboard := after.2, actions := f.actions ++ records } := by
  induction records generalizing f with
  | nil => simp
  | cons r records ih => simp [ih, enact]

theorem locate_find (hh : f.find target = some h) (hl : f.locate h = .ok (i, turn)) :
    h.target = target ∧ target.position f.history = some i ∧ f.history[i]? = some turn := by
  obtain ⟨k, hk, rfl⟩ := Option.map_eq_some_iff.1 hh
  simp only [locate, Text.readNat?_toString] at hl
  split at hl
  · cases hl
  · rename_i j hj
    obtain ⟨-, hj⟩ := Option.ite_none_right_eq_some.1 hj
    cases hj
    split at hl
    · rename_i turn' ht
      split at hl <;> cases hl
      exact ⟨rfl, hk, ht⟩
    · cases hl

theorem copied_eq {format : Option String} {text : String}
    (h : copied turn (format.getD "text") = .ok text) : text = turn.copy format := by
  unfold copied at h
  unfold Turn.copy
  split at h
  · cases h
    rw [if_neg]
    rintro rfl
    simp_all
  split at h
  · cases h
    cases format <;> simp_all
  · cases h

theorem effect_eq {g : Fixture} (hp : target.position f.history = some i)
    (ht : f.history[i]? = some turn) (he : effect f i turn r = .ok g) :
    let after := (⟨target, r.action, r.params⟩ : ActionRecord).effect (f.history, f.clipboard)
    g = { f with history := after.1, clipboard := after.2 } := by
  obtain ⟨action, params⟩ := r
  unfold effect at he
  simp only [ActionRecord.effect, hp, ht, Option.bind_some, Option.map_some]
  split at he <;> rename_i hdelete
  · cases he
    cases hdelete
    rfl
  split at he <;> rename_i hedit
  · cases hedit
    split at he <;> rename_i htext
    · cases he
      rw [Request.param?] at htext
      rw [htext]
      rfl
    · cases he
  split at he <;> rename_i hcopy
  · cases hcopy
    split at he <;> rename_i hc
    · cases he
      rw [copied_eq hc]
      rfl
    · cases he
  split at he <;> rename_i hother
  · cases he
    simp only [Bool.or_eq_true, decide_eq_true_eq] at hother
    rcases hother with rfl | rfl <;> rfl
  · cases he

theorem perform_eq_enact (hh : f.find target = some h) (hf : f.perform h r = .ok f') :
    f' = f.enact ⟨target, r.action, r.params⟩ := by
  unfold perform at hf
  split at hf
  · cases hf
  rename_i i turn hl
  obtain ⟨htarget, hp, ht⟩ := locate_find hh hl
  cases he : effect f i turn r with
  | error e =>
    rw [he] at hf
    cases hf
  | ok g =>
    rw [he] at hf
    cases hf
    rw [effect_eq hp ht he, htarget]
    rfl

end Fixture

end PortalScript
