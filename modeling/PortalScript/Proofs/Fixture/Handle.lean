import PortalScript.Proofs.Fixture.Perform
import PortalScript.Proofs.Turn.Counting

/-! # Handles that are good

A turn is found just if it is there to be selected (`Fixture.isSome_find_iff`). The handle of a turn that
was found names that turn as long as the history stays as it was (`Fixture.locate_of_find`): a request on
it has its effect on that turn, or is refused for what it asks (`Fixture.perform_of_find`). -/

namespace PortalScript

theorem Action.ofName_name {a : Action} (h : a.isKnown) : ofName a.name = a := by
  cases a with
  | unknown name => cases h
  | _ => rfl

/-- Why a request is refused, whatever turn it is about. -/
def Request.refusal? (r : Request) : Option SurfaceError :=
  match Action.ofName r.action with
  | .edit => if (r.param? "new_text").isSome then none else some .noNewText
  | .copy =>
    let format := (r.param? "format").getD "text"
    if format = "text" ∨ format = "json" then none else some (.unsupportedFormat format)
  | .unknown name => some (.unsupportedAction name)
  | _ => none

theorem Request.not_stale_of_refusal? {r : Request} {e : SurfaceError} (h : r.refusal? = some e) :
    (∀ locator, e ≠ .staleHandle locator) ∧ ∀ target, e ≠ .absentTurn target := by
  unfold refusal? at h
  dsimp only at h
  split at h
  · split at h <;> cases h
    exact ⟨by rintro l ⟨⟩, by rintro t ⟨⟩⟩
  · split at h <;> cases h
    exact ⟨by rintro l ⟨⟩, by rintro t ⟨⟩⟩
  · cases h
    exact ⟨by rintro l ⟨⟩, by rintro t ⟨⟩⟩
  · cases h

namespace Fixture
variable {f : Fixture} {h : Handle} {r : Request} {target : TurnRef} {i : Nat} {turn : Turn}
  {e : SurfaceError}

theorem copied_eq_error_iff {format : String} : copied turn format = .error e ↔
    ¬ (format = "text" ∨ format = "json") ∧ e = .unsupportedFormat format := by
  unfold copied
  split
  · simp_all
  split
  · simp_all
  · simp_all [eq_comm]

/-- A request is refused for what it asks alone. -/
theorem effect_eq_error_iff : effect f i turn r = .error e ↔ r.refusal? = some e := by
  unfold effect Request.refusal? Action.ofName
  by_cases hdelete : r.action = "delete"
  · simp [hdelete]
  by_cases hedit : r.action = "edit"
  · rcases r.param? "new_text" with - | text <;> simp [hedit]
  by_cases hcopy : r.action = "copy"
  · simp only [hcopy, String.reduceEq, if_false, if_true]
    cases hc : copied turn ((r.param? "format").getD "text") with
    | error e' =>
      obtain ⟨hf, rfl⟩ := copied_eq_error_iff.1 hc
      simp [hf]
    | ok text =>
      have hf : (r.param? "format").getD "text" = "text" ∨ (r.param? "format").getD "text" = "json" := by
        by_contra hf
        cases hc.symm.trans (copied_eq_error_iff.2 ⟨hf, rfl⟩)
      simp [hf]
  by_cases hrerun : r.action = "rerun"
  · simp [hrerun]
  by_cases hbranch : r.action = "branch"
  · simp [hbranch]
  · simp [hdelete, hedit, hcopy, hrerun, hbranch]

theorem isSome_find_iff :
    (f.find target).isSome ↔ (target.select f.history).isSome := by
  have h : target.select f.history = none ↔ target.position f.history = none :=
    TurnRef.select_eq_none_iff
  rw [find, Option.isSome_map, Option.isSome_iff_ne_none, Option.isSome_iff_ne_none]
  exact (not_congr h).symm

theorem find_congr {f' : Fixture} (h : f'.history = f.history) (target : TurnRef) :
    f'.find target = f.find target := by
  rw [find, find, h]

theorem locate_of_find (hh : f.find target = some h) (hf : f.history.length ≤ Text.maxWord64) :
    ∃ i turn, target.position f.history = some i ∧ f.history[i]? = some turn ∧
      f.locate h = .ok (i, turn) := by
  obtain ⟨i, hp, rfl⟩ := Option.map_eq_some_iff.1 hh
  obtain ⟨⟨turn, ht, ha⟩, -⟩ := TurnRef.position_eq_some_iff.1 hp
  have hi : i ≤ Text.maxWord64 :=
    Nat.le_trans (Nat.le_of_lt (List.getElem?_eq_some_iff.1 ht).1) hf
  refine ⟨i, turn, hp, ht, ?_⟩
  simp only [locate, Text.readNat?_toString, if_pos hi, ht, if_pos ha]

theorem perform_of_find (hh : f.find target = some h) (hf : f.history.length ≤ Text.maxWord64)
    (r : Request) : f.perform h r = match r.refusal? with
      | some e => .error e
      | none => .ok (f.enact ⟨target, r.action, r.params⟩) := by
  obtain ⟨i, turn, -, -, hl⟩ := locate_of_find hh hf
  cases hr : r.refusal? with
  | some e =>
    rw [perform, hl]
    dsimp only
    rw [effect_eq_error_iff.2 hr]
  | none =>
    cases he : effect f i turn r with
    | error e => cases hr.symm.trans (effect_eq_error_iff.1 he)
    | ok g =>
      have hp : f.perform h r = .ok { g with actions := g.actions ++ [⟨h.target, r.action, r.params⟩] } := by
        rw [perform, hl]
        dsimp only
        rw [he]
      rw [hp, perform_eq_enact hh hp]

/-- The handle names the turn that the reference selects. A request on it is never refused for the handle,
and has its effect on that turn if it is not refused for what it asks. -/
structure Reaches (f : Fixture) (target : TurnRef) (h : Handle) : Prop where
  located : ∃ i turn, target.position f.history = some i ∧ target.select f.history = some turn ∧
    f.locate h = .ok (i, turn)
  current : ∀ r e, f.perform h r = .error e →
    (∀ locator, e ≠ .staleHandle locator) ∧ ∀ absent, e ≠ .absentTurn absent
  perform : ∀ r, f.perform h r = match r.refusal? with
    | some e => .error e
    | none => .ok (f.enact ⟨target, r.action, r.params⟩)

theorem reaches_of_find (hh : f.find target = some h) (hf : f.history.length ≤ Text.maxWord64) :
    f.Reaches target h where
  located := by
    obtain ⟨i, turn, hp, ht, hl⟩ := locate_of_find hh hf
    exact ⟨i, turn, hp, TurnRef.select_eq_some_iff.2 ⟨i, hp, ht⟩, hl⟩
  current r e he := by
    rw [perform_of_find hh hf] at he
    split at he <;> cases he
    rename_i hr
    exact r.not_stale_of_refusal? hr
  perform := perform_of_find hh hf

end Fixture

end PortalScript
