import PortalScript.Proofs.Fixture.Handle
import PortalScript.Proofs.Table.Entries

/-! # Requests are performed as a whole or not at all

A live conversation is changed in place: its history, the clipboard and the list of actions are written
one after the other, and a failure takes nothing back. `Fixture.performInPlace` makes these writes where
they happen among the checks. Every check comes before the first write, so it does what `Fixture.perform`
does (`Fixture.run_performInPlace`); and what is written is what the request asks for, and its record
(`Fixture.perform_atomic`). -/

namespace PortalScript

/-- The thoughts of an AI turn. -/
def Turn.thoughts? : Turn → Option String
  | .user _ => none
  | .ai _ thoughts => some thoughts

theorem Turn.thoughts?_withText (text : String) (turn : Turn) :
    (turn.withText text).thoughts? = turn.thoughts? := by
  cases turn <;> rfl

/-- The locator of the handle is the number of a place in the history, at which a turn of the handle's
author stands. -/
structure Handle.Locates (h : Handle) (history : History) (i : Nat) (turn : Turn) : Prop where
  locator : Text.readNat? Text.maxWord64 h.locator.toList = some i
  place : history[i]? = some turn
  author : turn.author = h.target.author

theorem Handle.Locates.exists_append {h : Handle} {history : History} {i : Nat} {turn : Turn}
    (hl : h.Locates history i turn) :
    ∃ before behind, history = before ++ turn :: behind ∧ before.length = i := by
  obtain ⟨hi, rfl⟩ := List.getElem?_eq_some_iff.1 hl.place
  refine ⟨history.take i, history.drop (i + 1), ?_, List.length_take_of_le (Nat.le_of_lt hi)⟩
  rw [← List.drop_eq_getElem_cons hi, List.take_append_drop]

/-- The value of the first parameter under the name. -/
def Request.First (r : Request) (key value : String) : Prop :=
  ∃ front rest, r.params = front ++ (key, value) :: rest ∧ ∀ p ∈ front, p.1 ≠ key

theorem Request.param?_eq_some_iff {r : Request} {key value : String} :
    r.param? key = some value ↔ r.First key value := Table.lookup_eq_some_iff_append

namespace Fixture
variable {f g : Fixture} {h : Handle} {r : Request} {i : Nat} {turn : Turn} {before behind : History}
  {e : SurfaceError}

/-- What a request makes of a fixture, whose history is `before ++ turn :: behind` and whose handle
locates `turn`, but for the record. -/
inductive Effect (f : Fixture) (before : History) (turn : Turn) (behind : History) (r : Request) :
    Fixture → Prop
  | delete (ha : r.action = "delete") :
      Effect f before turn behind r { f with history := before ++ behind }
  | edit {text : String} {edited : Turn} (ha : r.action = "edit") (hp : r.First "new_text" text)
      (hauthor : edited.author = turn.author) (htext : edited.text = text)
      (hthoughts : edited.thoughts? = turn.thoughts?) :
      Effect f before turn behind r { f with history := before ++ edited :: behind }
  | copy (ha : r.action = "copy")
      (hp : (r.param? "format").getD "text" = "text" ∨ (r.param? "format").getD "text" = "json") :
      Effect f before turn behind r { f with clipboard := some (turn.copy (r.param? "format")) }
  | nothing (ha : r.action = "rerun" ∨ r.action = "branch") : Effect f before turn behind r f

theorem Effect.actions (h : Effect f before turn behind r g) : g.actions = f.actions := by
  cases h <;> rfl

theorem locate_eq_ok_iff : f.locate h = .ok (i, turn) ↔ h.Locates f.history i turn := by
  constructor
  · intro hl
    unfold locate at hl
    split at hl
    · cases hl
    rename_i j hlocator
    split at hl
    · rename_i found hplace
      split at hl <;> cases hl
      rename_i hauthor
      exact ⟨hlocator, hplace, hauthor⟩
    · cases hl
  · rintro ⟨hlocator, hplace, hauthor⟩
    simp only [locate, hlocator, hplace, if_pos hauthor]

theorem effect_of_eq_ok (hf : f.history = before ++ turn :: behind)
    (he : effect f before.length turn r = .ok g) : Effect f before turn behind r g := by
  unfold effect at he
  split at he <;> rename_i hdelete
  · cases he
    have hrest : f.history.eraseIdx before.length = before ++ behind := by
      rw [hf, List.eraseIdx_append_of_length_le (Nat.le_refl _), Nat.sub_self]
      rfl
    rw [hrest]
    exact .delete hdelete
  split at he <;> rename_i hedit
  · split at he <;> cases he
    rename_i text htext
    have hset : f.history.set before.length (turn.withText text) =
        before ++ turn.withText text :: behind := by simp [hf]
    rw [hset]
    exact .edit hedit (Request.param?_eq_some_iff.1 htext) (turn.author_withText text)
      (turn.text_withText text) (turn.thoughts?_withText text)
  split at he <;> rename_i hcopy
  · split at he <;> rename_i hc
    · cases he
      rw [copied_eq hc]
      refine .copy hcopy ?_
      by_contra hformat
      cases hc.symm.trans (copied_eq_error_iff.2 ⟨hformat, rfl⟩)
    · cases he
  split at he <;> rename_i hother
  · cases he
    exact .nothing (by simpa using hother)
  · cases he

/-- A computation on a fixture that is changed in place. What was written before a failure stays. -/
abbrev InPlace := ExceptT SurfaceError (StateM Fixture)

section
variable {α β : Type} {a : α} {x : InPlace α} (next : α → InPlace β)

theorem run_bind_of_ok (hx : x.run.run f = (.ok a, g)) : (x >>= next).run.run f = (next a).run.run g := by
  rw [ExceptT.run_bind, StateT.run_bind, hx]
  rfl

theorem run_bind_of_error (hx : x.run.run f = (.error e, g)) :
    (x >>= next).run.run f = (.error e, g) := by
  rw [ExceptT.run_bind, StateT.run_bind, hx]
  rfl

end

/-- Writes the effect of a request on the turn at place `i`. -/
def effectInPlace (i : Nat) (turn : Turn) (r : Request) : InPlace Unit := do
  if r.action = "delete" then
    modify fun f => { f with history := f.history.eraseIdx i }
  else if r.action = "edit" then
    match r.param? "new_text" with
    | some text => modify fun f => { f with history := f.history.set i (turn.withText text) }
    | none => throw .noNewText
  else if r.action = "copy" then
    match copied turn ((r.param? "format").getD "text") with
    | .ok text => modify fun f => { f with clipboard := some text }
    | .error e => throw e
  else if r.action = "rerun" || r.action = "branch" then
    pure ()
  else
    throw (.unsupportedAction r.action)

/-- Performs a request: finds the turn, writes the effect, and puts the action on record. -/
def performInPlace (h : Handle) (r : Request) : InPlace Unit := do
  match (← get).locate h with
  | .ok (i, turn) =>
    effectInPlace i turn r
    modify fun f => { f with actions := f.actions ++ [⟨h.target, r.action, r.params⟩] }
  | .error e => throw e

theorem run_effectInPlace (f : Fixture) (i : Nat) (turn : Turn) (r : Request) :
    (effectInPlace i turn r).run.run f = match effect f i turn r with
      | .ok g => (.ok (), g)
      | .error e => (.error e, f) := by
  unfold effectInPlace effect
  split
  · rfl
  split
  · cases r.param? "new_text" <;> rfl
  split
  · cases copied turn ((r.param? "format").getD "text") <;> rfl
  split <;> rfl

/-- Performing in place ends with the fixture that performing gives, or leaves the fixture as it was. -/
theorem run_performInPlace (f : Fixture) (h : Handle) (r : Request) :
    (performInPlace h r).run.run f = match f.perform h r with
      | .ok g => (.ok (), g)
      | .error e => (.error e, f) := by
  have hget : (get : InPlace Fixture).run.run f = (.ok f, f) := rfl
  rw [performInPlace, run_bind_of_ok _ hget, perform]
  rcases f.locate h with e | ⟨i, turn⟩
  · rfl
  · dsimp only
    have heffect := run_effectInPlace f i turn r
    cases he : effect f i turn r with
    | error e =>
      rw [he] at heffect
      rw [run_bind_of_error _ heffect]
    | ok g =>
      rw [he] at heffect
      rw [run_bind_of_ok _ heffect]
      rfl

/-- A request performed in place fails and leaves the fixture as it was; or it changes what it is about
and puts one record behind the others. It fails just if the handle locates no turn or the request is
refused for what it asks, and comes to the same as the request performed as a whole. -/
theorem perform_atomic (f : Fixture) (h : Handle) (r : Request) :
    (∃ e, (performInPlace h r).run.run f = (.error e, f) ∧ f.perform h r = .error e ∧
      ((∀ i turn, ¬ h.Locates f.history i turn) ∨ r.refusal? = some e)) ∨
    ∃ before turn behind g, f.history = before ++ turn :: behind ∧
      h.Locates f.history before.length turn ∧ Effect f before turn behind r g ∧
      let after := { g with actions := f.actions ++ [⟨h.target, r.action, r.params⟩] }
      (performInPlace h r).run.run f = (.ok (), after) ∧ f.perform h r = .ok after := by
  have hrun := run_performInPlace f h r
  cases hl : f.locate h with
  | error e =>
    have hp : f.perform h r = .error e := by rw [perform, hl]
    rw [hp] at hrun
    refine .inl ⟨e, hrun, hp, .inl fun i turn hlocates => ?_⟩
    cases hl.symm.trans (locate_eq_ok_iff.2 hlocates)
  | ok found =>
    obtain ⟨i, turn⟩ := found
    have hlocates := locate_eq_ok_iff.1 hl
    obtain ⟨before, behind, hf, rfl⟩ := hlocates.exists_append
    cases he : effect f before.length turn r with
    | error e =>
      have hp : f.perform h r = .error e := by
        rw [perform, hl]
        dsimp only
        rw [he]
      rw [hp] at hrun
      exact .inl ⟨e, hrun, hp, .inr (effect_eq_error_iff.1 he)⟩
    | ok g =>
      have heffect := effect_of_eq_ok hf he
      have hp : f.perform h r = .ok { g with actions := f.actions ++ [⟨h.target, r.action, r.params⟩] } := by
        rw [perform, hl]
        dsimp only
        rw [he, ← heffect.actions]
      rw [hp] at hrun
      exact .inr ⟨before, turn, behind, g, hf, hlocates, heffect, hrun, hp⟩

end Fixture

end PortalScript
