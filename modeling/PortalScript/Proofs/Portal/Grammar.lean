import PortalScript.Portal
import PortalScript.Proofs.Params.Grammar

/-! # The grammar of portals

A portal is a head and a parameter list, which may be absent. `Reads` says which bodies are portals
and with which head and entries (`parse_ok_iff`). -/

namespace PortalScript.Portal

/-- What a portal is but for its parameters: the id of a template, or an action and the turn on which
it acts. -/
inductive Head
  | data (id : String)
  | action (conduit : Option String) (target : TurnRef) (action : Action)
deriving Repr, DecidableEq

def Head.portal : Head → Params → Portal
  | data id, params => .data ⟨id, params⟩
  | action conduit target act, params => .action ⟨conduit, target, act, params⟩

def head : Portal → Head
  | data p => .data p.id
  | action p => .action p.conduit p.target p.action

def params : Portal → Params
  | data p => p.params
  | action p => p.params

@[simp] theorem head_portal (h : Head) (ps : Params) : (h.portal ps).head = h := by cases h <;> rfl

@[simp] theorem params_portal (h : Head) (ps : Params) : (h.portal ps).params = ps := by
  cases h <;> rfl

/-- The entries of the list behind a head, none if there is no list, and what is left behind it. -/
inductive ReadsParams (f : Fragment) : List (String × Fragment) → Fragment → Prop
  | none (ho : ¬ f.skipBlank.startsAt '[') : ReadsParams f [] f.skipBlank
  | list {inner rest : Fragment} {entries : List (String × Fragment)}
      (ho : f.skipBlank.eat? '[' = some inner) (hl : Params.ReadsList inner entries rest) :
      ReadsParams f entries rest

/-- A portal without blanks around it. -/
inductive Reads (f : Fragment) : Head → List (String × Fragment) → Prop
  | data {inner behind rest : Fragment} {entries : List (String × Fragment)}
      (ho : f.eat? '\'' = some inner) (hc : (inner.dropUntil '\'').eat? '\'' = some behind)
      (hi : ¬ Text.allBlank (inner.takeUntil '\'').chars) (hp : ReadsParams behind entries rest)
      (he : rest.skipBlank.isEmpty) : Reads f (.data (inner.takeUntil '\'').text) entries
  | action {inner rest : Fragment} {entries : List (String × Fragment)} {conduit : Option String}
      {target : TurnRef} {act : Action} (ho : f.eat? '@' = some inner)
      (hw : ¬ (inner.takeWhile isHeadGlyph).glyphs.any (·.resolved))
      (hh : readHead (inner.takeWhile isHeadGlyph).chars = .ok (conduit, target, act))
      (hp : ReadsParams (inner.dropWhile isHeadGlyph) entries rest)
      (he : rest.skipBlank.isEmpty) : Reads f (.action conduit target act) entries

variable {f rest : Fragment} {ps : Params} {p : Portal} {whole : String}

theorem scanParams_ok_iff : scanParams f = .ok (ps, rest) ↔
    ∃ entries, ReadsParams f entries rest ∧ ps = Table.ofList entries := by
  unfold scanParams
  constructor
  · intro h
    split at h <;> rename_i hb
    · split at h <;> rename_i hs
      · cases h
        obtain ⟨inner, entries, ho, hl, rfl⟩ := Params.scan_ok_iff.1 hs
        exact ⟨entries, .list ho hl, rfl⟩
      · cases h
    · cases h
      exact ⟨[], .none hb, rfl⟩
  · rintro ⟨entries, h, rfl⟩
    cases h with
    | none ho => rw [if_neg ho]; rfl
    | list ho hl =>
      rw [if_pos (Fragment.startsAt_iff.2 ⟨_, ho⟩), Params.scan_ok_iff.2 ⟨_, entries, ho, hl, rfl⟩]

theorem parseData_ok_iff : parseData whole f = .ok p ↔ ∃ behind entries rest,
    (f.dropUntil '\'').eat? '\'' = some behind ∧ ¬ Text.allBlank (f.takeUntil '\'').chars ∧
      ReadsParams behind entries rest ∧ rest.skipBlank.isEmpty ∧
      p = (Head.data (f.takeUntil '\'').text).portal (Table.ofList entries) := by
  unfold parseData
  constructor
  · intro h
    split at h
    · cases h
    rename_i behind hc
    dsimp only at h
    split at h
    · cases h
    rename_i hi
    cases hs : scanParams behind with
    | error e => rw [hs] at h; cases h
    | ok r =>
      obtain ⟨ps, rest⟩ := r
      rw [hs] at h
      replace h : (if rest.skipBlank.isEmpty then _ else _) = Except.ok p := h
      split at h <;> rename_i he
      · obtain ⟨entries, hp, rfl⟩ := scanParams_ok_iff.1 hs
        cases h
        exact ⟨behind, entries, rest, hc, hi, hp, he, rfl⟩
      · cases h
  · rintro ⟨behind, entries, rest, hc, hi, hp, he, rfl⟩
    rw [hc]
    dsimp only
    rw [if_neg hi, scanParams_ok_iff.2 ⟨entries, hp, rfl⟩]
    show (if rest.skipBlank.isEmpty then _ else _) = _
    rw [if_pos he]
    rfl

theorem within_ok_iff {α : Type} {x : Except ParseError.Cause α} {a : α} :
    ParseError.within whole x = .ok a ↔ x = .ok a := by
  cases x <;> simp [ParseError.within]

theorem parseAction_ok_iff : parseAction whole f = .ok p ↔ ∃ conduit target act entries rest,
    ¬ (f.takeWhile isHeadGlyph).glyphs.any (·.resolved) ∧
      readHead (f.takeWhile isHeadGlyph).chars = .ok (conduit, target, act) ∧
      ReadsParams (f.dropWhile isHeadGlyph) entries rest ∧ rest.skipBlank.isEmpty ∧
      p = (Head.action conduit target act).portal (Table.ofList entries) := by
  unfold parseAction
  constructor
  · intro h
    dsimp only at h
    split at h
    · cases h
    rename_i hw
    cases hh : readHead (f.takeWhile isHeadGlyph).chars with
    | error e => rw [hh] at h; cases h
    | ok head =>
      obtain ⟨conduit, target, act⟩ := head
      rw [hh] at h
      cases hs : scanParams (f.dropWhile isHeadGlyph) with
      | error e => rw [hs] at h; cases h
      | ok r =>
        obtain ⟨ps, rest⟩ := r
        rw [hs] at h
        replace h : (if rest.skipBlank.isEmpty then _ else _) = Except.ok p := h
        split at h <;> rename_i he
        · obtain ⟨entries, hp, rfl⟩ := scanParams_ok_iff.1 hs
          cases h
          exact ⟨conduit, target, act, entries, rest, hw, rfl, hp, he, rfl⟩
        · cases h
  · rintro ⟨conduit, target, act, entries, rest, hw, hh, hp, he, rfl⟩
    dsimp only
    rw [if_neg hw, hh, scanParams_ok_iff.2 ⟨entries, hp, rfl⟩]
    show (if rest.skipBlank.isEmpty then _ else _) = _
    rw [if_pos he]
    rfl

/-- Which bodies are portals, blanks around them aside. -/
theorem parse_ok_iff : parse f = .ok p ↔
    ∃ head entries, Reads f.trim head entries ∧ p = head.portal (Table.ofList entries) := by
  unfold parse
  dsimp only
  constructor
  · intro h
    split at h
    · rename_i inner ho
      obtain ⟨behind, entries, rest, hc, hi, hp, he, rfl⟩ := parseData_ok_iff.1 h
      exact ⟨_, entries, .data ho hc hi hp he, rfl⟩
    · split at h
      · rename_i inner ho
        obtain ⟨conduit, target, act, entries, rest, hw, hh, hp, he, rfl⟩ := parseAction_ok_iff.1 h
        exact ⟨_, entries, .action ho hw hh hp he, rfl⟩
      · cases h
  · rintro ⟨head, entries, h, rfl⟩
    cases h with
    | data ho hc hi hp he =>
      rw [ho]
      exact parseData_ok_iff.2 ⟨_, entries, _, hc, hi, hp, he, rfl⟩
    | action ho hw hh hp he =>
      rw [Fragment.eat?_eq_none_of_ne ho (by decide), ho]
      exact parseAction_ok_iff.2 ⟨_, _, _, entries, _, hw, hh, hp, he, rfl⟩

end PortalScript.Portal
