import Mathlib.Data.List.Chain
import PortalScript.Proofs.Template.Tokens
import PortalScript.Resolution.Override

/-! # Source pieces are kept apart

In a `Separated` template resolved text, be it empty, stands between any two source pieces. That is
so for a script (`separated_ofScript`), and overrides and the execution of portals keep it so
(`Separated.applyAll`, `Separated.splice`). It is what makes the pieces of a template and
the runs of its flattened form the same thing. -/

namespace PortalScript

/-- Whether the piece is text of the script. -/
def Piece.isSource : Piece → Bool
  | source _ => true
  | resolved _ => false

namespace Template

/-- No two source pieces are neighbours. -/
def Separated (t : Template) : Prop := (t.map Piece.isSource).IsChain fun a b : Bool => a → ¬ b

theorem separated_ofScript (script : String) : Separated (.ofScript script) :=
  List.isChain_singleton _

variable {t : Template} {init rest : Template}

theorem separated_append_source (text l r : List Char) :
    Separated (init ++ .source text :: rest) ↔
      Separated (init ++ [.source l]) ∧ Separated (.source r :: rest) := by
  simp only [Separated, List.map_append, List.map_cons, List.map_nil, Piece.isSource]
  exact List.isChain_split

theorem separated_append_resolved (text : List Char) :
    Separated (init ++ .resolved text :: rest) ↔ Separated init ∧ Separated rest := by
  simp only [Separated, List.map_append, List.map_cons, Piece.isSource, List.isChain_append,
    List.isChain_cons]
  simp

theorem Separated.of_cons {p : Piece} (h : Separated (p :: t)) : Separated t :=
  List.IsChain.tail h

theorem Separated.isSource_head {text : List Char} (h : Separated (.source text :: t)) :
    ∀ p ∈ t.head?, ¬ p.isSource := by
  intro p hp
  cases t with
  | nil => cases hp
  | cons q t =>
    cases hp
    exact (List.isChain_cons_cons.1 h).1 rfl

theorem separated_substituteSource (c : Char) (cs replacement text : List Char) (init : Template)
    (h : Separated (init ++ .source text :: rest)) :
    Separated (init ++ (substituteSource c cs replacement text).1 ++ rest) := by
  fun_induction substituteSource c cs replacement text generalizing init with
  | case1 text hc => simpa using h
  | case2 text before behind hc pieces n hp ih =>
    obtain ⟨hl, hr⟩ := (separated_append_source text before behind).1 h
    have hs : Separated (init ++ [.source before, .resolved replacement] ++ .source behind :: rest) := by
      have hb : Separated
          (init ++ [.source before] ++ .resolved replacement :: .source behind :: rest) :=
        (separated_append_resolved replacement).2 ⟨hl, hr⟩
      simpa using hb
    have ih := ih _ hs
    rw [hp] at ih
    simpa using ih

theorem separated_substituteChars (token replacement : List Char) (init t : Template)
    (h : Separated (init ++ t)) :
    Separated (init ++ (substituteChars token replacement t).1) := by
  induction t generalizing init with
  | nil => exact h
  | cons p t ih =>
    have hp : Separated (init ++ (p :: (substituteChars token replacement t).1)) := by
      simpa using ih (init ++ [p]) (by simpa using h)
    cases p with
    | resolved text => exact hp
    | source text =>
      cases token with
      | nil => exact hp
      | cons c cs =>
        simpa [substituteChars] using separated_substituteSource c cs replacement text init hp

theorem Separated.substitute (h : Separated t) (token replacement : String) :
    Separated (t.substitute token replacement).1 :=
  separated_substituteChars token.toList replacement.toList [] t h

theorem Separated.applyAll (h : Separated t) (substitutions : List (String × String)) :
    Separated (Override.applyAll substitutions t).1 := by
  induction substitutions generalizing t with
  | nil => exact h
  | cons s substitutions ih => exact ih (h.substitute s.1 s.2)

variable {before after : Template} {m : Marker} {span : Span}

theorem separated_nextMarker (h : t.nextMarker = some (before, m, after)) :
    Separated t ↔ Separated before ∧ Separated after := by
  obtain ⟨init, l, r, rest, rfl, rfl, rfl, -, -⟩ := nextMarker_eq_some_iff.1 h
  exact separated_append_source _ l r

theorem Separated.innermost (h : Separated t) (hs : t.innermost = some span) :
    Separated span.before ∧ Separated span.body ∧ Separated span.after := by
  fun_induction Template.innermost t generalizing span with
  | case1 t hn => cases hs
  | case2 t before after body rest hn hc =>
    cases hs
    obtain ⟨hb, ha⟩ := (separated_nextMarker hn).1 h
    obtain ⟨hb', ha'⟩ := (separated_nextMarker hc).1 ha
    exact ⟨hb, hb', ha'⟩
  | case3 t before m after hn hn' hne ih =>
    obtain ⟨inner, hi, rfl⟩ := Option.map_eq_some_iff.1 hs
    obtain ⟨hb, ha⟩ := (separated_nextMarker hn).1 h
    obtain ⟨hib, hbody, hafter⟩ := ih ha hi
    obtain ⟨init, l, r, rest, rfl, rfl, -, -, -⟩ := nextMarker_eq_some_iff.1 hn
    obtain ⟨r', rest', hr⟩ := (innermost_of_innermost_eq_some hi).starts r rest rfl
    refine ⟨?_, hbody, hafter⟩
    rw [hr, weld_append]
    exact (separated_append_source _ l r').2 ⟨hb, hr ▸ hib⟩

theorem Separated.splice (h : Separated t) (hs : t.innermost = some span) (text : String) :
    Separated (span.splice text) := by
  obtain ⟨hb, -, ha⟩ := h.innermost hs
  exact (separated_append_resolved _).2 ⟨hb, ha⟩

end Template

end PortalScript
