import PortalScript.Template
import PortalScript.Marker

/-! # The innermost portal of a template

`nextMarker` divides a template around its first marker in source text, and `innermost` finds the
first opening marker that a closing one follows with no marker between them. The result is the
template in three parts, so replacing the portal (`Span.splice`) only puts the parts together.

`sourceLength_of_nextMarker` says what a marker costs in source text, which is why the search ends. -/

namespace PortalScript

/-- A template divided around a portal: what stands before it, its body, and what follows it. -/
structure Span where
  before : Template
  body : Template
  after : Template
deriving Repr, DecidableEq

namespace Template

/-- The first marker in source text, between the template before it and the template behind it. -/
def nextMarker : Template → Option (Template × Marker × Template)
  | [] => none
  | .resolved text :: rest =>
    (nextMarker rest).map fun (before, m, after) => (.resolved text :: before, m, after)
  | .source text :: rest =>
    match Marker.cut? text with
    | some (l, m, r) => some ([.source l], m, .source r :: rest)
    | none => (nextMarker rest).map fun (before, m, after) => (.source text :: before, m, after)

/-- Undoes the division at a marker: the source text on both sides of it becomes one piece again. -/
def weld (m : Marker) : Template → Template → Template
  | [.source l], .source r :: rest => .source (l ++ m.spelling ++ r) :: rest
  | [], rest => .source m.spelling :: rest
  | p :: before, rest => p :: weld m before rest

theorem sourceLength_of_nextMarker {t before after : Template} {m : Marker}
    (h : t.nextMarker = some (before, m, after)) :
    t.sourceLength = before.sourceLength + 4 + after.sourceLength := by
  induction t generalizing before after with
  | nil => simp [nextMarker] at h
  | cons p t ih =>
    cases p with
    | resolved text =>
      obtain ⟨⟨b, m', a⟩, hb, he⟩ := Option.map_eq_some_iff.1 h
      cases he
      simp [Piece.sourceLength, ih hb]
    | source text =>
      simp only [nextMarker] at h
      split at h
      · rename_i l m' r hc
        cases h
        rw [Marker.eq_append_of_cut? hc]
        simp [Piece.sourceLength]; omega
      · obtain ⟨⟨b, m', a⟩, hb, he⟩ := Option.map_eq_some_iff.1 h
        cases he
        simp [Piece.sourceLength, ih hb]; omega

/-- The leftmost innermost portal: the first opening marker whose next marker is a closing one. -/
def innermost (t : Template) : Option Span :=
  match _h : nextMarker t with
  | none => none
  | some (before, m, after) =>
    match m, nextMarker after with
    | .opening, some (body, .closing, rest) => some ⟨before, body, rest⟩
    | _, _ => (innermost after).map fun span => { span with before := weld m before span.before }
termination_by t.sourceLength
decreasing_by
  have := sourceLength_of_nextMarker _h
  omega

end Template

namespace Span

/-- What the portal's reader gets: the body flattened. -/
def fragment (s : Span) : Fragment := Template.fragment s.body

/-- The portal with its markers, as shown in events. -/
def label (s : Span) : String :=
  .ofList (Marker.opening.spelling ++ s.fragment.chars ++ Marker.closing.spelling)

/-- The template with the portal replaced by a resolved piece, which also keeps the source text on
both sides apart when there is no text to put in. -/
def splice (s : Span) (text : String) : Template := s.before ++ .resolved text.toList :: s.after

end Span

end PortalScript
