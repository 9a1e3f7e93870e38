import PortalScript.Proofs.Fragment.Insert
import PortalScript.Proofs.Fragment.Layout
import PortalScript.Proofs.Template.Separated

/-! # Fragments as templates, and flattened again

The template of a fragment has source text and resolved text in turn, and a gap is a piece of its own
only between source text. Flattened again it is the same text with the same provenance, and of its gaps
those are left which are not next to resolved text (`layout_ofFragment`): a gap there is lost in the
piece of that text. -/

namespace PortalScript

/-- Whether a resolved symbol stands right before or right behind a place. -/
def touchesResolved (symbols : List (Char × Bool)) : Nat → Bool
  | 0 => symbols[0]?.any (·.2)
  | i + 1 => symbols[i]?.any (·.2) || symbols[i + 1]?.any (·.2)

namespace Fragment
variable {f : Fragment} {text : List Char}

/-- The fragment without the gap at its start. -/
def closeStart (f : Fragment) : Fragment :=
  match f.glyphs with
  | [] => ∅
  | g :: gs => ⟨g.closeGap :: gs, f.gapAtEnd⟩

theorem closeStart_of_not (h : f.gapAtStart = false) : f.closeStart = f := by
  obtain ⟨gs, e⟩ := f
  cases gs with
  | nil =>
    obtain rfl : e = false := h
    rfl
  | cons g gs =>
    obtain ⟨c, r, gap⟩ := g
    obtain rfl : gap = false := h
    rfl

theorem closeStart_gap_append (f : Fragment) : (ofText [] true ++ f).closeStart = f.closeStart := by
  obtain ⟨gs, e⟩ := f
  cases gs <;> rfl

theorem hasGapAt_closeStart_zero (f : Fragment) : f.closeStart.hasGapAt 0 = false := by
  obtain ⟨gs, e⟩ := f
  cases gs <;> rfl

theorem hasGapAt_closeStart_succ (f : Fragment) (i : Nat) :
    f.closeStart.hasGapAt (i + 1) = f.hasGapAt (i + 1) := by
  obtain ⟨gs, e⟩ := f
  cases gs <;> rfl

theorem symbols_closeStart (f : Fragment) : f.closeStart.symbols = f.symbols := by
  obtain ⟨gs, e⟩ := f
  cases gs <;> rfl

theorem ofText_cons_append (c : Char) (text : List Char) (resolved : Bool) (f : Fragment) :
    ofText (c :: text) resolved ++ f = prepend ((c :: text).map (⟨·, resolved, false⟩)) f := by
  obtain ⟨gs, e⟩ := f
  show append _ _ = _
  cases gs <;> simp [append, prepend, ofText]

theorem gap_append_prepend (a : Glyph) (as : List Glyph) (f : Fragment) :
    ofText [] true ++ prepend (a :: as) f = prepend ({ a with afterGap := true } :: as) f := rfl

theorem gapAtStart_ofText_append (hne : text ≠ []) (resolved : Bool) (f : Fragment) :
    (ofText text resolved ++ f).gapAtStart = false := by
  obtain ⟨c, text, rfl⟩ := List.exists_cons_of_ne_nil hne
  rw [ofText_cons_append]
  rfl

end Fragment

namespace Template
open Fragment (ofText gapAt)

variable {t : Template}

/-- Source text at the start is not empty, and no gap stands right behind resolved text at the start. -/
def Led : Template → Prop
  | [] => True
  | .source text :: _ => text ≠ []
  | .resolved _ :: t => (fragment t).gapAtStart = false

theorem gapAtStart_source {text : List Char} (h : Led (.source text :: t)) :
    (fragment (.source text :: t)).gapAtStart = false :=
  Fragment.gapAtStart_ofText_append h false _

theorem led_attach (h : t.Led) (g : Glyph) : Led (Piece.attach g t) := by
  obtain ⟨c, r, gap⟩ := g
  match t, h with
  | [], _ =>
    cases r with
    | false => exact List.cons_ne_nil _ _
    | true => rfl
  | .source text :: t, h =>
    cases r with
    | false => exact List.cons_ne_nil _ _
    | true => exact gapAtStart_source h
  | .resolved text :: t, h =>
    cases r with
    | false => exact List.cons_ne_nil _ _
    | true => exact h

/-- A glyph before a template. The gap at the start is lost next to a resolved glyph. -/
theorem fragment_attach (h : t.Led) (g : Glyph) : fragment (Piece.attach g t) =
    Fragment.prepend [g.closeGap] (if g.resolved then (fragment t).closeStart else fragment t) := by
  obtain ⟨c, r, gap⟩ := g
  have hnew (f : Fragment) : ofText [c] r ++ f = Fragment.prepend [⟨c, r, false⟩] f :=
    Fragment.ofText_cons_append c [] r f
  have hmore {text : List Char} (hne : text ≠ []) (f : Fragment) : ofText (c :: text) r ++ f =
      Fragment.prepend [⟨c, r, false⟩] (ofText text r ++ f) := by
    obtain ⟨d, text, rfl⟩ := List.exists_cons_of_ne_nil hne
    rw [Fragment.ofText_cons_append, Fragment.ofText_cons_append, ← Fragment.prepend_append]
    rfl
  match t, h with
  | [], _ => cases r <;> exact hnew ∅
  | .source text :: t, h =>
    cases r with
    | false => exact hmore h _
    | true =>
      rw [if_pos rfl, Fragment.closeStart_of_not (gapAtStart_source h)]
      exact hnew _
  | .resolved text :: t, h =>
    cases r with
    | false => exact hnew _
    | true =>
      rw [if_pos rfl]
      by_cases hne : text = []
      · -- the piece of a gap becomes the piece of the glyph, and the gap is gone
        subst hne
        rw [fragment_cons, Piece.fragment, Fragment.closeStart_gap_append, Fragment.closeStart_of_not h]
        exact hnew _
      · rw [fragment_cons _ t, Piece.fragment,
          Fragment.closeStart_of_not (Fragment.gapAtStart_ofText_append hne true _)]
        exact hmore hne _

theorem led_ofGlyphs (gap : Bool) (gs : List Glyph) : Led (ofGlyphs gap gs) := by
  induction gs with
  | nil =>
    cases gap with
    | false => trivial
    | true => rfl
  | cons g gs ih =>
    rw [ofGlyphs]
    split
    · show (fragment (Piece.attach g _)).gapAtStart = false
      rw [fragment_attach ih]
      rfl
    · exact led_attach ih g

theorem fragment_ofGlyphs_cons (gap : Bool) (g : Glyph) (gs : List Glyph) :
    fragment (ofGlyphs gap (g :: gs)) =
      Fragment.prepend [{ g with afterGap := g.afterGap && !g.resolved }]
        (if g.resolved then (fragment (ofGlyphs gap gs)).closeStart
          else fragment (ofGlyphs gap gs)) := by
  have hattach := fragment_attach (led_ofGlyphs gap gs) g
  rw [ofGlyphs]
  split <;> rename_i hg
  · rw [fragment_cons, hattach, Piece.fragment, Fragment.gap_append_prepend, hg]
    rfl
  · rw [hattach, Bool.eq_false_iff.2 hg]
    rfl

theorem symbols_ofGlyphs (gap : Bool) (gs : List Glyph) :
    (fragment (ofGlyphs gap gs)).symbols = gs.map Glyph.symbol := by
  induction gs with
  | nil => cases gap <;> rfl
  | cons g gs ih =>
    have hrest : (if g.resolved then (fragment (ofGlyphs gap gs)).closeStart
        else fragment (ofGlyphs gap gs)).symbols = gs.map Glyph.symbol := by
      split
      · rw [Fragment.symbols_closeStart, ih]
      · exact ih
    rw [fragment_ofGlyphs_cons, List.map_cons, ← hrest]
    rfl

/-- The gaps that are left are those that are not next to resolved text. -/
theorem hasGapAt_ofGlyphs (gap : Bool) (gs : List Glyph) (i : Nat) :
    (fragment (ofGlyphs gap gs)).hasGapAt i =
      (gapAt gap gs i && !touchesResolved (gs.map Glyph.symbol) i) := by
  induction gs generalizing i with
  | nil => cases gap <;> cases i <;> rfl
  | cons g gs ih =>
    rw [fragment_ofGlyphs_cons]
    -- only the place right behind the new glyph gets a new neighbour
    match i with
    | 0 => rfl
    | 1 =>
      have htouches : touchesResolved ((g :: gs).map Glyph.symbol) 1 =
          (g.resolved || touchesResolved (gs.map Glyph.symbol) 0) := rfl
      rw [htouches]
      show (ite _ _ _ : Fragment).hasGapAt 0 = (gapAt gap gs 0 && !(_ || _))
      split <;> rename_i hr
      · rw [hr, Fragment.hasGapAt_closeStart_zero, Bool.true_or, Bool.not_true, Bool.and_false]
      · rw [Bool.eq_false_iff.2 hr, Bool.false_or, ih]
    | i + 2 =>
      show (ite _ _ _ : Fragment).hasGapAt (i + 1) = (gapAt gap gs (i + 1) && !touchesResolved _ (i + 1))
      rw [← ih]
      split
      · exact Fragment.hasGapAt_closeStart_succ _ i
      · rfl

theorem separated_attach (h : t.Separated) (g : Glyph) : Separated (Piece.attach g t) := by
  obtain ⟨c, r, gap⟩ := g
  match t, h with
  | [], _ => cases r <;> exact List.isChain_singleton _
  | .source text :: t, h =>
    cases r with
    | false => exact h
    | true => exact (@separated_append_resolved [] (.source text :: t) [c]).2 ⟨List.isChain_nil, h⟩
  | .resolved text :: t, h =>
    cases r with
    | false =>
      have hc : Separated [.source [c]] := List.isChain_singleton _
      exact (@separated_append_resolved [.source [c]] t text).2 ⟨hc, h.of_cons⟩
    | true => exact h

theorem separated_ofGlyphs (gap : Bool) (gs : List Glyph) : Separated (ofGlyphs gap gs) := by
  induction gs with
  | nil => cases gap <;> simp [ofGlyphs, Separated]
  | cons g gs ih =>
    have hattach := separated_attach ih g
    rw [ofGlyphs]
    split
    · exact (@separated_append_resolved [] _ []).2 ⟨List.isChain_nil, hattach⟩
    · exact hattach

/-- What the pieces of a template give, one after another put at the end of a text. -/
def layout (t : Template) : Layout := t.foldl (fun l p => l.push p.chars !p.isSource) {}

theorem foldl_push (t : Template) (f : Fragment) :
    t.foldl (fun l p => l.push p.chars !p.isSource) f.layout = (f ++ fragment t).layout := by
  induction t generalizing f with
  | nil =>
    rw [fragment_nil, Fragment.append_empty]
    rfl
  | cons p t ih =>
    have hp : p.fragment = ofText p.chars !p.isSource := by cases p <;> rfl
    rw [List.foldl_cons, ← Fragment.layout_append_ofText, ih, ← hp, Fragment.append_assoc]
    rfl

theorem layout_fragment (t : Template) : (fragment t).layout = layout t := by
  rw [layout, ← Fragment.empty_append (fragment t), ← foldl_push]
  rfl

theorem render_ofFragment (f : Fragment) : (ofFragment f).render = f.text := by
  have hchars (f : Fragment) : f.text = .ofList (f.symbols.map (·.1)) := by
    simp [Fragment.text, Fragment.chars, Fragment.symbols, Glyph.symbol, Function.comp_def]
  rw [← text_fragment, hchars, hchars f, ofFragment, symbols_ofGlyphs]
  rfl

/-- A fragment made a template and flattened again. A list of symbols with places for gaps is a fragment
if the places ascend and none of them is behind the end, and there is one fragment for it then. The
pieces of the template of a fragment, put at the end of a text one after another, give the symbols of the
fragment and the gaps that have no resolved symbol right before them or right behind. No two source
pieces of the template are neighbours, and its text is that of the fragment. -/
theorem layout_ofFragment : (∀ l : Layout, l.Proper ↔ ∃! f : Fragment, f.layout = l) ∧
    ∀ f : Fragment,
      (ofFragment f).layout = ⟨f.symbols, f.gaps.filter fun i => !touchesResolved f.symbols i⟩ ∧
      Separated (ofFragment f) ∧ (ofFragment f).render = f.text := by
  refine ⟨Layout.proper_iff, fun f => ⟨?_, separated_ofGlyphs _ _, render_ofFragment f⟩⟩
  rw [← layout_fragment, Fragment.layout, ofFragment, symbols_ofGlyphs]
  refine congrArg (Layout.mk _) ?_
  refine (Fragment.sortedLT_gaps _).eq_of_mem_iff ?_ fun i => ?_
  · exact (f.sortedLT_gaps.pairwise.filter _).sortedLT
  · rw [Fragment.mem_gaps, hasGapAt_ofGlyphs, Bool.and_eq_true, List.mem_filter, Fragment.mem_gaps]
    rfl

/-- Of three gaps the one between written symbols is left. -/
example :
    let f : Fragment := ⟨[⟨'a', false, false⟩, ⟨'b', false, true⟩, ⟨'c', true, true⟩], true⟩
    f.gaps = [1, 2, 3] ∧ (ofFragment f).layout = ⟨f.symbols, [1]⟩ := by decide

end Template

end PortalScript
