import PortalScript.Proofs.Fragment.Insert
import PortalScript.Proofs.Template.Pieces
import PortalScript.Proofs.Template.Places

/-! # Replacing the innermost portal

The innermost portal of a template lies in one source piece, or it opens in one and closes in a later one
(`Cut`). Replacing it leaves all that stands around it as it is, character by character and marker by
marker, and the slices of pieces that this takes are all there to be taken (`splice_exact`). -/

namespace PortalScript

namespace Template

/-- Where a portal closes: in the source text behind its opening marker, or in a later source piece.
These are that text and the pieces behind it, then the body and what follows the portal. -/
inductive Closes : List Char → Template → Template → Template → Prop
  | within (b r : List Char) (rest : Template) :
    Closes (b ++ Marker.closing.spelling ++ r) rest [.source b] (.source r :: rest)
  | across (b : List Char) (mid : Template) (b' r : List Char) (rest : Template) :
    Closes b (mid ++ .source (b' ++ Marker.closing.spelling ++ r) :: rest)
      (.source b :: (mid ++ [.source b'])) (.source r :: rest)

/-- The source piece in which a portal opens, cut at the marker. -/
inductive Cut : Template → Span → Prop
  | opens (init : Template) (l : List Char) {x : List Char} {tail body after : Template}
    (h : Closes x tail body after) :
    Cut (init ++ .source (l ++ Marker.opening.spelling ++ x) :: tail) ⟨init ++ [.source l], body, after⟩

variable {t before after body rest init : Template} {m : Marker} {span : Span}

theorem Cut.of_nextMarker (h : t.nextMarker = some (before, .opening, after))
    (h' : after.nextMarker = some (body, .closing, rest)) : Cut t ⟨before, body, rest⟩ := by
  obtain ⟨init, l, x, tail, rfl, rfl, rfl, -, -⟩ := nextMarker_eq_some_iff.1 h
  obtain ⟨mid, b, r, rest, rfl, rfl, ha, -, -⟩ := nextMarker_eq_some_iff.1 h'
  refine .opens init l ?_
  cases mid with
  | nil =>
    obtain ⟨hx, rfl⟩ := List.cons.inj ha
    rw [Piece.source.inj hx]
    exact .within b r tail
  | cons p mid =>
    obtain ⟨rfl, rfl⟩ := List.cons.inj ha
    exact .across x mid b r rest

theorem Cut.source_append {text : List Char} {s : Template} (h : Cut (.source text :: s) span)
    (init : Template) (l : List Char) : ∃ l' tail, span.before = .source l' :: tail ∧
      Cut (init ++ .source (l ++ text) :: s)
        { span with before := init ++ .source (l ++ l') :: tail } := by
  generalize ht : Piece.source text :: s = t at h
  obtain @⟨init', l', x, tail, body, after, hcloses⟩ := h
  cases init' with
  | nil =>
    obtain ⟨hx, rfl⟩ := List.cons.inj ht
    have hcut := Cut.opens init (l ++ l') hcloses
    rw [Piece.source.inj hx]
    exact ⟨l', [], rfl, by simpa using hcut⟩
  | cons p init' =>
    obtain ⟨rfl, rfl⟩ := List.cons.inj ht
    have hcut := Cut.opens (init ++ .source (l ++ text) :: init') l' hcloses
    exact ⟨text, init' ++ [.source l'], rfl, by simpa using hcut⟩

theorem cut_of_innermost (h : t.innermost = some span) : Cut t span := by
  fun_induction innermost t generalizing span with
  | case1 t hn => cases h
  | case2 t before after body rest hn hc =>
    cases h
    exact .of_nextMarker hn hc
  | case3 t before m after hn hn' hne ih =>
    obtain ⟨inner, hi, rfl⟩ := Option.map_eq_some_iff.1 h
    obtain ⟨init, l, x, rest, rfl, rfl, rfl, -, -⟩ := nextMarker_eq_some_iff.1 hn
    obtain ⟨l', tail, hb, hcut⟩ := (ih hi).source_append init (l ++ m.spelling)
    rw [hb, weld_append]
    exact hcut

/-! ### Text and provenance -/

theorem fragment_source (text : List Char) (t : Template) :
    fragment (.source text :: t) = .written text ++ fragment t := rfl

end Template

/-- The text of a portal between its markers, and the markers. -/
def Span.portal (s : Span) : Fragment :=
  .written Marker.opening.spelling ++ s.fragment ++ .written Marker.closing.spelling

namespace Template
variable {t : Template} {span : Span}

theorem Cut.fragment_eq (h : Cut t span) :
    t.fragment = span.before.fragment ++ span.portal ++ span.after.fragment := by
  obtain ⟨init, l, hcloses⟩ := h
  cases hcloses <;>
    simp only [Span.portal, Span.fragment, fragment_append, fragment_source,
      ← Fragment.written_append_eq, fragment_nil, Fragment.append_empty,
      Fragment.append_assoc]

/-! ### Slices -/

theorem getElem?_append_cons (init : Template) (p : Piece) (rest : Template) :
    (init ++ p :: rest)[init.length]? = some p := by simp

theorem getElem?_append_cons_add (init : Template) (p : Piece) (rest : Template) (i : Nat) :
    (init ++ p :: rest)[init.length + (i + 1)]? = rest[i]? := by
  rw [List.getElem?_append_right (Nat.le_add_right _ _), Nat.add_sub_cancel_left,
    List.getElem?_cons_succ]

theorem between?_within (init rest : Template) (l b r : List Char) :
    between? (init ++
        .source (l ++ Marker.opening.spelling ++ (b ++ Marker.closing.spelling ++ r)) :: rest)
      ⟨init.length, Text.size l + 4⟩ ⟨init.length, Text.size l + 4 + Text.size b⟩ =
        some [.source b] := by
  refine between?_eq rfl fun i hi => ?_
  obtain rfl : i = 0 := Nat.lt_one_iff.1 hi
  rw [List.append_assoc b, ← List.append_assoc _ b]
  refine (pieceBetween?_only (getElem?_append_cons _ _ _) rfl rfl).trans (Piece.slice?_source ?_ ?_)
  · simp [Marker.size_spelling]
  · simp [Marker.size_spelling, Nat.add_assoc]

theorem between?_across (init mid rest : Template) (l b b' r : List Char) :
    between? (init ++ .source (l ++ Marker.opening.spelling ++ b) ::
        (mid ++ .source (b' ++ Marker.closing.spelling ++ r) :: rest))
      ⟨init.length, Text.size l + 4⟩ ⟨init.length + 1 + mid.length, Text.size b'⟩ =
        some (.source b :: (mid ++ [.source b'])) := by
  refine between?_eq ?_ fun i hi => ?_
  · simp; omega
  match i with
  | 0 =>
    rw [← List.append_nil (l ++ Marker.opening.spelling ++ b)]
    refine (pieceBetween?_first (getElem?_append_cons _ _ _) rfl ?_).trans
      (Piece.slice?_source ?_ ?_)
    · simp; omega
    · simp [Marker.size_spelling]
    · simp [Piece.chars]
  | i + 1 =>
    have hi : i < mid.length + 1 := by simpa using hi
    have hne : init.length + (i + 1) ≠ init.length := by omega
    rw [List.getElem?_cons_succ]
    rcases Nat.lt_or_ge i mid.length with hlt | hge
    · -- a piece between the two
      have hp : (init ++ .source (l ++ Marker.opening.spelling ++ b) ::
          (mid ++ .source (b' ++ Marker.closing.spelling ++ r) :: rest))[init.length + (i + 1)]? =
            some mid[i] := by
        rw [getElem?_append_cons_add, List.getElem?_append_left hlt, List.getElem?_eq_getElem hlt]
      rw [List.getElem?_append_left hlt, List.getElem?_eq_getElem hlt]
      exact pieceBetween?_inner hp hne (by simp; omega)
    · obtain rfl : i = mid.length := by omega
      have hp : (init ++ .source (l ++ Marker.opening.spelling ++ b) ::
          (mid ++ .source (b' ++ Marker.closing.spelling ++ r) :: rest))[
            init.length + (mid.length + 1)]? =
              some (.source ([] ++ b' ++ (Marker.closing.spelling ++ r))) := by
        rw [getElem?_append_cons_add, getElem?_append_cons, List.nil_append, List.append_assoc]
      rw [getElem?_append_cons]
      exact (pieceBetween?_last hp hne (by simp; omega)).trans (Piece.slice?_source rfl rfl)

theorem drop_append_cons_add (init : Template) (p : Piece) (rest : Template) (i : Nat) :
    (init ++ p :: rest).drop (init.length + (i + 1)) = rest.drop i := by
  rw [List.drop_length_add_append, List.drop_succ_cons]

theorem spliceAt?_within (init rest : Template) (l b r : List Char) (text : String) :
    spliceAt? (init ++
        .source (l ++ Marker.opening.spelling ++ (b ++ Marker.closing.spelling ++ r)) :: rest)
      ⟨init.length, Text.size l⟩ ⟨init.length, Text.size l + 4 + Text.size b + 4⟩ text =
        some (init ++ [.source l] ++ .resolved text.toList :: .source r :: rest) := by
  have hpiece := getElem?_append_cons init
    (.source (l ++ Marker.opening.spelling ++ (b ++ Marker.closing.spelling ++ r))) rest
  have hlast : l ++ Marker.opening.spelling ++ (b ++ Marker.closing.spelling ++ r) =
      l ++ Marker.opening.spelling ++ b ++ Marker.closing.spelling ++ r := by
    simp only [List.append_assoc]
  rw [spliceAt?_eq text hpiece (List.append_assoc _ _ _) rfl hpiece hlast
    (by simp only [Text.size_append, Marker.size_spelling])]
  simp

theorem spliceAt?_across (init mid rest : Template) (l b b' r : List Char) (text : String) :
    spliceAt? (init ++ .source (l ++ Marker.opening.spelling ++ b) ::
        (mid ++ .source (b' ++ Marker.closing.spelling ++ r) :: rest))
      ⟨init.length, Text.size l⟩ ⟨init.length + 1 + mid.length, Text.size b' + 4⟩ text =
        some (init ++ [.source l] ++ .resolved text.toList :: .source r :: rest) := by
  have hlast : (init ++ .source (l ++ Marker.opening.spelling ++ b) ::
      (mid ++ .source (b' ++ Marker.closing.spelling ++ r) :: rest))[init.length + 1 + mid.length]? =
        some (.source (b' ++ Marker.closing.spelling ++ r)) := by
    rw [Nat.add_assoc, Nat.add_comm 1, getElem?_append_cons_add, getElem?_append_cons]
  rw [spliceAt?_eq text (getElem?_append_cons _ _ _) (List.append_assoc _ _ _) rfl hlast rfl
    (by simp only [Text.size_append, Marker.size_spelling])]
  have hbehind : init.length + 1 + mid.length + 1 = init.length + (mid.length + 1 + 1) := by omega
  rw [hbehind, drop_append_cons_add, drop_append_cons_add]
  simp

/-- The slices at the markers give the body and what stands around the portal. -/
theorem Cut.slices (h : Cut t span) : ∃ o c, endPlace ⟨0, 0⟩ span.before = o ∧
    endPlace o.behind span.body = c ∧ t.between? o.behind c = some span.body ∧
      ∀ r, t.spliceAt? o c.behind r = some (span.splice r) := by
  obtain ⟨init, l, hcloses⟩ := h
  cases hcloses with
  | within b r =>
    refine ⟨⟨init.length, Text.size l⟩, ⟨init.length, Text.size l + 4 + Text.size b⟩, ?_, rfl,
      between?_within init _ l b r, spliceAt?_within init _ l b r⟩
    rw [endPlace_concat, Nat.zero_add]
    rfl
  | across _ mid b' r rest =>
    refine ⟨⟨init.length, Text.size l⟩, ⟨init.length + 1 + mid.length, Text.size b'⟩, ?_, ?_,
      between?_across init mid rest l _ b' r, spliceAt?_across init mid rest l _ b' r⟩
    · rw [endPlace_concat, Nat.zero_add]
      rfl
    · exact (endPlace_cons (by simp)).trans (endPlace_concat _ mid (.source b'))

/-! ### Markers and the whole -/

theorem markers_append (a b : Template) : (a ++ b).markers = a.markers ++ b.markers := by
  rw [markers, tokens_append, List.filterMap_append]
  rfl

theorem markers_splice (span : Span) (r : String) :
    (span.splice r).markers = span.before.markers ++ span.after.markers := by
  rw [Span.splice, markers_append]
  rfl

theorem text_portal (span : Span) : span.portal.text = span.label := by
  rw [Span.portal, Fragment.text_append, Fragment.text_append, Fragment.written, Fragment.written,
    Fragment.text_ofText, Fragment.text_ofText, Span.label, String.ofList_append, String.ofList_append]
  rfl

theorem fragment_splice (span : Span) (r : String) : (span.splice r).fragment =
    span.before.fragment ++ .ofText r.toList true ++ span.after.fragment := by
  rw [Span.splice, fragment_append, Fragment.append_assoc]
  rfl

/-- Replacing the innermost portal replaces it and nothing else. The portal stands between the first
opening marker that a closing one follows and that one, and there is none if no opening marker is
followed so. The slices of pieces between these two are the body, and those around them are what the
new template keeps: none of them fails, so none is replaced by no text. There is text `P` before the
portal and text `S` behind it, each with the provenance of its characters and with its gaps. Whatever
text comes in between, they stay as they are, and so do all markers but the two of the portal. -/
theorem splice_exact (t : Template) :
    (t.innermost = none ↔ firstPair t.places = none) ∧
    ∀ span, t.innermost = some span → ∃ (P S : Fragment) (A B : List (Marker × Place)) (o c : Place),
      firstPair t.places = some (o, c) ∧
      t.places = A ++ (.opening, o) :: (.closing, c) :: B ∧
      t.between? o.behind c = some span.body ∧
      t.render = P.text ++ span.label ++ S.text ∧
      t.fragment = P ++ span.portal ++ S ∧
      ∀ r, t.spliceAt? o c.behind r = some (span.splice r) ∧
        (span.splice r).render = P.text ++ r ++ S.text ∧
        (span.splice r).fragment = P ++ .ofText r.toList true ++ S ∧
        (span.splice r).markers = (A ++ B).map (·.1) := by
  refine ⟨innermost_eq_none_iff t, fun span h => ?_⟩
  obtain ⟨o, c, rfl, rfl, hbody, hsplice⟩ := (cut_of_innermost h).slices
  have hfragment := (cut_of_innermost h).fragment_eq
  obtain ⟨hpair, hplaces⟩ := placesFrom_of_innermost h ⟨0, 0⟩
  refine ⟨span.before.fragment, span.after.fragment, _, _, _, _, hpair, hplaces, hbody, ?_, hfragment,
    fun r => ⟨hsplice r, ?_, fragment_splice span r, ?_⟩⟩
  · rw [← text_fragment, hfragment, Fragment.text_append, Fragment.text_append, text_portal]
  · rw [← text_fragment, fragment_splice, Fragment.text_append, Fragment.text_append,
      Fragment.text_ofText, String.ofList_toList]
  · rw [markers_splice, List.map_append, map_fst_placesFrom, map_fst_placesFrom]

/-- A portal over three pieces. Its opening marker stands behind a character of two bytes, and there are
characters of two, three and four bytes between its markers, and a closing marker which is none as it
was resolved. -/
theorem splice_exact_across :
    let t : Template := [.source "é~\x7b\x7b~ö".toList, .resolved "~\x7d\x7d~∀".toList,
      .source "𝔸~\x7d\x7d~é~\x7b\x7b~".toList]
    let body : Template := [.source ['ö'], .resolved "~\x7d\x7d~∀".toList, .source ['𝔸']]
    let span : Span := ⟨[.source ['é']], body, [.source "é~\x7b\x7b~".toList]⟩
    t.innermost = some span ∧ firstPair t.places = some (⟨0, 2⟩, ⟨2, 4⟩) ∧
      t.between? ⟨0, 6⟩ ⟨2, 4⟩ = some body ∧ t.spliceAt? ⟨0, 2⟩ ⟨2, 8⟩ "" = some (span.splice "") := by
  intro t body span
  have hs : t.innermost = some span := by decide +kernel
  have hp : firstPair t.places = some (⟨0, 2⟩, ⟨2, 4⟩) := by decide +kernel
  obtain ⟨P, S, A, B, o, c, hpair, -, hbody, -, -, hsplice⟩ := (splice_exact t).2 span hs
  obtain ⟨rfl, rfl⟩ := Prod.mk.inj (Option.some.inj (hpair.symm.trans hp))
  exact ⟨hs, hp, hbody, (hsplice "").1⟩

end Template

end PortalScript
