import PortalScript.Proofs.Template.Pieces
import PortalScript.Proofs.Text.Slice

/-! # Portals by places

A place is the number of a piece and a byte offset in it. `places` lists the markers of a template with
the places where they stand. The innermost portal lies between the first opening marker that a closing
one follows and that closing one (`placesFrom_of_innermost`). `between?` and `spliceAt?` take slices of
the pieces at such places, and give nothing if one of the slices is not there to be taken. -/

namespace PortalScript

/-- The number of a piece, and how many bytes of the piece stand before. -/
structure Place where
  piece : Nat
  offset : Nat
deriving Repr, DecidableEq

namespace Place

/-- The place behind a marker. -/
def behind (p : Place) : Place := ⟨p.piece, p.offset + 4⟩

/-- The start of the next piece. -/
def next (p : Place) : Place := ⟨p.piece + 1, 0⟩

end Place

theorem Marker.size_spelling (m : Marker) : Text.size m.spelling = 4 := by
  cases m <;> rfl

namespace Template

/-- The markers of a source text and their places, where `start` is the place of the text. -/
def sourcePlaces (start : Place) (text : List Char) : List (Marker × Place) :=
  match _h : Marker.cut? text with
  | none => []
  | some (l, m, r) =>
    let p : Place := ⟨start.piece, start.offset + Text.size l⟩
    (m, p) :: sourcePlaces p.behind r
termination_by text.length
decreasing_by
  rw [Marker.eq_append_of_cut? _h]
  simp; omega

/-- The markers in source text and their places, where `start` is the place of the first piece. -/
def placesFrom (start : Place) : Template → List (Marker × Place)
  | [] => []
  | .source text :: t => sourcePlaces start text ++ placesFrom start.next t
  | .resolved _ :: t => placesFrom start.next t

/-- The markers of a template and their places. -/
def places (t : Template) : List (Marker × Place) := placesFrom ⟨0, 0⟩ t

/-- The first opening marker that a closing one follows, and that closing one. -/
def firstPair : List (Marker × Place) → Option (Place × Place)
  | (.opening, o) :: (.closing, c) :: _ => some (o, c)
  | _ :: rest => firstPair rest
  | [] => none

/-- The place where the last piece of a template ends. -/
def endPlace (start : Place) : Template → Place
  | [] => start
  | [p] => ⟨start.piece, start.offset + Text.size p.chars⟩
  | _ :: t => endPlace start.next t

variable {t before after init rest : Template} {m : Marker} {span : Span} {start : Place}
  {p : Piece}

/-! ### The places of an innermost portal -/

theorem sourcePlaces_of_none {text : List Char} (h : Marker.cut? text = none) :
    sourcePlaces start text = [] := by
  rw [sourcePlaces]
  split <;> simp_all

theorem sourcePlaces_of_cut? {text l r : List Char} (h : Marker.cut? text = some (l, m, r)) :
    sourcePlaces start text = (m, ⟨start.piece, start.offset + Text.size l⟩) ::
      sourcePlaces ⟨start.piece, start.offset + Text.size l + 4⟩ r := by
  rw [sourcePlaces]
  split <;> simp_all [Place.behind]

theorem endPlace_cons (h : t ≠ []) : endPlace start (p :: t) = endPlace start.next t := by
  obtain ⟨q, t, rfl⟩ := List.exists_cons_of_ne_nil h
  rfl

theorem endPlace_concat (i : Nat) (init : Template) (p : Piece) :
    endPlace ⟨i, 0⟩ (init ++ [p]) = ⟨i + init.length, Text.size p.chars⟩ := by
  induction init generalizing i with
  | nil => simp [endPlace]
  | cons q init ih =>
    rw [List.cons_append, endPlace_cons (by simp), Place.next, ih]
    simp; omega

theorem ne_nil_of_nextMarker (h : t.nextMarker = some (before, m, after)) : before ≠ [] := by
  obtain ⟨init, l, r, rest, rfl, -, -, -, -⟩ := nextMarker_eq_some_iff.1 h
  simp

theorem placesFrom_of_nextMarker_eq_none (h : t.nextMarker = none) : placesFrom start t = [] := by
  induction t generalizing start with
  | nil => rfl
  | cons p t ih =>
    cases p with
    | resolved text => exact ih (by simpa [nextMarker] using h)
    | source text =>
      simp only [nextMarker] at h
      split at h
      · cases h
      · rename_i hc
        rw [placesFrom, sourcePlaces_of_none hc, List.nil_append]
        exact ih (by simpa using h)

theorem placesFrom_of_nextMarker (h : t.nextMarker = some (before, m, after)) :
    placesFrom start t =
      (m, endPlace start before) :: placesFrom (endPlace start before).behind after := by
  induction t generalizing before start with
  | nil => cases h
  | cons p t ih =>
    cases p with
    | resolved text =>
      obtain ⟨⟨b, m', a⟩, hb, he⟩ := Option.map_eq_some_iff.1 h
      cases he
      rw [endPlace_cons (ne_nil_of_nextMarker hb), placesFrom, ih hb]
    | source text =>
      simp only [nextMarker] at h
      split at h
      · rename_i l m' r hc
        cases h
        rw [placesFrom, sourcePlaces_of_cut? hc]
        rfl
      · rename_i hc
        obtain ⟨⟨b, m', a⟩, hb, he⟩ := Option.map_eq_some_iff.1 h
        cases he
        rw [endPlace_cons (ne_nil_of_nextMarker hb), placesFrom, sourcePlaces_of_none hc,
          List.nil_append, ih hb]

theorem endPlace_weld (m : Marker) (init : Template) (l r : List Char) (rest : Template) :
    endPlace start (init ++ .source (l ++ m.spelling ++ r) :: rest) =
      endPlace (endPlace start (init ++ [.source l])).behind (.source r :: rest) := by
  induction init generalizing start with
  | nil =>
    cases rest with
    | nil => simp [endPlace, Place.behind, Piece.chars, Marker.size_spelling, Nat.add_assoc]
    | cons p rest => rfl
  | cons p init ih =>
    have hne (q : Piece) (qs : Template) : init ++ q :: qs ≠ [] := by simp
    rw [List.cons_append, List.cons_append, endPlace_cons (hne _ _), endPlace_cons (hne _ _), ih]

theorem firstPair_cons {after : Template} {p start : Place}
    (h : ∀ b a, m = .opening → after.nextMarker ≠ some (b, .closing, a)) :
    firstPair ((m, p) :: placesFrom start after) = firstPair (placesFrom start after) := by
  cases hn : after.nextMarker with
  | none =>
    rw [placesFrom_of_nextMarker_eq_none hn]
    cases m <;> rfl
  | some parts =>
    obtain ⟨b, m', a⟩ := parts
    rw [placesFrom_of_nextMarker hn]
    cases m with
    | closing => rfl
    | opening =>
      cases m' with
      | opening => rfl
      | closing => exact absurd hn (h b a rfl)

/-- The innermost portal lies between the first opening marker that a closing one follows and that one,
and all other markers stand before or behind it. -/
theorem placesFrom_of_innermost (h : t.innermost = some span) (start : Place) :
    let o := endPlace start span.before
    let c := endPlace o.behind span.body
    firstPair (placesFrom start t) = some (o, c) ∧
      placesFrom start t = placesFrom start span.before ++
        (.opening, o) :: (.closing, c) :: placesFrom c.behind span.after := by
  fun_induction innermost t generalizing span start with
  | case1 t hn => cases h
  | case2 t before after body rest hn hc =>
    cases h
    rw [placesFrom_of_nextMarker hn, placesFrom_of_nextMarker hc,
      placesFrom_of_nextMarker_eq_none (nextMarker_before hn)]
    exact ⟨rfl, rfl⟩
  | case3 t before m after hn hn' hne ih =>
    obtain ⟨inner, hi, rfl⟩ := Option.map_eq_some_iff.1 h
    obtain ⟨init, l, r, rest, rfl, rfl, -, -, -⟩ := nextMarker_eq_some_iff.1 hn
    obtain ⟨r', rest', hb⟩ := (innermost_of_innermost_eq_some hi).starts r rest rfl
    have hplaces := @placesFrom_of_nextMarker _ _ _ _ start (nextMarker_weld hn r' rest')
    have hend : endPlace start (weld m (init ++ [.source l]) inner.before) =
        endPlace (endPlace start (init ++ [.source l])).behind inner.before := by
      rw [hb, weld_append, endPlace_weld]
    rw [← hb] at hplaces
    obtain ⟨hpair, heq⟩ := ih hi (endPlace start (init ++ [.source l])).behind
    dsimp only
    rw [placesFrom_of_nextMarker hn, hend, hplaces, firstPair_cons, hpair, heq]
    · exact ⟨rfl, rfl⟩
    · rintro b a rfl hc
      exact hne b a hn rfl hc HEq.rfl

theorem firstPair_placesFrom_eq_none (h : t.innermost = none) (start : Place) :
    firstPair (placesFrom start t) = none := by
  fun_induction innermost t generalizing start with
  | case1 t hn =>
    rw [placesFrom_of_nextMarker_eq_none hn]
    rfl
  | case2 t before after body rest hn hc => cases h
  | case3 t before m after hn hn' hne ih =>
    rw [placesFrom_of_nextMarker hn, firstPair_cons, ih (Option.map_eq_none_iff.1 h)]
    rintro b a rfl hc
    exact hne b a hn rfl hc HEq.rfl

theorem innermost_eq_none_iff (t : Template) : t.innermost = none ↔ firstPair t.places = none := by
  refine ⟨fun h => firstPair_placesFrom_eq_none h _, fun h => ?_⟩
  cases hs : t.innermost with
  | none => rfl
  | some span =>
    have hpair := (placesFrom_of_innermost hs ⟨0, 0⟩).1
    rw [places, hpair] at h
    cases h

theorem map_fst_sourcePlaces (start : Place) (text : List Char) :
    (sourcePlaces start text).map (·.1) = (sourceTokens text).filterMap Token.mark? := by
  fun_induction sourcePlaces start text with
  | case1 start text h =>
    rw [sourceTokens_of_none h]
    rfl
  | case2 start text l m r h p ih =>
    rw [sourceTokens_of_cut? h, List.map_cons, ih]
    rfl

theorem map_fst_placesFrom (start : Place) (t : Template) :
    (placesFrom start t).map (·.1) = t.markers := by
  induction t generalizing start with
  | nil => rfl
  | cons p t ih =>
    cases p with
    | resolved text => exact ih start.next
    | source text =>
      rw [placesFrom, List.map_append, map_fst_sourcePlaces, ih start.next, markers, markers, tokens,
        List.filterMap_append]

/-! ### Slices at places -/

end Template

/-- What a piece has between two byte offsets. -/
def Piece.slice? (start stop : Nat) : Piece → Option Piece
  | source text => (Text.slice? start stop text).map source
  | resolved text => (Text.slice? start stop text).map resolved

theorem Piece.slice?_self (p : Piece) : p.slice? 0 (Text.size p.chars) = some p := by
  cases p <;> simp [slice?, chars, Text.slice?_self]

theorem Piece.slice?_source {start stop : Nat} {a b c : List Char} (ha : start = Text.size a)
    (hb : stop = Text.size (a ++ b)) :
    (source (a ++ b ++ c)).slice? start stop = some (source b) := by
  rw [slice?, Text.slice?_eq_some_iff.2 ⟨a, c, rfl, ha, hb⟩]
  rfl

namespace Template
variable {t : Template} {p : Piece}

/-- What a piece of a template has between two places. -/
def pieceBetween? (t : Template) (o c : Place) (i : Nat) : Option Piece := do
  let p ← t[i]?
  p.slice? (if i = o.piece then o.offset else 0)
    (if i = c.piece then c.offset else Text.size p.chars)

/-- The pieces between two places. -/
def between? (t : Template) (o c : Place) : Option Template :=
  (List.range' o.piece (c.piece + 1 - o.piece)).mapM (t.pieceBetween? o c)

/-- The text of a piece, if that is source text. -/
def sourceAt? (t : Template) (i : Nat) : Option (List Char) :=
  match t[i]? with
  | some (.source text) => some text
  | _ => none

/-- The template with resolved text in the place of what stands between two places in source text. -/
def spliceAt? (t : Template) (o c : Place) (text : String) : Option Template := do
  let first ← t.sourceAt? o.piece
  let last ← t.sourceAt? c.piece
  let before ← Text.slice? 0 o.offset first
  let after ← Text.slice? c.offset (Text.size last) last
  return t.take o.piece ++
    .source before :: .resolved text.toList :: .source after :: t.drop (c.piece + 1)

section
variable {o c : Place} {i : Nat} (hp : t[i]? = some p)
include hp

theorem pieceBetween?_only (ho : i = o.piece) (hc : i = c.piece) :
    t.pieceBetween? o c i = p.slice? o.offset c.offset := by
  simp [pieceBetween?, hp, ← ho, ← hc]

theorem pieceBetween?_first (ho : i = o.piece) (hc : i ≠ c.piece) :
    t.pieceBetween? o c i = p.slice? o.offset (Text.size p.chars) := by
  simp [pieceBetween?, hp, ← ho, hc]

theorem pieceBetween?_inner (ho : i ≠ o.piece) (hc : i ≠ c.piece) :
    t.pieceBetween? o c i = some p := by
  simp [pieceBetween?, hp, ho, hc, Piece.slice?_self]

theorem pieceBetween?_last (ho : i ≠ o.piece) (hc : i = c.piece) :
    t.pieceBetween? o c i = p.slice? 0 c.offset := by
  simp [pieceBetween?, hp, ho, ← hc]

end

theorem mapM_range' {f : Nat → Option Piece} {n : Nat}
    (h : ∀ i < t.length, f (n + i) = t[i]?) : (List.range' n t.length).mapM f = some t := by
  induction t generalizing n with
  | nil => rfl
  | cons p t ih =>
    have hfirst : f n = some p := h 0 (Nat.zero_lt_succ _)
    have hrest : ∀ i < t.length, f (n + 1 + i) = t[i]? := by
      intro i hi
      rw [Nat.add_right_comm]
      exact h (i + 1) (Nat.succ_lt_succ hi)
    rw [List.length_cons, List.range'_succ, List.mapM_cons, hfirst, ih hrest]
    rfl

theorem spliceAt?_eq {o c : Place} {first last l x y r : List Char} (text : String)
    (ho : t[o.piece]? = some (.source first)) (hfirst : first = l ++ x) (hl : o.offset = Text.size l)
    (hc : t[c.piece]? = some (.source last)) (hlast : last = y ++ r) (hy : c.offset = Text.size y) :
    t.spliceAt? o c text = some
      (t.take o.piece ++ .source l :: .resolved text.toList :: .source r :: t.drop (c.piece + 1)) := by
  have hfront : Text.slice? 0 o.offset first = some l :=
    Text.slice?_eq_some_iff.2 ⟨[], x, hfirst, rfl, hl⟩
  have hback : Text.slice? c.offset (Text.size last) last = some r :=
    Text.slice?_eq_some_iff.2 ⟨y, [], by rw [hlast, List.append_nil], hy, congrArg Text.size hlast⟩
  simp only [spliceAt?, sourceAt?, ho, hc, Option.bind_eq_bind, Option.bind_some, hfront, hback,
    Option.pure_def]

theorem between?_eq {o c : Place} {body : Template} (hl : c.piece + 1 = o.piece + body.length)
    (h : ∀ i < body.length, t.pieceBetween? o c (o.piece + i) = body[i]?) :
    t.between? o c = some body := by
  rw [between?, hl, Nat.add_sub_cancel_left]
  exact mapM_range' h

end Template

end PortalScript
