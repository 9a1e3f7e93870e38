import Mathlib.Data.List.Basic
import PortalScript.Template.Span

/-! # Templates cut at their markers

`Template.tokens` lists what the scanner sees: the markers of the source pieces in order, and the
pieces between them. `Innermost` says where the innermost portal stands among the tokens, and that
replacing it changes nothing else (`innermost_of_innermost_eq_some`): cutting a source piece at a marker, or welding it together
again, never makes, loses or moves another marker. -/

namespace PortalScript

namespace Marker

variable {l r : List Char} {m : Marker}

theorem at?_eq_none_of_four {cs : List Char} (x y : List Char) (hl : 4 ≤ cs.length)
    (h : at? (cs ++ x) = none) : at? (cs ++ y) = none := by
  match cs, hl with
  | a :: b :: c :: d :: cs, _ =>
    simp only [at?, spelling, Text.after?, List.cons_append] at h ⊢
    split_ifs at h ⊢ <;> simp_all

theorem at?_eq_none_of_append {cs x : List Char} (h : at? (cs ++ x) = none) : at? cs = none := by
  cases hc : at? cs with
  | none => rfl
  | some p =>
    obtain ⟨m, rest⟩ := p
    rw [eq_append_of_at? hc] at h
    cases m <;> simp [at?, spelling, Text.after?] at h

theorem cut?_left_eq_none (h : cut? (l ++ m.spelling ++ r) = some (l, m, r)) : cut? l = none := by
  induction l with
  | nil => rfl
  | cons c l ih =>
    simp only [List.cons_append, cut?] at h ⊢
    split at h
    · cases h
    · rename_i hc
      obtain ⟨⟨b, m', r'⟩, hb, he⟩ := Option.map_eq_some_iff.1 h
      simp only [Prod.mk.injEq, List.cons.injEq, true_and] at he
      obtain ⟨rfl, rfl, rfl⟩ := he
      have hl : at? (c :: b) = none :=
        at?_eq_none_of_append (x := m'.spelling ++ r') (by simpa using hc)
      simp only [hl, ih hb, Option.map_none]

theorem cut?_spelling_append (h : cut? (l ++ m.spelling ++ r) = some (l, m, r)) (x : List Char) :
    cut? (l ++ m.spelling ++ x) = some (l, m, x) := by
  induction l with
  | nil => cases m <;> simp [cut?, at?, spelling, Text.after?]
  | cons c l ih =>
    simp only [List.cons_append, cut?] at h ⊢
    split at h
    · cases h
    · rename_i hc
      obtain ⟨⟨b, m', r'⟩, hb, he⟩ := Option.map_eq_some_iff.1 h
      simp only [Prod.mk.injEq, List.cons.injEq, true_and] at he
      obtain ⟨rfl, rfl, rfl⟩ := he
      have hx : at? (c :: (b ++ m'.spelling ++ x)) = none :=
        @at?_eq_none_of_four (c :: (b ++ m'.spelling)) r' x (by simp) hc
      rw [hx]
      simp only [ih hb, Option.map_some]

end Marker

/-- What the scanner sees of a template: a piece without a marker, or a marker. -/
inductive Token
  | piece (p : Piece)
  | mark (m : Marker)
deriving Repr, DecidableEq

/-- The characters of a token. -/
def Token.chars : Token → List Char
  | piece p => p.chars
  | mark m => m.spelling

namespace Template

/-- The tokens of a source text. -/
def sourceTokens (text : List Char) : List Token :=
  match _h : Marker.cut? text with
  | none => [.piece (.source text)]
  | some (l, m, r) => .piece (.source l) :: .mark m :: sourceTokens r
termination_by text.length
decreasing_by
  rw [Marker.eq_append_of_cut? _h]
  simp; omega

/-- The tokens of a template in order. -/
def tokens : Template → List Token
  | [] => []
  | .source text :: t => sourceTokens text ++ tokens t
  | .resolved text :: t => .piece (.resolved text) :: tokens t

/-- The pieces as tokens. -/
abbrev asTokens (t : Template) : List Token := t.map .piece

variable {t before after : Template} {m : Marker}

theorem sourceTokens_of_cut? {text l r : List Char} (h : Marker.cut? text = some (l, m, r)) :
    sourceTokens text = .piece (.source l) :: .mark m :: sourceTokens r := by
  rw [sourceTokens]; split <;> simp_all

theorem sourceTokens_of_none {text : List Char} (h : Marker.cut? text = none) :
    sourceTokens text = [.piece (.source text)] := by
  rw [sourceTokens]; split <;> simp_all

theorem tokens_append (s t : Template) : tokens (s ++ t) = tokens s ++ tokens t := by
  induction s with
  | nil => rfl
  | cons p s ih => cases p <;> simp [tokens, ih]

theorem flatMap_chars_sourceTokens (text : List Char) :
    (sourceTokens text).flatMap Token.chars = text := by
  fun_induction sourceTokens text with
  | case1 text h => simp [Token.chars, Piece.chars]
  | case2 text l m r h ih =>
    simp [Token.chars, Piece.chars, ih, Marker.eq_append_of_cut? h]

theorem flatMap_chars_tokens (t : Template) : t.tokens.flatMap Token.chars = t.flatMap Piece.chars := by
  induction t with
  | nil => rfl
  | cons p t ih =>
    cases p <;> simp [tokens, ih, flatMap_chars_sourceTokens, Token.chars, Piece.chars]

theorem tokens_of_nextMarker_eq_none (h : t.nextMarker = none) : t.tokens = t.asTokens := by
  induction t with
  | nil => rfl
  | cons p t ih =>
    cases p with
    | resolved text => simp [tokens, ih (by simpa [nextMarker] using h)]
    | source text =>
      simp only [nextMarker] at h
      split at h
      · cases h
      · rename_i hc
        simp [tokens, sourceTokens_of_none hc, ih (by simpa using h)]

theorem nextMarker_append (h : t.nextMarker = none) (s : Template) :
    nextMarker (t ++ s) = (nextMarker s).map fun (b, m, a) => (t ++ b, m, a) := by
  induction t with
  | nil => cases h : nextMarker s <;> simp [h]
  | cons p t ih =>
    cases p with
    | resolved text =>
      have ih := ih (by simpa [nextMarker] using h)
      simp only [List.cons_append, nextMarker, ih, Option.map_map]
      rfl
    | source text =>
      simp only [nextMarker] at h
      split at h
      · cases h
      · rename_i hc
        have ih := ih (by simpa using h)
        simp only [List.cons_append, nextMarker, hc, ih, Option.map_map]
        rfl

/-- The first marker of a template: nothing before it holds another one, and the source piece around
it falls apart into the end of what is before and the start of what is behind. -/
theorem nextMarker_eq_some_iff : t.nextMarker = some (before, m, after) ↔
    ∃ init l r rest, before = init ++ [.source l] ∧ after = .source r :: rest ∧
      t = init ++ .source (l ++ m.spelling ++ r) :: rest ∧
      init.nextMarker = none ∧ Marker.cut? (l ++ m.spelling ++ r) = some (l, m, r) := by
  constructor
  · intro h
    induction t generalizing before with
    | nil => simp [nextMarker] at h
    | cons p t ih =>
      cases p with
      | resolved text =>
        obtain ⟨⟨b, m', a⟩, hb, he⟩ := Option.map_eq_some_iff.1 h
        cases he
        obtain ⟨init, l, r, rest, rfl, rfl, rfl, hi, hc⟩ := ih hb
        exact ⟨.resolved text :: init, l, r, rest, rfl, rfl, rfl, by simp [nextMarker, hi], hc⟩
      | source text =>
        simp only [nextMarker] at h
        split at h
        · rename_i l m' r hc
          cases h
          have ht := Marker.eq_append_of_cut? hc
          exact ⟨[], l, r, t, rfl, rfl, by rw [ht]; rfl, rfl, ht ▸ hc⟩
        · rename_i hc
          obtain ⟨⟨b, m', a⟩, hb, he⟩ := Option.map_eq_some_iff.1 h
          cases he
          obtain ⟨init, l, r, rest, rfl, rfl, rfl, hi, hc'⟩ := ih hb
          exact ⟨.source text :: init, l, r, rest, rfl, rfl, rfl, by simp [nextMarker, hc, hi], hc'⟩
  · rintro ⟨init, l, r, rest, rfl, rfl, rfl, hi, hc⟩
    rw [nextMarker_append hi]
    simp only [nextMarker, hc, Option.map_some]

theorem tokens_of_nextMarker (h : t.nextMarker = some (before, m, after)) :
    t.tokens = before.asTokens ++ .mark m :: after.tokens := by
  obtain ⟨init, l, r, rest, rfl, rfl, rfl, hi, hc⟩ := nextMarker_eq_some_iff.1 h
  rw [tokens_append, tokens_of_nextMarker_eq_none hi]
  simp only [tokens, sourceTokens_of_cut? hc]
  simp

theorem weld_append (init rest : Template) (l r : List Char) :
    weld m (init ++ [.source l]) (.source r :: rest) =
      init ++ .source (l ++ m.spelling ++ r) :: rest := by
  induction init with
  | nil => rfl
  | cons p init ih =>
    cases hi : init ++ [Piece.source l] with
    | nil => simp at hi
    | cons q qs =>
      rw [hi] at ih
      simp only [List.cons_append, hi, ← ih]
      cases p <;> rfl

/-- Welding undoes the division at a first marker, also when what is behind it has changed. -/
theorem nextMarker_weld (h : t.nextMarker = some (before, m, after)) (r : List Char)
    (rest : Template) :
    nextMarker (weld m before (.source r :: rest)) = some (before, m, .source r :: rest) := by
  obtain ⟨init, l, r', rest', rfl, rfl, rfl, hi, hc⟩ := nextMarker_eq_some_iff.1 h
  rw [weld_append]
  exact nextMarker_eq_some_iff.2 ⟨init, l, r, rest, rfl, rfl, rfl, hi, Marker.cut?_spelling_append hc r⟩

/-- No closing marker stands behind an opening one, so that no portal is complete. -/
def Quiet (ts : List Token) : Prop :=
  ts.Pairwise fun a b => a = .mark .opening → b ≠ .mark .closing

theorem quiet_asTokens (t : Template) : Quiet t.asTokens :=
  List.pairwise_map.2 <| List.pairwise_of_forall fun _ _ h => nomatch h

theorem quiet_pieces_append {ts : List Token} (t : Template) :
    Quiet (t.asTokens ++ ts) ↔ Quiet ts := by
  simp only [Quiet, List.pairwise_append]
  refine ⟨fun h => h.2.1, fun h => ⟨quiet_asTokens t, h, ?_⟩⟩
  intro a ha b _ hab
  obtain ⟨p, -, rfl⟩ := List.mem_map.1 ha
  cases hab

theorem quiet_closing_cons {ts : List Token} : Quiet (.mark .closing :: ts) ↔ Quiet ts := by
  simp [Quiet]

theorem quiet_opening_cons {ts : List Token} (h : .mark .closing ∉ ts) (hq : Quiet ts) :
    Quiet (.mark .opening :: ts) :=
  List.pairwise_cons.2 ⟨fun _ hb _ he => h (he ▸ hb), hq⟩

/-- The first marker of `t`, if there is one, is opening. -/
def OpensFirst (t : Template) : Prop := ∀ b a, t.nextMarker ≠ some (b, .closing, a)

/-- Where the innermost portal stands among the tokens. -/
structure Innermost (t : Template) (span : Span) : Prop where
  tokens_eq : t.tokens = span.before.tokens ++
    .mark .opening :: (span.body.asTokens ++ .mark .closing :: span.after.tokens)
  quiet : Quiet span.before.tokens
  opens : OpensFirst t → .mark .closing ∉ span.before.tokens
  starts : ∀ r rest, t = .source r :: rest → ∃ r' rest', span.before = .source r' :: rest'
  body : span.body.nextMarker = none

theorem not_mem_asTokens (t : Template) (m : Marker) : .mark m ∉ t.asTokens := by
  simp [asTokens]

theorem Innermost.weld {span : Span} (h : t.nextMarker = some (before, m, after))
    (ho : m = .opening → OpensFirst after) (hs : Innermost after span) :
    Innermost t { span with before := Template.weld m before span.before } := by
  obtain ⟨init, l, r, rest, rfl, rfl, ht, hi, hc⟩ := nextMarker_eq_some_iff.1 h
  obtain ⟨r', rest', hb⟩ := hs.starts r rest rfl
  have hw : (Template.weld m (init ++ [.source l]) span.before).tokens =
      (init ++ [Piece.source l]).asTokens ++ .mark m :: span.before.tokens := by
    rw [hb]; exact tokens_of_nextMarker (nextMarker_weld h r' rest')
  have hmem : (m = .opening → .mark .closing ∉ span.before.tokens) := fun hm => hs.opens (ho hm)
  refine ⟨?_, ?_, ?_, ?_, hs.body⟩
  · rw [hw, tokens_of_nextMarker h, hs.tokens_eq]; simp
  · rw [hw, quiet_pieces_append]
    cases m with
    | opening => exact quiet_opening_cons (hmem rfl) hs.quiet
    | closing => exact quiet_closing_cons.2 hs.quiet
  · intro hto
    rw [hw]
    cases m with
    | opening => simp [hmem rfl]
    | closing => exact absurd h (hto _ _)
  · intro x xs hx
    rw [hb, weld_append]
    cases init with
    | nil => exact ⟨_, _, rfl⟩
    | cons p init =>
      rw [ht] at hx
      cases hx
      exact ⟨_, _, rfl⟩

theorem nextMarker_before (h : t.nextMarker = some (before, m, after)) :
    before.nextMarker = none := by
  obtain ⟨init, l, r, rest, rfl, rfl, rfl, hi, hc⟩ := nextMarker_eq_some_iff.1 h
  rw [nextMarker_append hi]
  simp [nextMarker, Marker.cut?_left_eq_none hc]

theorem Innermost.of_nextMarker {body rest : Template}
    (h : t.nextMarker = some (before, .opening, after))
    (h' : after.nextMarker = some (body, .closing, rest)) : Innermost t ⟨before, body, rest⟩ := by
  have hb := tokens_of_nextMarker_eq_none (nextMarker_before h)
  refine ⟨?_, ?_, fun _ => ?_, ?_, nextMarker_before h'⟩
  · rw [tokens_of_nextMarker h, tokens_of_nextMarker h', hb]
  · rw [hb]; exact quiet_asTokens _
  · rw [hb]; exact not_mem_asTokens _ _
  · rintro r s rfl
    obtain ⟨init, l, r', rest', rfl, -, ht, -, -⟩ := nextMarker_eq_some_iff.1 h
    cases init with
    | nil => exact ⟨_, _, rfl⟩
    | cons p init => cases ht; exact ⟨_, _, rfl⟩

theorem innermost_of_innermost_eq_some {span : Span} (h : t.innermost = some span) :
    Innermost t span := by
  fun_induction innermost t generalizing span with
  | case1 t hn => cases h
  | case2 t before after body rest hn hc =>
    cases h
    exact .of_nextMarker hn hc
  | case3 t before m after hn hn' hne ih =>
    obtain ⟨inner, hi, rfl⟩ := Option.map_eq_some_iff.1 h
    refine .weld hn (fun hm b a hc => ?_) (ih hi)
    subst hm
    exact hne b a hn rfl hc HEq.rfl

theorem quiet_of_innermost_eq_none (h : t.innermost = none) :
    Quiet t.tokens ∧ (OpensFirst t → .mark .closing ∉ t.tokens) := by
  fun_induction innermost t with
  | case1 t hn =>
    rw [tokens_of_nextMarker_eq_none hn]
    exact ⟨quiet_asTokens t, fun _ => not_mem_asTokens _ _⟩
  | case2 t before after body rest hn hc => cases h
  | case3 t before m after hn hn' hne ih =>
    obtain ⟨hq, ho⟩ := ih (by simpa using h)
    rw [tokens_of_nextMarker hn]
    cases m with
    | opening =>
      have hc : .mark .closing ∉ after.tokens := ho fun b a hc => hne b a hn rfl hc HEq.rfl
      exact ⟨(quiet_pieces_append _).2 (quiet_opening_cons hc hq), fun _ => by simp [hc]⟩
    | closing =>
      exact ⟨(quiet_pieces_append _).2 (quiet_closing_cons.2 hq), fun h => absurd hn (h _ _)⟩

theorem innermost_eq_none_of_quiet (h : Quiet t.tokens) : t.innermost = none := by
  cases hn : t.innermost with
  | none => rfl
  | some span =>
    rw [(innermost_of_innermost_eq_some hn).tokens_eq] at h
    obtain ⟨-, h, -⟩ := List.pairwise_append.1 h
    exact absurd rfl ((List.pairwise_cons.1 h).1 (.mark .closing) (by simp) rfl)

end Template

end PortalScript
