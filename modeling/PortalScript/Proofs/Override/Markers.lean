import PortalScript.Proofs.Override.Order
import PortalScript.Proofs.Resolution.Loop
import PortalScript.Proofs.Template.Pieces
import PortalScript.Proofs.Template.Stretch

/-! # Overrides leave the markers alone

Markers have no token character, so no marker is in a run and each run stands between two markers
(`replaceRuns_weld`). Where runs are replaced, the scanner finds the markers it found before, with the
replaced text between them (`tokens_replaceTokens`); what has been put in is not scanned. So the portals
of a script with overrides are those of the script, whatever the overrides say (`matching_apply`). -/

namespace PortalScript

namespace Marker
variable {m : Marker} {l r x : List Char}

theorem not_isTokenChar (m : Marker) : ∀ c ∈ m.spelling, ¬ Template.isTokenChar c := by
  have h : m.spelling.all fun c => !Template.isTokenChar c := by cases m <;> decide +kernel
  intro c hc
  simpa using List.all_eq_true.1 h c hc

/-- A first marker is the first one of every text that starts later. -/
theorem cut?_of_append (h : cut? (x ++ l ++ m.spelling ++ r) = some (x ++ l, m, r)) :
    cut? (l ++ m.spelling ++ r) = some (l, m, r) := by
  induction x with
  | nil => exact h
  | cons c x ih =>
    simp only [List.cons_append, cut?] at h
    split at h
    · cases h
    · obtain ⟨⟨b, m', r'⟩, hb, he⟩ := Option.map_eq_some_iff.1 h
      simp only [Prod.mk.injEq, List.cons.injEq, true_and] at he
      obtain ⟨rfl, rfl, rfl⟩ := he
      exact ih hb

end Marker

namespace Template
variable {value : List Char → Option (List Char)} {t : Template} {text w : List Char} {m : Marker}

/-- The piece with its runs replaced. -/
def replacePiece (value : List Char → Option (List Char)) (p : Piece) : Template :=
  replaceTokens value [p]

theorem replacePiece_source (text : List Char) :
    replacePiece value (.source text) = replaceRuns value text := List.append_nil _

/-- The template ends with source text that the text ends with, with all of it if there is no other
piece. -/
def EndsWith (text : List Char) (t : Template) : Prop :=
  ∃ init x last, t = init ++ [.source last] ∧ text = x ++ last ∧ (init = [] → x = [])

theorem EndsWith.prepend (h : EndsWith text t) (w : List Char) :
    EndsWith (w ++ text) (prepend w t) := by
  obtain ⟨init, x, last, rfl, rfl, hx⟩ := h
  cases init with
  | nil =>
    rw [hx rfl]
    exact ⟨[], [], w ++ last, rfl, rfl, fun _ => rfl⟩
  | cons p init =>
    refine ⟨Template.prepend w (p :: init), w ++ x, last, ?_, by simp, fun h => ?_⟩
    · exact prepend_append w (by simp) [.source last]
    · cases p <;> simp [Template.prepend] at h

theorem endsWith_replaceRuns (value : List Char → Option (List Char)) (text : List Char) :
    EndsWith text (replaceRuns value text) := by
  induction text using runs_induction with
  | nil => exact ⟨[], [], [], by simp, rfl, fun _ => rfl⟩
  | other c cs hc ih =>
    rw [replaceRuns_cons value hc]
    exact ih.prepend [c]
  | run w cs hne hw hb ih =>
    rw [replaceRuns_run value hne hw hb]
    cases value w with
    | none => exact ih.prepend w
    | some text =>
      obtain ⟨init, x, last, h, rfl, -⟩ := ih
      exact ⟨.source [] :: .resolved text :: init, w ++ x, last, by simp [h], by simp, by simp⟩

theorem infix_of_mem_replaceRuns {s : List Char} (h : .source s ∈ replaceRuns value text) :
    s <:+: text := by
  induction text using runs_induction with
  | nil => simp_all
  | other c cs hc ih =>
    obtain ⟨first, rest, he, hf⟩ := replaceRuns_eq_cons value cs
    rw [replaceRuns_cons value hc, he, prepend] at h
    rw [he] at ih
    rcases List.mem_cons.1 h with hs | h
    · cases hs
      exact ((List.prefix_append_right_inj [c]).2 hf).isInfix
    · exact (ih (List.mem_cons_of_mem _ h)).trans (List.suffix_cons c cs).isInfix
  | run w cs hne hw hb ih =>
    obtain ⟨first, rest, he, hf⟩ := replaceRuns_eq_cons value cs
    rw [replaceRuns_run value hne hw hb] at h
    cases hv : value w with
    | some r =>
      rw [hv] at h
      rcases List.mem_cons.1 h with hs | h
      · cases hs
        exact List.nil_infix
      · have h := (List.mem_cons.1 h).resolve_left (by simp)
        exact (ih h).trans (List.suffix_append w cs).isInfix
    | none =>
      rw [hv, he] at h
      rw [he] at ih
      rcases List.mem_cons.1 h with hs | h
      · cases hs
        exact ((List.prefix_append_right_inj w).2 hf).isInfix
      · exact (ih (List.mem_cons_of_mem _ h)).trans (List.suffix_append w cs).isInfix

theorem nextMarker_replaceRuns (h : Marker.cut? text = none) :
    nextMarker (replaceRuns value text) = none := by
  refine nextMarker_eq_none_iff.2 fun s hs => Marker.cut?_eq_none_iff.2 fun m hm => ?_
  exact Marker.cut?_eq_none_iff.1 h m (hm.trans (infix_of_mem_replaceRuns hs))

theorem replaceRuns_append (hw : ∀ c ∈ w, ¬ isTokenChar c) (text : List Char) :
    replaceRuns value (w ++ text) = prepend w (replaceRuns value text) := by
  obtain ⟨first, rest, h, -⟩ := replaceRuns_eq_cons value text
  induction w with
  | nil =>
    rw [List.nil_append, h]
    rfl
  | cons c w ih =>
    obtain ⟨hc, hw⟩ := List.forall_mem_cons.1 hw
    rw [List.cons_append, replaceRuns_cons value hc, ih hw, h]
    rfl

theorem weld_prepend (m : Marker) (w first : List Char) (s t : Template) :
    weld m (prepend w (.source first :: s)) t = prepend w (weld m (.source first :: s) t) := by
  cases s with
  | cons p s => cases p <;> rfl
  | nil =>
    cases t with
    | nil => rfl
    | cons p t => cases p <;> simp [prepend, weld]

theorem replaceRuns_weld (value : List Char → Option (List Char)) (l r : List Char) (m : Marker) :
    replaceRuns value (l ++ m.spelling ++ r) =
      weld m (replaceRuns value l) (replaceRuns value r) := by
  induction l using runs_induction with
  | nil =>
    obtain ⟨first, rest, h, -⟩ := replaceRuns_eq_cons value r
    rw [List.nil_append, replaceRuns_append m.not_isTokenChar, h, replaceRuns_nil]
    rfl
  | other c cs hc ih =>
    obtain ⟨first, rest, h, -⟩ := replaceRuns_eq_cons value cs
    rw [List.cons_append, List.cons_append, replaceRuns_cons value hc, replaceRuns_cons value hc, ih, h,
      weld_prepend]
  | run w cs hne hw hb ih =>
    obtain ⟨first, rest, h, -⟩ := replaceRuns_eq_cons value cs
    -- a run before the marker ends there
    have hb' : isBoundary (cs ++ m.spelling ++ r).head? := by
      cases cs with
      | cons c cs => exact hb
      | nil =>
        have hm : isBoundary (some '~') := by decide +kernel
        cases m <;> exact hm
    rw [List.append_assoc, List.append_assoc, ← List.append_assoc cs, replaceRuns_run value hne hw hb',
      replaceRuns_run value hne hw hb, ih, h]
    cases value w with
    | some text => rfl
    | none => exact (weld_prepend m w first rest _).symm

theorem tokens_replaceRuns (value : List Char → Option (List Char)) (text : List Char) :
    tokens (replaceRuns value text) =
      (sourceTokens text).flatMap (Token.bind (replacePiece value)) := by
  fun_induction sourceTokens text with
  | case1 text h =>
    rw [tokens_of_nextMarker_eq_none (nextMarker_replaceRuns h), List.flatMap_singleton, Token.bind,
      replacePiece_source]
  | case2 text l m r h ih =>
    have htext := Marker.eq_append_of_cut? h
    rw [htext] at h
    obtain ⟨init, x, last, hl, hx, -⟩ := endsWith_replaceRuns value l
    obtain ⟨first, rest, hr, -⟩ := replaceRuns_eq_cons value r
    have hnone : nextMarker (replaceRuns value l) = none :=
      nextMarker_replaceRuns (Marker.cut?_left_eq_none h)
    have hinit : nextMarker init = none := by
      refine nextMarker_eq_none_iff.2 fun s hs => nextMarker_eq_none_iff.1 hnone s ?_
      rw [hl]
      exact List.mem_append_left _ hs
    have hcut : Marker.cut? (last ++ m.spelling ++ first) = some (last, m, first) := by
      rw [hx] at h
      exact Marker.cut?_spelling_append (Marker.cut?_of_append h) first
    have hnext : nextMarker (replaceRuns value (l ++ m.spelling ++ r)) =
        some (replaceRuns value l, m, replaceRuns value r) := by
      rw [replaceRuns_weld, hl, hr, weld_append]
      exact nextMarker_eq_some_iff.2 ⟨init, last, first, rest, rfl, rfl, rfl, hinit, hcut⟩
    rw [htext, tokens_of_nextMarker hnext, ih, List.flatMap_cons, List.flatMap_cons, Token.bind,
      replacePiece_source]
    rfl

/-- Replacing runs changes the pieces between the markers and nothing else. -/
theorem tokens_replaceTokens (value : List Char → Option (List Char)) (t : Template) :
    (replaceTokens value t).tokens = t.tokens.flatMap (Token.bind (replacePiece value)) := by
  induction t with
  | nil => rfl
  | cons p t ih =>
    cases p with
    | source text =>
      rw [replaceTokens_source, tokens_append, tokens_replaceRuns, ih, tokens, List.flatMap_append]
    | resolved text =>
      rw [replaceTokens_resolved, tokens, tokens, ih]
      rfl

end Template

/-- The piece without the text that was put in. -/
def Piece.blank : Piece → Piece
  | source text => source text
  | resolved _ => resolved []

/-- Matched text without the texts that were put in. -/
def Nest.blankAll : List Nest → List Nest := bindAll fun p => [p.blank]

namespace Template
variable {value other : List Char → Option (List Char)}

theorem map_blank_prepend (w : List Char) (t : Template) :
    (prepend w t).map Piece.blank = prepend w (t.map Piece.blank) := by
  cases t with
  | nil => rfl
  | cons p t => cases p <;> rfl

/-- Without the texts that are put in, it matters only which runs are replaced. -/
theorem map_blank_replaceRuns (h : ∀ run, (value run).isSome = (other run).isSome)
    (text : List Char) :
    (replaceRuns value text).map Piece.blank = (replaceRuns other text).map Piece.blank := by
  induction text using runs_induction with
  | nil => simp
  | other c cs hc ih =>
    rw [replaceRuns_cons _ hc, replaceRuns_cons _ hc, map_blank_prepend, map_blank_prepend, ih]
  | run w cs hne hw hb ih =>
    have hv := h w
    rw [replaceRuns_run _ hne hw hb, replaceRuns_run _ hne hw hb]
    cases hvalue : value w with
    | none =>
      have hother : other w = none := by simpa [hvalue] using hv.symm
      rw [hother]
      dsimp only
      rw [map_blank_prepend, map_blank_prepend, ih]
    | some text =>
      obtain ⟨text', hother⟩ : ∃ text', other w = some text' := by
        rw [hvalue, Option.isSome_some] at hv
        exact Option.isSome_iff_exists.1 hv.symm
      rw [hother]
      simp [Piece.blank, ih]

theorem flatMap_blank_replacePiece (h : ∀ run, (value run).isSome = (other run).isSome) (p : Piece) :
    (replacePiece value p).flatMap (fun p => [p.blank]) =
      (replacePiece other p).flatMap fun p => [p.blank] := by
  rw [← List.map_eq_flatMap, ← List.map_eq_flatMap]
  cases p with
  | source text =>
    rw [replacePiece_source, replacePiece_source]
    exact map_blank_replaceRuns h text
  | resolved text => rfl

end Template

namespace Override
open Template
variable {overrides others : Table String}

theorem matching_replaceTokens (value : List Char → Option (List Char)) (t : Template) :
    Nest.matching (replaceTokens value t).tokens [] [] =
      Nest.bindAll (replacePiece value) (Nest.matching t.tokens [] []) := by
  rw [tokens_replaceTokens]
  have := Nest.matching_bind (replacePiece value) t.tokens [] []
  rwa [List.map_nil, Nest.bindAll] at this

/-- Overrides whose keys are made of token characters leave the markers of a script where they are, and
change no text between them but the runs that are keys. So the portals of the script with overrides are
matched as in the script, other texts for the same keys give the same portals with other texts put in,
and to resolve the script with overrides is to run the portals of the script, put in text and all. -/
theorem matching_apply (hkeys : overrides.keys.Nodup) (hothers : others.keys.Nodup)
    (hsame : ∀ key, key ∈ overrides.keys ↔ key ∈ others.keys)
    (h : ∀ key ∈ overrides.keys, ∀ c ∈ key.toList, isTokenChar c) (script : String) :
    let t := Template.ofScript script
    let replaced := replacePiece fun run => (overrides.get? (.ofList run)).map String.toList
    let matched := fun t : Template => Nest.matching t.tokens [] []
    (apply overrides t).1.tokens = t.tokens.flatMap (Token.bind replaced) ∧
      (apply overrides t).1.markers = t.markers ∧
      matched (apply overrides t).1 = Nest.bindAll replaced (matched t) ∧
      Nest.blankAll (matched (apply overrides t).1) = Nest.blankAll (matched (apply others t).1) ∧
      ∀ c, Run.resolve c (apply overrides t).1 =
        (Template.render <$> Nest.executeAll (Run.portal c) (Nest.bindAll replaced (matched t)) :
          ExceptT Halt Run String).run := by
  intro t replaced matched
  have ht : (apply overrides t).1 = t.replaceTokens (replacement overrides.entries) :=
    congrArg Prod.fst (applyAll_eq_of_perm hkeys h (ordered_perm h) t)
  have ht' : (apply others t).1 = t.replaceTokens (replacement others.entries) := by
    have h' : ∀ key ∈ others.keys, ∀ c ∈ key.toList, isTokenChar c := fun key hk =>
      h key ((hsame key).2 hk)
    exact congrArg Prod.fst (applyAll_eq_of_perm hothers h' (ordered_perm h') t)
  have htokens : (apply overrides t).1.tokens = t.tokens.flatMap (Token.bind replaced) := by
    rw [ht, tokens_replaceTokens]
    rfl
  have hmatched : matched (apply overrides t).1 = Nest.bindAll replaced (matched t) := by
    show Nest.matching _ [] [] = _
    rw [ht, matching_replaceTokens]
    rfl
  refine ⟨htokens, ?_, hmatched, ?_, fun c => ?_⟩
  · rw [Template.markers, htokens, filterMap_mark?_bind, Template.markers]
  · have hvalue (run : List Char) : (replacement overrides.entries run).isSome =
        (replacement others.entries run).isSome := by
      rw [replacement, replacement, Option.isSome_map, Option.isSome_map, Bool.eq_iff_iff,
        Table.isSome_lookup_iff, Table.isSome_lookup_iff]
      exact hsame _
    show Nest.blankAll (Nest.matching _ [] []) = Nest.blankAll (Nest.matching _ [] [])
    rw [ht, ht', matching_replaceTokens, matching_replaceTokens, Nest.blankAll, Nest.bindAll_bindAll,
      Nest.bindAll_bindAll]
    simp only [flatMap_blank_replacePiece hvalue]
  · have hs : Separated (apply overrides t).1 := (separated_ofScript script).applyAll (ordered overrides)
    rw [← hmatched, Nest.executeAll_matching, Run.resolve,
      Run.resolveWith_eq_sweep hs (count_opening_le _)]
    simp [Nest.executeStack, Nest.executeAll]

/-- A portal put in for a link is text between the markers that were there. -/
theorem matching_portal_text :
    let script : String :=
      .ofList (Marker.opening.spelling ++ "'t'[v: $a]".toList ++ Marker.closing.spelling)
    let portal := Marker.opening.spelling ++ "'x'".toList ++ Marker.closing.spelling
    let overrides : Table String := ⟨[("$a", .ofList portal)]⟩
    let others : Table String := ⟨[("$a", "]")]⟩
    overrides.keys.Nodup ∧ others.keys.Nodup ∧
      (∀ key, key ∈ overrides.keys ↔ key ∈ others.keys) ∧
      (∀ key ∈ overrides.keys, ∀ c ∈ key.toList, isTokenChar c) ∧
      (apply overrides (.ofScript script)).1.tokens = [.piece (.source []), .mark .opening,
        .piece (.source "'t'[v: ".toList), .piece (.resolved portal), .piece (.source [']']),
        .mark .closing, .piece (.source [])] ∧
      Nest.blankAll (Nest.matching (apply overrides (.ofScript script)).1.tokens [] []) =
        Nest.blankAll (Nest.matching (apply others (.ofScript script)).1.tokens [] []) := by
  intro script portal overrides others
  have hkeys : overrides.keys.Nodup := by decide
  have hothers : others.keys.Nodup := by decide
  have hsame : ∀ key, key ∈ overrides.keys ↔ key ∈ others.keys := fun key => Iff.rfl
  have hchars : ∀ key ∈ overrides.keys, ∀ c ∈ key.toList, isTokenChar c := by
    have hall : overrides.keys.all (·.toList.all isTokenChar) := by decide +kernel
    simpa only [List.all_eq_true] using hall
  obtain ⟨htokens, -, -, hblank, -⟩ := matching_apply hkeys hothers hsame hchars script
  refine ⟨hkeys, hothers, hsame, hchars, ?_, hblank⟩
  rw [htokens]
  decide +kernel

end Override

end PortalScript
