import PortalScript.Proofs.Resolution.Nested
import PortalScript.Proofs.Template.Matching

/-! # The replacement loop is bracket matching

`resolve` looks for the leftmost innermost portal, replaces it by its result and starts afresh.
`resolve_eq_matching` says that this is one reading of the template with a stack: the markers are
matched once, in the template as it was at the start, and each portal is run where its closing marker
is read. What a portal yields has no part in the matching.

`Loops` is the loop without a bound on its rounds. It ends (`loops_resolve`): each round uses up an
opening marker (`count_opening_splice`). -/

namespace PortalScript

namespace Template
variable {t : Template} {span : Span}

theorem count_opening_sourceTokens (text : List Char) :
    (sourceTokens text).count (.mark .opening) ≤ text.length := by
  fun_induction sourceTokens text with
  | case1 text h => simp
  | case2 text l m r h ih =>
    rw [Marker.eq_append_of_cut? h]
    cases m <;> simp <;> omega

theorem count_opening_le (t : Template) : t.tokens.count (.mark .opening) ≤ t.sourceLength := by
  induction t with
  | nil => simp [tokens]
  | cons p t ih =>
    cases p with
    | resolved text => simpa [tokens, Piece.sourceLength] using ih
    | source text =>
      have := count_opening_sourceTokens text
      simp [tokens, Piece.sourceLength]; omega

theorem tokens_splice (span : Span) (text : String) : (span.splice text).tokens =
    span.before.tokens ++ .piece (.resolved text.toList) :: span.after.tokens := by
  rw [Span.splice, tokens_append, tokens]

theorem count_opening_splice (h : t.innermost = some span) (text : String) :
    t.tokens.count (.mark .opening) = (span.splice text).tokens.count (.mark .opening) + 1 := by
  rw [(innermost_of_innermost_eq_some h).tokens_eq, tokens_splice]
  have hb : span.body.asTokens.count (.mark .opening) = 0 :=
    List.count_eq_zero.2 (not_mem_asTokens _ _)
  simp [hb]; omega

end Template

namespace Run
variable {c : Context} {t : Template} {s s' : State}

/-- Runs a portal for the characters that take its place. A hard failure ends the run. -/
def portal (c : Context) (body : Template) : ExceptT Halt Run (List Char) :=
  ExceptT.mk (Except.map String.toList <$> runPortal c (resolve c) ⟨[], body, []⟩)

/-- The replacement loop, however many rounds it takes: the result and the state it ends in. -/
inductive Loops (c : Context) : Template → State → Except Halt String × State → Prop
  | done {t : Template} {s : State} (hn : t.innermost = none) : Loops c t s (.ok t.render, s)
  | halt {t : Template} {s s' : State} {span : Span} {e : Halt} (hn : t.innermost = some span)
      (hr : (runPortal c (resolve c) span).run s = (.error e, s')) : Loops c t s (.error e, s')
  | round {t : Template} {s s' : State} {span : Span} {text : String} {out : Except Halt String × State}
      (hn : t.innermost = some span) (hr : (runPortal c (resolve c) span).run s = (.ok text, s'))
      (hl : Loops c (span.splice text) s' out) : Loops c t s out

theorem runPortal_resolve (hs : Template.Separated t) {span : Span} (hn : t.innermost = some span) :
    runPortal c (resolve c) span = runPortal c literal span :=
  runPortal_eq_literal c (fun t => resolveWith_of_innermost_eq_none c t.sourceLength)
    (hs.innermost hn).2.1 (Template.innermost_of_innermost_eq_some hn).body

/-- In the loop it does not matter with which fuel nested templates are resolved. -/
theorem runPortal_eq_resolve (hs : Template.Separated t) {span : Span}
    (hn : t.innermost = some span) (fuel : Nat) :
    runPortal c (resolveWith c fuel) span = runPortal c (resolve c) span := by
  rw [runPortal_resolve hs hn]
  exact runPortal_eq_literal c (fun t => resolveWith_of_innermost_eq_none c fuel)
    (hs.innermost hn).2.1 (Template.innermost_of_innermost_eq_some hn).body

theorem resolveWith_succ (hs : Template.Separated t) {span : Span} (hn : t.innermost = some span)
    (fuel : Nat) : resolveWith c (fuel + 1) t = (do
      match ← runPortal c (resolve c) span with
      | .ok text => resolveWith c fuel (span.splice text)
      | .error e => return .error e) := by
  rw [resolveWith, hn]
  exact congrArg (· >>= _) (runPortal_eq_resolve hs hn fuel)

theorem innermost_eq_none_of_count (h : t.tokens.count (.mark .opening) ≤ 0) :
    t.innermost = none := by
  cases hn : t.innermost with
  | none => rfl
  | some span =>
    have := Template.count_opening_splice hn ""
    omega

/-- With fuel for every opening marker, the loop reads the tokens once. -/
theorem resolveWith_eq_sweep {fuel : Nat} (hs : Template.Separated t)
    (hf : t.tokens.count (.mark .opening) ≤ fuel) :
    resolveWith c fuel t =
      (Template.render <$> Nest.sweep (portal c) t.tokens [] [] : ExceptT Halt Run String).run := by
  have done {fuel : Nat} {t : Template} (hn : t.innermost = none) : resolveWith c fuel t =
      (Template.render <$> Nest.sweep (portal c) t.tokens [] [] : ExceptT Halt Run String).run := by
    obtain ⟨t', he, hc⟩ := Nest.sweep_quiet (portal c)
      (Template.quiet_of_innermost_eq_none hn).1 [] [] (fun h => absurd rfl h)
    rw [resolveWith_of_innermost_eq_none c fuel hn, he, literal]
    simp only [Nest.stackChars, List.flatMap_nil, List.nil_append,
      Template.flatMap_chars_tokens] at hc
    simp [Template.render, hc]
  induction fuel generalizing t with
  | zero => exact done (innermost_eq_none_of_count hf)
  | succ fuel ih =>
    cases hn : t.innermost with
    | none => exact done hn
    | some span =>
      have hi := Template.innermost_of_innermost_eq_some hn
      have hround (text : String) := ih (hs.splice hn text) (by
        have := Template.count_opening_splice hn text
        omega)
      rw [resolveWith_succ hs hn, hi.tokens_eq,
        Nest.sweep_portal (portal c) hi.quiet span.body span.after.tokens [] [] (fun h => absurd rfl h)]
      simp only [hround, Template.tokens_splice, map_bind, ExceptT.run_bind]
      rw [portal, ExceptT.run_mk, bind_map_left]
      refine bind_congr fun result => ?_
      cases result <;> rfl

theorem loops_resolveWith {fuel : Nat} (hs : Template.Separated t)
    (hf : t.tokens.count (.mark .opening) ≤ fuel) (s : State) :
    Loops c t s ((resolveWith c fuel t).run s) := by
  have done {fuel : Nat} {t : Template} {s : State} (hn : t.innermost = none) :
      Loops c t s ((resolveWith c fuel t).run s) := by
    rw [resolveWith_of_innermost_eq_none c fuel hn]
    exact .done hn
  induction fuel generalizing t s with
  | zero => exact done (innermost_eq_none_of_count hf)
  | succ fuel ih =>
    cases hn : t.innermost with
    | none => exact done hn
    | some span =>
      rw [resolveWith_succ hs hn]
      cases hr : (runPortal c (resolve c) span).run s with
      | mk result s' =>
        cases result with
        | error e =>
          simp only [StateT.run_bind, hr]
          exact .halt hn hr
        | ok text =>
          simp only [StateT.run_bind, hr]
          refine .round hn hr (ih (hs.splice hn text) ?_ s')
          have := Template.count_opening_splice hn text
          omega

theorem loops_resolve (hs : Template.Separated t) (s : State) : Loops c t s ((resolve c t).run s) :=
  loops_resolveWith hs (Template.count_opening_le t) s

theorem Loops.unique {out out' : Except Halt String × State} (h : Loops c t s out)
    (h' : Loops c t s out') : out = out' := by
  induction h with
  | done hn =>
    cases h' with
    | done => rfl
    | halt hn' | round hn' => simp [hn] at hn'
  | halt hn hr =>
    cases h' with
    | done hn' => simp [hn] at hn'
    | halt hn' hr' =>
      cases hn.symm.trans hn'
      cases hr.symm.trans hr'
      rfl
    | round hn' hr' =>
      cases hn.symm.trans hn'
      cases hr.symm.trans hr'
  | round hn hr hl ih =>
    cases h' with
    | done hn' => simp [hn] at hn'
    | halt hn' hr' =>
      cases hn.symm.trans hn'
      cases hr.symm.trans hr'
    | round hn' hr' hl' =>
      cases hn.symm.trans hn'
      cases hr.symm.trans hr'
      exact ih hl'

/-- Take a script after any substitutions, and match the markers of its source pieces with a stack.
Resolving it ends, and it runs the matched portals and no others: each once, where its closing marker
is read, on the text between its markers with the results of the portals inside in their place. What
results is the template with its outermost portals replaced. -/
theorem resolve_eq_matching (c : Context) (script : String) (substitutions : List (String × String)) :
    let t := (Override.applyAll substitutions (.ofScript script)).1
    let matched := Nest.matching t.tokens [] []
    Nest.tokensAll matched = t.tokens ∧ t.tokens.flatMap Token.chars = t.render.toList ∧
      resolve c t = (Template.render <$> Nest.executeAll (portal c) matched :
        ExceptT Halt Run String).run ∧
      Nest.executeAll (portal c) matched = Nest.sweep (portal c) t.tokens [] [] ∧
      ∀ s, Loops c t s ((resolve c t).run s) := by
  intro t matched
  have hs : Template.Separated t := (Template.separated_ofScript script).applyAll substitutions
  have hm : Nest.executeAll (portal c) matched = Nest.sweep (portal c) t.tokens [] [] := by
    rw [Nest.executeAll_matching]
    simp [Nest.executeStack, Nest.executeAll]
  refine ⟨?_, ?_, ?_, hm, loops_resolve hs⟩
  · rw [Nest.tokensAll_matching]
    rfl
  · rw [Template.flatMap_chars_tokens, Template.render, String.toList_ofList]
  · rw [hm, resolve, resolveWith_eq_sweep hs (Template.count_opening_le t)]

end Run

end PortalScript
