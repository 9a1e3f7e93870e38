import PortalScript.Proofs.Template.Tokens

/-! # Matching the markers of a template

`matching` reads tokens once, from left to right, with a stack: an opening marker pushes, a closing
one pops the latest opening marker that is still open, and the two become a `Nest.portal` around
what was read between them. A closing marker on an empty stack and an opening one that is never
closed are stray. Nothing is lost on the way (`tokensAll_matching`).

`executeAll` runs the portals of matched text in the order of their closing markers, each with the
results of the portals inside it put in their place. `sweep` is the same in one pass, executing
where a closing marker is read (`executeAll_matching`), and the form in which the scanner's first
innermost portal is seen to be the one that is executed first (`sweep_portal`). -/

namespace PortalScript

/-- Template text after matching: a piece, a marker that is part of no portal, or a portal with what
stands between its markers. -/
inductive Nest
  | piece (p : Piece)
  | stray (m : Marker)
  | portal (body : List Nest)

namespace Nest

mutual

/-- The tokens that were matched. -/
def tokens : Nest → List Token
  | piece p => [.piece p]
  | stray m => [.mark m]
  | portal body => .mark .opening :: (tokensAll body ++ [.mark .closing])

/-- The tokens that were matched. -/
def tokensAll : List Nest → List Token
  | [] => []
  | n :: ns => tokens n ++ tokensAll ns

end

/-- The end of the tokens: every level still open becomes text of the level around it. -/
def unwind : List (List Nest) → List Nest → List Nest
  | [], level => level
  | outer :: stack, level => unwind stack (outer ++ .stray .opening :: level)

/-- Matches markers in one pass. The stack holds what was read on each level around the current one
before it was opened, the innermost level first. -/
def matching : List Token → List (List Nest) → List Nest → List Nest
  | [], stack, level => unwind stack level
  | .piece p :: ts, stack, level => matching ts stack (level ++ [piece p])
  | .mark .opening :: ts, stack, level => matching ts (level :: stack) []
  | .mark .closing :: ts, [], level => matching ts [] (level ++ [stray .closing])
  | .mark .closing :: ts, outer :: stack, level => matching ts stack (outer ++ [portal level])

def stackTokens : List (List Nest) → List Token
  | [] => []
  | level :: stack => stackTokens stack ++ tokensAll level ++ [.mark .opening]

theorem tokensAll_append (a b : List Nest) : tokensAll (a ++ b) = tokensAll a ++ tokensAll b := by
  induction a with
  | nil => simp [tokensAll]
  | cons n a ih => simp [tokensAll, ih]

theorem tokensAll_unwind (stack : List (List Nest)) (level : List Nest) :
    tokensAll (unwind stack level) = stackTokens stack ++ tokensAll level := by
  induction stack generalizing level with
  | nil => rfl
  | cons outer stack ih => simp [unwind, ih, tokensAll_append, tokensAll, tokens, stackTokens]

theorem tokensAll_matching (ts : List Token) (stack : List (List Nest)) (level : List Nest) :
    tokensAll (matching ts stack level) = stackTokens stack ++ tokensAll level ++ ts := by
  fun_induction matching ts stack level with
  | case1 stack level => simp [tokensAll_unwind]
  | case2 p ts stack level ih => simp [ih, tokensAll_append, tokensAll, tokens]
  | case3 ts stack level ih => simp [ih, tokensAll, stackTokens]
  | case4 ts level ih => simp [ih, tokensAll_append, tokensAll, tokens, stackTokens]
  | case5 ts outer stack level ih => simp [ih, tokensAll_append, tokensAll, tokens, stackTokens]

section
variable {M : Type → Type} [Monad M] (run : Template → M (List Char))

mutual

/-- The piece that takes the place of matched text: a portal is run on what its body has become, and
its result is resolved text. -/
def execute : Nest → M Piece
  | piece p => pure p
  | stray m => pure (.source m.spelling)
  | portal body => do return .resolved (← run (← executeAll body))

/-- The pieces that take the place of matched text, from left to right. -/
def executeAll : List Nest → M Template
  | [] => pure []
  | n :: ns => do return (← execute n) :: (← executeAll ns)

end

/-- The end of the tokens in `sweep`. -/
def unwindPieces : List Template → Template → Template
  | [], level => level
  | outer :: stack, level =>
    unwindPieces stack (outer ++ .source Marker.opening.spelling :: level)

/-- Matches markers in one pass and runs each portal where its closing marker is read. -/
def sweep : List Token → List Template → Template → M Template
  | [], stack, level => pure (unwindPieces stack level)
  | .piece p :: ts, stack, level => sweep ts stack (level ++ [p])
  | .mark .opening :: ts, stack, level => sweep ts (level :: stack) []
  | .mark .closing :: ts, [], level => sweep ts [] (level ++ [.source Marker.closing.spelling])
  | .mark .closing :: ts, outer :: stack, level => do
    let text ← run level
    sweep ts stack (outer ++ [.resolved text])

/-- Runs the portals of all levels of a stack, the outermost level first. -/
def executeStack : List (List Nest) → M (List Template)
  | [] => pure []
  | level :: stack => do
    let stack ← executeStack stack
    return (← executeAll run level) :: stack

variable [LawfulMonad M]

theorem executeAll_append (a b : List Nest) :
    executeAll run (a ++ b) = do return (← executeAll run a) ++ (← executeAll run b) := by
  induction a with
  | nil => simp [executeAll]
  | cons n a ih => simp [executeAll, ih]

theorem executeAll_unwind (stack : List (List Nest)) (level : List Nest) :
    executeAll run (unwind stack level) = do
      let stack ← executeStack run stack
      return unwindPieces stack (← executeAll run level) := by
  induction stack generalizing level with
  | nil => simp [unwind, executeStack, unwindPieces]
  | cons outer stack ih =>
    simp [unwind, ih, executeAll_append, executeAll, execute, executeStack, unwindPieces]

/-- Running matched portals afterwards or where their closing markers are read is the same. -/
theorem executeAll_matching (ts : List Token) (stack : List (List Nest)) (level : List Nest) :
    executeAll run (matching ts stack level) =
      executeStack run stack >>= fun stack => executeAll run level >>= sweep run ts stack := by
  fun_induction matching ts stack level with
  | case1 stack level => simp [executeAll_unwind, sweep]
  | case2 p ts stack level ih => simp [ih, executeAll_append, executeAll, execute, sweep]
  | case3 ts stack level ih => simp [ih, executeAll, executeStack, sweep]
  | case4 ts level ih =>
    simp [ih, executeAll_append, executeAll, execute, executeStack, sweep]
  | case5 ts outer stack level ih =>
    simp [ih, executeAll_append, executeAll, execute, executeStack, sweep]

end

section
variable {M : Type → Type} [Monad M] (run : Template → M (List Char))

theorem sweep_asTokens (t : Template) (ts : List Token) (stack : List Template) (level : Template) :
    sweep run (t.asTokens ++ ts) stack level = sweep run ts stack (level ++ t) := by
  induction t generalizing level with
  | nil => simp
  | cons p t ih => simp [sweep, ih]

/-- Where no closing marker stands behind an opening one, the first portal that is run is the one
that follows. -/
theorem sweep_portal {ahead : List Token} (hq : Template.Quiet ahead) (body : Template)
    (ts : List Token) (stack : List Template) (level : Template)
    (hs : stack ≠ [] → .mark .closing ∉ ahead) :
    sweep run (ahead ++ .mark .opening :: (body.asTokens ++ .mark .closing :: ts)) stack level =
      run body >>= fun text => sweep run (ahead ++ .piece (.resolved text) :: ts) stack level := by
  induction ahead generalizing stack level with
  | nil => simp [sweep, sweep_asTokens]
  | cons a ahead ih =>
    obtain ⟨ha, ht⟩ := List.pairwise_cons.1 hq
    have hs' : stack ≠ [] → .mark .closing ∉ ahead := fun h hm => hs h (List.mem_cons_of_mem _ hm)
    match a with
    | .piece p => simpa [sweep] using ih ht stack _ hs'
    | .mark .opening =>
      simpa [sweep] using ih ht (level :: stack) [] fun _ hm => ha _ hm rfl rfl
    | .mark .closing =>
      cases stack with
      | nil => simpa [sweep] using ih ht [] _ hs'
      | cons outer stack => exact absurd (List.mem_cons_self ..) (hs (List.cons_ne_nil _ _))

def stackChars : List Template → List Char
  | [] => []
  | level :: stack => stackChars stack ++ level.flatMap Piece.chars ++ Marker.opening.spelling

theorem flatMap_chars_unwindPieces (stack : List Template) (level : Template) :
    (unwindPieces stack level).flatMap Piece.chars =
      stackChars stack ++ level.flatMap Piece.chars := by
  induction stack generalizing level with
  | nil => rfl
  | cons outer stack ih => simp [unwindPieces, ih, stackChars, Piece.chars]

theorem sweep_quiet {ts : List Token} (hq : Template.Quiet ts) (stack : List Template)
    (level : Template) (hs : stack ≠ [] → .mark .closing ∉ ts) :
    ∃ t, sweep run ts stack level = pure t ∧ t.flatMap Piece.chars =
      stackChars stack ++ level.flatMap Piece.chars ++ ts.flatMap Token.chars := by
  induction ts generalizing stack level with
  | nil => exact ⟨_, rfl, by simp [flatMap_chars_unwindPieces]⟩
  | cons a ts ih =>
    obtain ⟨ha, ht⟩ := List.pairwise_cons.1 hq
    have hs' : stack ≠ [] → .mark .closing ∉ ts := fun h hm => hs h (List.mem_cons_of_mem _ hm)
    match a with
    | .piece p =>
      obtain ⟨t, he, hc⟩ := ih ht stack (level ++ [p]) hs'
      exact ⟨t, he, by simpa [Token.chars] using hc⟩
    | .mark .opening =>
      obtain ⟨t, he, hc⟩ := ih ht (level :: stack) [] fun _ hm => ha _ hm rfl rfl
      exact ⟨t, he, by simpa [stackChars, Token.chars] using hc⟩
    | .mark .closing =>
      cases stack with
      | nil =>
        obtain ⟨t, he, hc⟩ := ih ht [] (level ++ [.source Marker.closing.spelling]) hs'
        exact ⟨t, he, by simpa [Token.chars, Piece.chars] using hc⟩
      | cons outer stack => exact absurd (List.mem_cons_self ..) (hs (List.cons_ne_nil _ _))

end

end Nest

end PortalScript
