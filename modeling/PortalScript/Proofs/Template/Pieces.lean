import PortalScript.Proofs.Template.Matching

/-! # Matching does not look into pieces

`Token.bind` and `Nest.bindAll` put other pieces in the place of each piece, without markers of their
own, and leave markers and portals where they are. It is the same to do so before the markers are matched
or afterwards (`matching_bind`): what stands between the markers has no say in how they are matched. -/

namespace PortalScript
variable (f g : Piece → Template)

/-- The marker that a token is, if it is one. -/
def Token.mark? : Token → Option Marker
  | piece _ => none
  | mark m => some m

/-- The markers of a template in order. -/
def Template.markers (t : Template) : List Marker := t.tokens.filterMap Token.mark?

/-- The pieces that take the place of a piece; a marker stays. -/
def Token.bind : Token → List Token
  | piece p => (f p).asTokens
  | mark m => [mark m]

theorem filterMap_mark?_bind (ts : List Token) :
    (ts.flatMap (Token.bind f)).filterMap Token.mark? = ts.filterMap Token.mark? := by
  induction ts with
  | nil => rfl
  | cons a ts ih =>
    rw [List.flatMap_cons, List.filterMap_append, ih]
    cases a with
    | mark m => rfl
    | piece p =>
      have hp : (Token.bind f (.piece p)).filterMap Token.mark? = [] := by
        simp [Token.bind, Template.asTokens, Token.mark?, List.filterMap_map, Function.comp_def]
      rw [hp]
      rfl

namespace Nest

mutual

/-- Matched text with other pieces in the place of each piece. -/
def bind : Nest → List Nest
  | piece p => (f p).map piece
  | stray m => [stray m]
  | portal body => [portal (bindAll body)]

/-- Matched text with other pieces in the place of each piece. -/
def bindAll : List Nest → List Nest
  | [] => []
  | n :: ns => bind n ++ bindAll ns

end

theorem bindAll_append (a b : List Nest) : bindAll f (a ++ b) = bindAll f a ++ bindAll f b := by
  induction a with
  | nil => simp [bindAll]
  | cons n a ih => simp [bindAll, ih]

theorem bindAll_pieces (t : Template) : bindAll f (t.map piece) = (t.flatMap f).map piece := by
  induction t with
  | nil => simp [bindAll]
  | cons p t ih => simp [bindAll, bind, ih]

mutual

theorem bindAll_bind (n : Nest) : bindAll g (bind f n) = bind (fun p => (f p).flatMap g) n := by
  cases n with
  | piece p => rw [bind, bindAll_pieces, bind]
  | stray m => simp [bind, bindAll]
  | portal body => simp [bind, bindAll, bindAll_bindAll body]

theorem bindAll_bindAll (ns : List Nest) :
    bindAll g (bindAll f ns) = bindAll (fun p => (f p).flatMap g) ns := by
  cases ns with
  | nil => simp [bindAll]
  | cons n ns => rw [bindAll, bindAll_append, bindAll_bind n, bindAll_bindAll ns, bindAll]

end

theorem matching_asTokens (t : Template) (ts : List Token) (stack : List (List Nest))
    (level : List Nest) :
    matching (t.asTokens ++ ts) stack level = matching ts stack (level ++ t.map piece) := by
  induction t generalizing level with
  | nil => simp
  | cons p t ih => simp [matching, ih]

theorem unwind_bind (stack : List (List Nest)) (level : List Nest) :
    unwind (stack.map (bindAll f)) (bindAll f level) = bindAll f (unwind stack level) := by
  induction stack generalizing level with
  | nil => rfl
  | cons outer stack ih =>
    rw [List.map_cons, unwind, unwind, ← ih, bindAll_append, bindAll, bind]
    rfl

theorem matching_bind (ts : List Token) (stack : List (List Nest)) (level : List Nest) :
    matching (ts.flatMap (Token.bind f)) (stack.map (bindAll f)) (bindAll f level) =
      bindAll f (matching ts stack level) := by
  fun_induction matching ts stack level with
  | case1 stack level =>
    rw [List.flatMap_nil, matching]
    exact unwind_bind f stack level
  | case2 p ts stack level ih =>
    rw [List.flatMap_cons, Token.bind, matching_asTokens, ← ih, bindAll_append]
    simp [bindAll, bind]
  | case3 ts stack level ih =>
    rw [List.flatMap_cons, Token.bind, ← ih]
    simp [matching, bindAll]
  | case4 ts level ih =>
    rw [List.flatMap_cons, Token.bind, ← ih, bindAll_append]
    simp [matching, bindAll, bind]
  | case5 ts outer stack level ih =>
    rw [List.flatMap_cons, Token.bind, ← ih, bindAll_append]
    simp [matching, bindAll, bind]

end Nest

end PortalScript
