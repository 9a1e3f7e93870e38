import PortalScript.Fragment

/-! # Templates

A template is script text on its way to being resolved: a list of pieces, each source text or the
result of a portal or an override. `Template.fragment` flattens a template and keeps provenance and
gaps; `Template.ofFragment` reads the pieces back off a fragment. -/

namespace PortalScript

/-- Part of a template: text of the script, in which portals are found, or resolved text, in which
they are not. -/
inductive Piece
  | source (text : List Char)
  | resolved (text : List Char)
deriving Repr, DecidableEq

namespace Piece

def chars : Piece → List Char
  | source text => text
  | resolved text => text

/-- How many characters of the script a piece holds. -/
def sourceLength : Piece → Nat
  | source text => text.length
  | resolved _ => 0

/-- The piece as a fragment; a resolved piece without text is a gap. -/
def fragment : Piece → Fragment
  | source text => .ofText text false
  | resolved text => .ofText text true

/-- Puts a glyph before pieces, into the first of them if that has the glyph's provenance. -/
def attach (g : Glyph) : List Piece → List Piece
  | source text :: rest =>
    if g.resolved then resolved [g.char] :: source text :: rest else source (g.char :: text) :: rest
  | resolved text :: rest =>
    if g.resolved then resolved (g.char :: text) :: rest else source [g.char] :: resolved text :: rest
  | [] => if g.resolved then [resolved [g.char]] else [source [g.char]]

end Piece

abbrev Template := List Piece

namespace Template

/-- The template of a script of which nothing has been resolved. -/
def ofScript (script : String) : Template := [.source script.toList]

def render (t : Template) : String := .ofList (t.flatMap Piece.chars)

/-- How many characters of the script the template still holds. -/
def sourceLength : Template → Nat
  | [] => 0
  | p :: ps => p.sourceLength + sourceLength ps

/-- The template flattened, with provenance and gaps. -/
def fragment : Template → Fragment
  | [] => ∅
  | p :: ps => p.fragment ++ fragment ps

/-- The pieces of a run of glyphs before its end. A gap next to resolved text adds no piece. -/
def ofGlyphs (gapAtEnd : Bool) : List Glyph → Template
  | [] => if gapAtEnd then [.resolved []] else []
  | g :: gs =>
    let pieces := Piece.attach g (ofGlyphs gapAtEnd gs)
    if g.afterGap && !g.resolved then .resolved [] :: pieces else pieces

/-- The template of a fragment: runs of one provenance are pieces, and so are gaps between source
text. -/
def ofFragment (f : Fragment) : Template := ofGlyphs f.gapAtEnd f.glyphs

@[simp] theorem sourceLength_nil : sourceLength [] = 0 := rfl

@[simp] theorem sourceLength_cons (p : Piece) (t : Template) :
    sourceLength (p :: t) = p.sourceLength + sourceLength t := rfl

end Template

end PortalScript
