import PortalScript.Link
import PortalScript.Params

/-! # Portals

The body of a portal is `'id'[params]`, which expands the template of that id, or
`@[alias:]AUTHOR-N:action[params]`, which acts on a turn. The parameter list may be absent. -/

namespace PortalScript

/-- What an action portal asks for. Any name can be read; only five can be performed. -/
inductive Action
  | delete
  | rerun
  | branch
  | edit
  | copy
  | unknown (name : String)
deriving Repr, DecidableEq

namespace Action

def ofName (name : String) : Action :=
  if name = "delete" then delete
  else if name = "rerun" then rerun
  else if name = "branch" then branch
  else if name = "edit" then edit
  else if name = "copy" then copy
  else unknown name

def name : Action → String
  | delete => "delete"
  | rerun => "rerun"
  | branch => "branch"
  | edit => "edit"
  | copy => "copy"
  | unknown name => name

def isKnown : Action → Bool
  | unknown _ => false
  | _ => true

end Action

structure DataPortal where
  id : String
  params : Params
deriving Repr, DecidableEq

structure ActionPortal where
  conduit : Option String
  target : TurnRef
  action : Action
  params : Params
deriving Repr, DecidableEq

namespace ActionPortal

/-- The link that reads the turn on which the portal acts. -/
def link (p : ActionPortal) : TurnLink := ⟨p.conduit, p.target, false⟩

/-- The turn as written, with its alias if it has one. -/
def targetLabel (p : ActionPortal) : String := p.link.label

end ActionPortal

inductive Portal
  | data (portal : DataPortal)
  | action (portal : ActionPortal)
deriving Repr, DecidableEq

namespace Portal

/-- Whether a glyph belongs to the head of an action portal, which ends at a written bracket or
blank. -/
def isHeadGlyph (g : Glyph) : Bool := g.resolved || (g.char ≠ '[' && !Text.isBlank g.char)

/-- Reads `[alias:]AUTHOR-N:action`. The last segment is always the action. -/
def readHead (head : List Char) : Except ParseError.Cause (Option String × TurnRef × Action) := do
  let (conduit, target, name) ← match Text.splitOn ':' head with
    | [target, name] => .ok (none, target, name)
    | [conduit, target, name] => .ok (some conduit, target, name)
    | _ => .error .badActionHead
  if name.isEmpty then .error .missingAction
  else if conduit = some [] then .error .emptyAlias
  else
    let target ← TurnRef.parse target
    return (conduit.map .ofList, target, .ofName (.ofList name))

def scanParams (f : Fragment) : Except ParseError (Params × Fragment) :=
  if f.skipBlank.startsAt '[' then
    match Params.scan f.skipBlank with
    | (.ok params, rest) => .ok (params, rest)
    | (.error e, _) => .error e
  else .ok (∅, f.skipBlank)

/-- Reads what follows the quote that opens a template id. `whole` is shown in refusals. -/
def parseData (whole : String) (f : Fragment) : Except ParseError Portal := do
  let id := f.takeUntil '\''
  match (f.dropUntil '\'').eat? '\'' with
  | none => .error ⟨.unterminatedId, whole⟩
  | some rest =>
    if Text.allBlank id.chars then .error ⟨.emptyId, whole⟩
    else
      let (params, rest) ← scanParams rest
      if rest.skipBlank.isEmpty then return .data ⟨id.text, params⟩
      else .error ⟨.textAfterPortal, whole⟩

/-- Reads what follows the `@` of an action portal. `whole` is shown in refusals. -/
def parseAction (whole : String) (f : Fragment) : Except ParseError Portal := do
  let head := f.takeWhile isHeadGlyph
  if head.glyphs.any (·.resolved) then .error ⟨.resolvedTarget, whole⟩
  else
    let (conduit, target, act) ← ParseError.within whole (readHead head.chars)
    let (params, rest) ← scanParams (f.dropWhile isHeadGlyph)
    if rest.skipBlank.isEmpty then return .action ⟨conduit, target, act, params⟩
    else .error ⟨.textAfterPortal, whole⟩

/-- Reads the body of a portal, blanks around it aside. -/
def parse (body : Fragment) : Except ParseError Portal :=
  let body := body.trim
  match body.eat? '\'' with
  | some rest => parseData body.text rest
  | none =>
    match body.eat? '@' with
    | some rest => parseAction body.text rest
    | none => .error ⟨.noPortalHead, body.text⟩

end Portal

end PortalScript
