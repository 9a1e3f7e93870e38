import PortalScript.Turn

/-! # Errors of the script readers

A `ParseError` pairs the cause of a refusal with the text that was being read. Causes are data;
`Cause.reason` and `ParseError.message` word them. -/

namespace PortalScript

inductive ParseError.Cause
  -- turn references
  | noAuthorIndex (found : String)
  | unknownAuthor (found : String)
  | indexNotNumber (found : String)
  | indexTooLarge (found : String)
  -- links
  | badVariableName (found : String)
  | noLinkSigil
  | tooManySegments
  | badAlias (found : String)
  | thoughtsOfUser
  | unknownSpecifier (found : String)
  -- parameter lists
  | noList
  | unterminatedList
  | noKey
  | noColon (key : String)
  | unterminatedQuote
  | textAfterQuote
  | missingValue (key : String)
  | textAfterList
  -- portals
  | noPortalHead
  | unterminatedId
  | emptyId
  | resolvedTarget
  | badActionHead
  | missingAction
  | emptyAlias
  | textAfterPortal
  | unknownAction (name : String)
deriving Repr, DecidableEq

def ParseError.Cause.reason : ParseError.Cause → String
  | noAuthorIndex s => s!"expected AUTHOR-N, got '{s}'"
  | unknownAuthor s => Author.unknownLabel s
  | indexNotNumber s => s!"turn index '{s}' is not a number"
  | indexTooLarge s => s!"turn index '{s}': number too large to fit in target type"
  | badVariableName s => s!"invalid session variable name '{s}'"
  | noLinkSigil => "links start with '$' or '@'"
  | tooManySegments => "too many ':' segments in link"
  | badAlias s => s!"invalid conduit alias '{s}'"
  | thoughtsOfUser => "the 'thoughts' specifier only applies to AI turns"
  | unknownSpecifier s => s!"unknown link specifier '{s}'"
  | noList => "expected '['"
  | unterminatedList => "unterminated parameter list"
  | noKey => "expected parameter name"
  | noColon k => s!"expected ':' after parameter '{k}'"
  | unterminatedQuote => "unterminated quoted value"
  | textAfterQuote => "unexpected text after quoted value"
  | missingValue k => s!"missing value for parameter '{k}'"
  | textAfterList => "unexpected text after parameter list"
  | noPortalHead => "portal body must start with a quoted template id or '@'"
  | unterminatedId => "unterminated template id"
  | emptyId => "empty template id"
  | resolvedTarget => "action target must be literal text"
  | badActionHead => "expected @[alias:]AUTHOR-N:action"
  | missingAction => "missing action name"
  | emptyAlias => "empty conduit alias"
  | textAfterPortal => "unexpected text after portal"
  | unknownAction s => s!"unknown action '{s}'"

/-- A refused text: the cause, and the fragment of script that was being read. -/
structure ParseError where
  cause : ParseError.Cause
  fragment : String
deriving Repr, DecidableEq

namespace ParseError

/-- The wording of the cause, without the fragment. -/
def reason (e : ParseError) : String := e.cause.reason

/-- The wording with the fragment. -/
def message (e : ParseError) : String := e.reason ++ " in `" ++ e.fragment ++ "`"

/-- Attaches the fragment to the cause of a refusal. -/
def within {α : Type} (fragment : String) : Except Cause α → Except ParseError α
  | .ok a => .ok a
  | .error cause => .error ⟨cause, fragment⟩

end ParseError

end PortalScript
