import PortalScript.Link
import PortalScript.Fragment
import PortalScript.Marker

/-! # Parameter values

A value is a nested portal, a link, a quoted text or a bare text, tried in this order. A value that
starts with resolved text is bare, whatever that text looks like. -/

namespace PortalScript

/-- A parameter value, classified. -/
inductive Value
  /-- A value that opens with a portal marker, to be resolved in its turn. -/
  | portal (raw : Fragment)
  /-- A link and its spelling in the script, under which failures and overrides know it. -/
  | link (link : Link) (token : String)
  | quoted (text : String)
  | bare (text : String)
deriving Repr, DecidableEq

/-- Classifies a value, blanks around it aside. -/
def Value.classify (raw : Fragment) : Except ParseError Value :=
  let raw := raw.trim
  if raw.startsResolved then .ok (.bare raw.text)
  else if raw.startsWith Marker.opening.spelling then .ok (.portal raw)
  else if Link.isToken raw.chars then (Link.parse raw.text).map (.link · raw.text)
  else if raw.isQuoted then .ok (.quoted raw.unquoted)
  else .ok (.bare raw.text)

end PortalScript
