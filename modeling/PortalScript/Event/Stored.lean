import PortalScript.Event
import PortalScript.Json

/-! # Stored events

The JSON form of event records: the pass, the type of the event and its fields in one object. -/

namespace PortalScript

def Pass.tag : Pass → String
  | primary => "primary"
  | retry => "retry"

namespace Event

def stored : Event → String × List (String × Json)
  | parseStarted n => ("parse_started", [("chars", .ofNat n)])
  | parseCompleted n w => ("parse_completed", [("chars", .ofNat n), ("warnings", .ofNat w)])
  | parseFailed e => ("parse_failed", [("error", .ofText e)])
  | overridesApplied n => ("overrides_applied", [("substitutions", .ofNat n)])
  | scrapeCompleted n => ("scrape_completed", [("turns", .ofNat n)])
  | scrapeFailed e => ("scrape_failed", [("error", .ofText e)])
  | mountStarted c s => ("mount_started", [("alias", .ofText c), ("source", .ofText s)])
  | mountSucceeded c s n =>
    ("mount_succeeded", [("alias", .ofText c), ("source", .ofText s), ("turns", .ofNat n)])
  | mountFailed c s e =>
    ("mount_failed", [("alias", .ofText c), ("source", .ofText s), ("error", .ofText e)])
  | linkStarted t => ("link_started", [("token", .ofText t)])
  | linkSucceeded t n => ("link_succeeded", [("token", .ofText t), ("chars", .ofNat n)])
  | linkFailed t e => ("link_failed", [("token", .ofText t), ("error", .ofText e)])
  | portalStarted p => ("portal_started", [("portal", .ofText p)])
  | portalSucceeded p n => ("portal_succeeded", [("portal", .ofText p), ("chars", .ofNat n)])
  | portalFailed p e => ("portal_failed", [("portal", .ofText p), ("error", .ofText e)])
  | actionStarted t a => ("action_started", [("target", .ofText t), ("action", .ofText a)])
  | actionSucceeded t a => ("action_succeeded", [("target", .ofText t), ("action", .ofText a)])
  | actionFailed t a e =>
    ("action_failed", [("target", .ofText t), ("action", .ofText a), ("error", .ofText e)])

def Record.toJson (r : Record) : Json :=
  let (type, fields) := stored r.event
  .ofMembers (("pass", .ofText r.pass.tag) :: ("type", .ofText type) :: fields)

end Event

end PortalScript
