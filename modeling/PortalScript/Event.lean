import PortalScript.Turn

/-! # Events of a call

A call reports what it does as a list of events; each record also says which pass it belongs to.
`Record.logLine` is the wording under which an event is logged. -/

namespace PortalScript

/-- The pass of a call: the primary one reports every unresolved link, the retry applies overrides
and puts up with the rest. -/
inductive Pass
  | primary
  | retry
deriving Repr, DecidableEq

inductive Event
  | parseStarted (chars : Nat)
  | parseCompleted (chars warnings : Nat)
  | parseFailed (error : String)
  | overridesApplied (substitutions : Nat)
  | scrapeCompleted (turns : Nat)
  | scrapeFailed (error : String)
  | mountStarted (conduit source : String)
  | mountSucceeded (conduit source : String) (turns : Nat)
  | mountFailed (conduit source error : String)
  | linkStarted (token : String)
  | linkSucceeded (token : String) (chars : Nat)
  | linkFailed (token error : String)
  | portalStarted (portal : String)
  | portalSucceeded (portal : String) (chars : Nat)
  | portalFailed (portal error : String)
  | actionStarted (target action : String)
  | actionSucceeded (target action : String)
  | actionFailed (target action error : String)
deriving Repr, DecidableEq

namespace Event

/-- How serious a log line is, the most serious first. -/
inductive Level
  | warn
  | info
  | debug
  | trace
deriving Repr, DecidableEq

def Level.name : Level → String
  | warn => "WARN"
  | info => "INFO"
  | debug => "DEBUG"
  | trace => "TRACE"

/-- The least verbosity at which lines of the level are shown. -/
def Level.verbosity : Level → Nat
  | warn => 0
  | info => 1
  | debug => 2
  | trace => 3

structure Record where
  pass : Pass
  event : Event
deriving Repr, DecidableEq

def preview (portal : String) : String := .ofList (portal.toList.take 80)

def passName : Pass → String
  | .primary => "Primary"
  | .retry => "Retry"

def Record.logLine (r : Record) : Level × String :=
  let pass := passName r.pass
  match r.event with
  | parseStarted n => (.info, s!"[{pass}] parse started ({n} chars)")
  | parseCompleted n w => (.info, s!"[{pass}] parse complete ({n} chars, {w} warning(s))")
  | parseFailed e => (.warn, s!"[{pass}] parse failed: {e}")
  | overridesApplied n => (.debug, s!"Applied {n} override substitution(s)")
  | scrapeCompleted n => (.debug, s!"Scraped {n} turn(s)")
  | scrapeFailed e => (.warn, s!"Scrape failed: {e}")
  | mountStarted c s => (.debug, s!"Mounting conduit '{c}' from '{s}'")
  | mountSucceeded c s n => (.info, s!"Mounted conduit '{c}' from '{s}' ({n} turn(s))")
  | mountFailed c s e => (.warn, s!"Conduit '{c}' from '{s}' failed: {e}")
  | linkStarted t => (.trace, s!"Resolving link {t}")
  | linkSucceeded t n => (.trace, s!"Link {t} resolved ({n} chars)")
  | linkFailed t e => (.debug, s!"Link {t} failed: {e}")
  | portalStarted p => (.trace, s!"Resolving portal {preview p}")
  | portalSucceeded p n => (.trace, s!"Portal {preview p} resolved ({n} chars)")
  | portalFailed p e => (.debug, s!"Portal {preview p} failed: {e}")
  | actionStarted t a => (.info, s!"Action {a} on {t}")
  | actionSucceeded t a => (.info, s!"Action {a} on {t} succeeded")
  | actionFailed t a e => (.warn, s!"Action {a} on {t} failed: {e}")

end Event

end PortalScript
