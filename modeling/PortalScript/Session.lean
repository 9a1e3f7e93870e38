import PortalScript.Table
import PortalScript.Turn

/-! # Sessions

A session outlives the calls made in it: the variables, the history last scraped, the histories
mounted as conduits, and whether the history has been scraped for the call at hand. -/

namespace PortalScript

structure Session where
  vars : Table String := ∅
  history : History := []
  conduits : Table History := ∅
  scraped : Bool := false
deriving Repr, DecidableEq

namespace Session

/-- The variable that every performed or failed action writes. -/
def lastActionStatus : String := "__lastActionStatus"

def statusSuccess : String := "SUCCESS"

def statusFailed : String := "FAILED"

def setVar (s : Session) (key value : String) : Session := { s with vars := s.vars.insert key value }

/-- Replaces the history; the session then counts as scraped. -/
def setHistory (s : Session) (history : History) : Session :=
  { s with history := history, scraped := true }

/-- Mounts a history under an alias, in place of what was mounted there. -/
def commitConduit (s : Session) (conduit : String) (history : History) : Session :=
  { s with conduits := s.conduits.insert conduit history }

/-- Counts the session as scraped and keeps its history. -/
def markScraped (s : Session) : Session := { s with scraped := true }

/-- Forgets that the session has been scraped. -/
def invalidate (s : Session) : Session := { s with scraped := false }

end Session

end PortalScript
