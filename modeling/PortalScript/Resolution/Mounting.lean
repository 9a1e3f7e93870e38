import PortalScript.Mount
import PortalScript.Resolution.State

/-! # Mounting and scraping

Before any portal runs, the conversations of all mount directives are fetched at the same time and
committed in the order of the directives, and the live conversation is scraped once. Neither can
fail the call. -/

namespace PortalScript

namespace Settings

/-- How many milliseconds it takes to fetch a conversation or to give it up. -/
def fetchTime (settings : Settings) (f : Fixture) (source : String) : Nat :=
  let delay := f.fetchDelay source settings.timer
  match settings.mountTimeout with
  | none => delay
  | some limit => min delay (settings.timer.length limit)

/-- Fetches a conversation, unless that takes longer than the limit. -/
def fetch (settings : Settings) (f : Fixture) (source : String) : Except SurfaceError History :=
  match settings.mountTimeout with
  | none => f.fetch source
  | some limit =>
    if settings.timer.length limit < f.fetchDelay source settings.timer then .error (.timedOut limit)
    else f.fetch source

end Settings

namespace Run

/-- Commits a fetched conversation, or reports that it could not be fetched. -/
def commitMount (settings : Settings) (m : Mount) : Run Unit := do
  match settings.fetch (← get).fixture m.source with
  | .ok history =>
    emit (.mountSucceeded m.conduit m.source history.length)
    modifySession (·.commitConduit m.conduit history)
  | .error e => emit (.mountFailed m.conduit m.source e.message)

/-- Fetches the conversations of all directives at the same time, then commits them in order. -/
def mountAll (settings : Settings) (mounts : List Mount) : Run Unit := do
  mounts.forM fun m => emit (.mountStarted m.conduit m.source)
  let f := (← get).fixture
  wait ((mounts.map fun m => settings.fetchTime f m.source).foldl max 0)
  mounts.forM (commitMount settings)

/-- Scrapes the live conversation. If that fails, the session keeps the history it has. -/
def scrape : Run Unit := do
  let s ← get
  let (result, f) := s.fixture.scrape
  set { s with fixture := f }
  match result with
  | .ok history =>
    emit (.scrapeCompleted history.length)
    modifySession (·.setHistory history)
  | .error e =>
    emit (.scrapeFailed e.message)
    modifySession (·.markScraped)

/-- Mounts, scrapes, and gives the script without its directives. -/
def prepare (settings : Settings) (script : String) : Run String := do
  modifySession (·.invalidate)
  let (mounts, rest) := Mount.extract script
  mountAll settings mounts
  scrape
  return rest

end Run

end PortalScript
