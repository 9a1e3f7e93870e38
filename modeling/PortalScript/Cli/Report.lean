import PortalScript.Cli.Command
import PortalScript.Event.Stored
import PortalScript.Fixture.Stored
import PortalScript.Resolution.Pass
import PortalScript.Library
import PortalScript.Source

/-! # What the command reports

`Command.report` carries out a command whose files are read by a given function, so it is itself free
of effects. The script is read first, then the fixture, the selectors and the prompt files; the first
file that cannot be used ends the command, except for prompt files. -/

namespace PortalScript.Cli

inductive Notice
  | log (level : Event.Level) (line : String)
  | event (record : Event.Record)
  | warning (text : String)
  | error (text : String)
deriving Repr, DecidableEq

def Notice.text : Notice → String
  | log level line => level.name ++ " " ++ line
  | event record => record.toJson.compact
  | warning text => "Warning: " ++ text
  | error text => "Error: " ++ text

/-- What a command leaves behind: the notices in order, the text of standard output, and the exit
code. -/
structure Report where
  notices : List Notice := []
  output : String := ""
  exitCode : Nat := 0
deriving Repr, DecidableEq

inductive InputError
  | unreadable (path : String) (error : ReadError)
  | unreadableInput (error : ReadError)
  | badFixture
  | badSelectors
deriving Repr, DecidableEq

def InputError.message : InputError → String
  | unreadable path e => s!"failed to read {path}: {e.message}"
  | unreadableInput e => s!"failed to read stdin: {e.message}"
  | badFixture => "invalid fixture: not of the form of a fixture"
  | badSelectors => "invalid selectors: not of the form of selectors"

/-- The texts of files by path, and that of standard input. -/
structure Inputs where
  file : String → Except ReadError String
  standard : Except ReadError String

namespace Inputs

def read (i : Inputs) (path : String) : Except InputError String :=
  (i.file path).mapError (.unreadable path)

def script (i : Inputs) (c : Command) : Except InputError String :=
  if c.readsStandard then i.standard.mapError .unreadableInput else i.read c.script

/-- Reads a file of a given form, or gives a default where there is no path. -/
def form {α : Type} (i : Inputs) (default : α) (parse? : String → Option α) (bad : InputError) :
    Option String → Except InputError α
  | none => .ok default
  | some path => do
    match parse? (← i.read path) with
    | some a => return a
    | none => throw bad

end Inputs

/-- The notices of an event: its log line if that is serious enough, and its record if events are
asked for. -/
def Options.noticesOf (o : Options) (r : Event.Record) : List Notice :=
  let (level, line) := r.logLine
  (if level.verbosity ≤ o.verbosity then [.log level line] else []) ++
    if o.events then [.event r] else []

namespace Report

/-- What is advised where links could not be resolved. -/
def advice : String := "\nRe-run with --override TOKEN=TEXT for each token above."

def ofError : CallError → Report
  | .unresolved failures =>
    { notices := [.error (SoftFailure.listing failures ++ advice)], exitCode := 2 }
  | .hard e => { notices := [.error e.message], exitCode := 1 }

def ofPrimary : Except CallError String → Report
  | .ok text => { output := text ++ "\n" }
  | .error e => ofError e

/-- The end of a command with overrides: links that stay unresolved are warnings. -/
def ofRetry : Except CallError Resolution → Report
  | .ok r => { notices := r.warnings.map (.warning ·.message), output := r.text ++ "\n" }
  | .error e => ofError e

def behind (notices : List Notice) (r : Report) : Report := { r with notices := notices ++ r.notices }

end Report

/-- Resolves the script. A template is looked for in the library first, then in the fixture. -/
def resolve (o : Options) (library : Library) (fixture : Fixture) (script : String) : Report :=
  let templates id := library.template? id <|> fixture.templates.get? id
  let session : Session := { vars := fixture.vars }
  if o.overrides.isEmpty then
    let outcome := parse o.settings templates session fixture script
    (Report.ofPrimary outcome.result).behind (outcome.events.flatMap o.noticesOf)
  else
    let outcome :=
      parseWithOverrides o.settings templates session fixture script (.ofList o.overrides)
    (Report.ofRetry outcome.result).behind (outcome.events.flatMap o.noticesOf)

def Command.report (c : Command) (i : Inputs) : Report :=
  let read : Except InputError (String × Fixture) := do
    let script ← i.script c
    let fixture ← i.form {} Fixture.parse? .badFixture c.options.fixture
    let _ ← i.form {} Selectors.parse? .badSelectors c.options.selectors
    return (script, fixture)
  match read with
  | .error e => { notices := [.error e.message], exitCode := 1 }
  | .ok (script, fixture) =>
    let loaded := LoadReport.load i.file c.options.promptSources
    (resolve c.options (.ofTexts loaded.texts) fixture script).behind <|
      loaded.failures.map fun (name, e) => .warning s!"prompt source {name} skipped: {e.message}"

end PortalScript.Cli
