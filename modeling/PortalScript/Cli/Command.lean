import PortalScript.Cli.Options

/-! # The command line

`Command.parse` reads the arguments: one script and any options, in any order. The value of a setting
stands behind an equals sign or is the next argument; `--` ends the options; a lone `-` is no option.
Reading stops at the first fault, or where help is asked for. -/

namespace PortalScript.Cli

structure Command where
  /-- The path of the script, `-` for standard input. -/
  script : String
  options : Options
deriving Repr, DecidableEq

namespace Command

def readsStandard (c : Command) : Bool := c.script = "-"

def paths (c : Command) : List String :=
  (if c.readsStandard then [] else [c.script]) ++ c.options.fixture.toList ++
    c.options.selectors.toList ++ c.options.promptSources

end Command

/-- Why arguments give no command. -/
inductive Stop
  | help
  | refused (error : UsageError)
deriving Repr, DecidableEq

/-- What the arguments read so far say. -/
structure Reading where
  script : Option String := none
  options : Options := {}

namespace Reading

inductive Shape
  | endOfOptions
  | long (name : String) (value : Option String)
  | short (letters : List Char)
  | plain
deriving Repr, DecidableEq

def shape (arg : String) : Shape :=
  match arg.toList with
  | ['-', '-'] => .endOfOptions
  | '-' :: '-' :: option =>
    match Text.cutAt? ['='] option with
    | some (name, value) => .long (.ofList name) (some (.ofList value))
    | none => .long (.ofList option) none
  | '-' :: c :: cs => .short (c :: cs)
  | _ => .plain

def set (r : Reading) (s : Setting) (value : String) : Except Stop Reading :=
  match r.options.set s value with
  | .ok options => .ok { r with options }
  | .error e => .error (.refused e)

def switch (r : Reading) (name : String) : Except Stop Reading :=
  if name = "events" then
    if r.options.events then .error (.refused (.repeated name))
    else .ok { r with options := { r.options with events := true } }
  else if name = "verbose" then
    .ok { r with options := { r.options with verbosity := r.options.verbosity + 1 } }
  else if name = "help" then .error .help
  else .error (.refused (.unknownOption ("--" ++ name)))

def letter (r : Reading) (c : Char) : Except Stop Reading :=
  if c = 'v' then r.switch "verbose"
  else if c = 'h' then r.switch "help"
  else .error (.refused (.unknownOption (.ofList ['-', c])))

def argument (r : Reading) (value : String) : Except Stop Reading :=
  match r.script with
  | none => .ok { r with script := some value }
  | some _ => .error (.refused (.extraArgument value))

def run (r : Reading) : List String → Except Stop Reading
  | [] => .ok r
  | arg :: rest =>
    match shape arg with
    | .endOfOptions => rest.foldlM argument r
    | .plain => do run (← r.argument arg) rest
    | .short letters => do run (← letters.foldlM letter r) rest
    | .long name (some value) =>
      match Setting.ofName? name with
      | some s => do run (← r.set s value) rest
      | none => .error (.refused (.unwantedValue name))
    | .long name none =>
      match Setting.ofName? name with
      | none => do run (← r.switch name) rest
      | some s =>
        match rest with
        | [] => .error (.refused (.missingValue s))
        | value :: rest =>
          if shape value = .plain then do run (← r.set s value) rest
          else .error (.refused (.missingValue s))

end Reading

def Command.parse (args : List String) : Except Stop Command := do
  let r ← Reading.run {} args
  match r.script with
  | none => .error (.refused .noScript)
  | some script => return ⟨script, r.options⟩

def Command.usage : String := "\n".intercalate [
  "Resolves a script against a conversation held in a fixture.",
  "",
  "Usage: portalscript [OPTIONS] <SCRIPT>",
  "",
  "  <SCRIPT>                     the script, or - for standard input",
  "  --fixture <FILE>             the conversation, its templates and variables, as JSON",
  "  --prompt-source <FILE>       a prompt file of the library; may be repeated",
  "  --selectors <FILE>           how a page tells turns apart, as JSON",
  "  --override <TOKEN=TEXT>      resolve again with TEXT for TOKEN; may be repeated",
  "  --settle-ms <N>              milliseconds to pause after an action (500)",
  "  --mount-timeout-secs <N>     seconds after which a mount is given up, 0 for never (30)",
  "  --missing-template <WHAT>    error or empty, for a template that is not there (error)",
  "  --events                     print events as JSON lines on standard error",
  "  -v, --verbose                log more; may be repeated",
  "  -h, --help                   print this text"]

end PortalScript.Cli
