import PortalScript.Resolution.State
import PortalScript.Text.Numeral
import PortalScript.Text.Split

/-! # Options of the command

The options that take a value are `Setting`s. `Options.set` reads the value of a setting and refuses
one that is malformed, or given again where it counts once. -/

namespace PortalScript.Cli

inductive Setting
  | fixture
  | promptSource
  | selectors
  | override
  | settle
  | mountTimeout
  | missingTemplate
deriving Repr, DecidableEq

namespace Setting

def name : Setting → String
  | fixture => "fixture"
  | promptSource => "prompt-source"
  | selectors => "selectors"
  | override => "override"
  | settle => "settle-ms"
  | mountTimeout => "mount-timeout-secs"
  | missingTemplate => "missing-template"

def all : List Setting :=
  [fixture, promptSource, selectors, override, settle, mountTimeout, missingTemplate]

def ofName? (name : String) : Option Setting := all.find? (·.name = name)

theorem ofName?_name (s : Setting) : ofName? s.name = some s := by cases s <;> decide

end Setting

inductive UsageError
  | unknownOption (name : String)
  | missingValue (setting : Setting)
  | badValue (setting : Setting) (value : String)
  | unwantedValue (name : String)
  | repeated (name : String)
  | extraArgument (value : String)
  | noScript
deriving Repr, DecidableEq

def UsageError.message : UsageError → String
  | unknownOption name => s!"there is no option '{name}'"
  | missingValue s => s!"option '--{s.name}' needs a value"
  | badValue s value => s!"option '--{s.name}' does not take the value '{value}'"
  | unwantedValue name => s!"option '--{name}' takes no value"
  | repeated name => s!"option '--{name}' was given twice"
  | extraArgument value => s!"there is no place for the argument '{value}'"
  | noScript => "the script is missing"

/-- What the options say. An option that was not given is `none`. -/
structure Options where
  fixture : Option String := none
  promptSources : List String := []
  selectors : Option String := none
  /-- The overrides in order; the last of a repeated token counts. -/
  overrides : List (String × String) := []
  /-- The pause after each performed action, in milliseconds. -/
  settle : Option Nat := none
  /-- The seconds after which a mount is given up; 0 is never. -/
  mountTimeout : Option Nat := none
  missingTemplate : Option MissingTemplate := none
  events : Bool := false
  verbosity : Nat := 0
deriving Repr, DecidableEq

namespace Options

/-- The settings of the resolution, the usual ones where no option says otherwise. -/
def settings (o : Options) : Settings :=
  let usual : Settings := {}
  { settle := o.settle.getD usual.settle
    mountTimeout := match o.mountTimeout with
      | none => usual.mountTimeout
      | some 0 => none
      | some seconds => some (1000 * seconds)
    missingTemplate := o.missingTemplate.getD usual.missingTemplate }

def path? (value : String) : Option String := if value.isEmpty then none else some value

def number? (value : String) : Option Nat := Text.readNat? Text.maxWord64 value.toList

def missingTemplate? (value : String) : Option MissingTemplate :=
  if value = "error" then some .failure else if value = "empty" then some .nothing else none

/-- Reads `TOKEN=TEXT`. The token ends at the first equals sign and is never empty. -/
def override? (value : String) : Option (String × String) :=
  match Text.cutAt? ['='] value.toList with
  | some ([], _) => none
  | some (token, text) => some (.ofList token, .ofList text)
  | none => none

/-- The value of a setting that counts once. -/
def once {α : Type} (s : Setting) (old : Option α) (read : String → Option α) (value : String) :
    Except UsageError (Option α) :=
  if old.isSome then .error (.repeated s.name)
  else
    match read value with
    | none => .error (.badValue s value)
    | new => .ok new

def set (o : Options) (s : Setting) (value : String) : Except UsageError Options :=
  match s with
  | .fixture => (once s o.fixture path? value).map fun v => { o with fixture := v }
  | .promptSource => .ok { o with promptSources := o.promptSources ++ [value] }
  | .selectors => (once s o.selectors path? value).map fun v => { o with selectors := v }
  | .override =>
    match override? value with
    | some entry => .ok { o with overrides := o.overrides ++ [entry] }
    | none => .error (.badValue s value)
  | .settle => (once s o.settle number? value).map fun v => { o with settle := v }
  | .mountTimeout => (once s o.mountTimeout number? value).map fun v => { o with mountTimeout := v }
  | .missingTemplate =>
    (once s o.missingTemplate missingTemplate? value).map fun v => { o with missingTemplate := v }

end Options

end PortalScript.Cli
