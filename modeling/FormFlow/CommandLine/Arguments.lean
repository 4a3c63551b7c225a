import FormFlow.CommandLine.Options
import FormFlow.CommandLine.Path
/-!
The commands of the program and how they are asked for.

The options of the program itself come first, then the name of a command, then its own options and words.
-/

set_option autoImplicit false

namespace FormFlow

/-- The options of the program itself. -/
structure GlobalOptions where
  /-- Whether no file of variables is read. -/
  skipsVariables : Bool
  variableFile : Option Path
  isVerbose : Bool
  logsJson : Bool
  deriving DecidableEq, Repr

/-- The names of the commands. -/
inductive CommandName where
  | validate
  | order
  | compile
  | publish
  deriving DecidableEq, Repr

/-- A command with all that it is given. -/
inductive Command where
  /-- Finds every problem of a workflow. -/
  | validate (workflow : Path) (settings : Option Path)
  /-- Shows in which order the nodes run. -/
  | order (workflow : Path)
  /-- Gives the records of a workflow. -/
  | compile (workflow : Path) (output settings : Option Path)
  /-- Has the records of a workflow stored under a version of the form. -/
  | publish (workflow settings : Path) (formVersion : Option String)
  deriving DecidableEq, Repr

/-- What arguments ask for. -/
inductive Asked (α : Type) where
  /-- Nothing that there is. -/
  | unknown
  | help
  | version
  | known (request : α)
  deriving DecidableEq, Repr

namespace GlobalOptions

def versionRule : OptionRule := ⟨"--version", some 'V', false⟩
def helpRule : OptionRule := ⟨"--help", none, false⟩
def skipRule : OptionRule := ⟨"--no-dotenv", none, false⟩
def variablesRule : OptionRule := ⟨"--env-file", none, true⟩
def verboseRule : OptionRule := ⟨"--verbose", some 'v', false⟩
def jsonRule : OptionRule := ⟨"--json-logs", none, false⟩

/-- The options that the program knows. -/
def rules : List OptionRule := [versionRule, helpRule, skipRule, variablesRule, verboseRule, jsonRule]

/-- The options that were given. -/
def ofArguments (s : SortedArguments) : GlobalOptions where
  skipsVariables := s.has skipRule.long
  variableFile := (s.value? variablesRule.long).map .ofText
  isVerbose := s.has verboseRule.long
  logsJson := s.has jsonRule.long

end GlobalOptions

namespace CommandName

def table : List (String × CommandName) :=
  [("validate", validate), ("order", order), ("compile", compile), ("publish", publish)]

def settingsRule : OptionRule := ⟨"--settings", some 's', true⟩
def outputRule : OptionRule := ⟨"--output", some 'o', true⟩
def formVersionRule : OptionRule := ⟨"--form-version-id", none, true⟩

/-- The options that a command knows. -/
def rules : CommandName → List OptionRule
  | validate => [settingsRule, GlobalOptions.helpRule]
  | order => [GlobalOptions.helpRule]
  | compile => [outputRule, settingsRule, GlobalOptions.helpRule]
  | publish => [settingsRule, formVersionRule, GlobalOptions.helpRule]

/-- The command with what it was given; publishing cannot do without settings. -/
def command? (name : CommandName) (workflow : Path) (s : SortedArguments) : Option Command :=
  let settings := (s.value? settingsRule.long).map Path.ofText
  match name with
  | validate => some (.validate workflow settings)
  | order => some (.order workflow)
  | compile => some (.compile workflow ((s.value? outputRule.long).map .ofText) settings)
  | publish => settings.map fun settings => .publish workflow settings (s.value? formVersionRule.long)

/-- Reads the arguments of a command: its options and one word, the workflow. -/
def read (name : CommandName) (arguments : List String) : Asked Command :=
  match OptionRule.sort name.rules true arguments with
  | none => .unknown
  | some s =>
    if s.has GlobalOptions.helpRule.long then .help
    else match s.words with
      | [workflow] => (name.command? (.ofText workflow) s).elim .unknown .known
      | _ => .unknown

end CommandName

/-- The options of the program, the name of the command, and the arguments of the command. -/
structure Invocation where
  options : GlobalOptions
  name : CommandName
  arguments : List String
  deriving DecidableEq, Repr

namespace Invocation

/-- Reads the arguments of the program up to the name of a command. -/
def read (arguments : List String) : Asked Invocation :=
  match OptionRule.sort GlobalOptions.rules false arguments with
  | none => .unknown
  | some s =>
    if s.has GlobalOptions.versionRule.long then .version
    else if s.has GlobalOptions.helpRule.long then .help
    else match s.words with
      | [] => .unknown
      | word :: rest =>
        match CommandName.table.lookup word with
        | some name => .known ⟨.ofArguments s, name, rest⟩
        | none => .unknown

end Invocation

end FormFlow
