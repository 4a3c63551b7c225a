import FormFlow.CommandLine.Arguments
import FormFlow.CommandLine.Panel
import FormFlow.CommandLine.Variables
/-!
The program: what its arguments make of the files, the variables and the services around it.

A run reads nothing but its surroundings and changes nothing: the files that it would write and the requests that it
would make are part of its report. How texts of files are read is part of the surroundings.
-/

set_option autoImplicit false

namespace FormFlow

/-- The name and the version of the program. -/
def programName : String := "mapflow"
def programVersion : String := "0.1.0"

/-- What is around the program. -/
structure Surroundings where
  files : List (Path × String)
  /-- The folders that a file may be written into. -/
  folders : List Path
  environment : Environment
  exchange : Exchange
  /-- What the texts of workflow files stand for. -/
  reader : TextReader := .plain
  /-- What settings files and the environment set. -/
  loader : Settings.Loader := .plain

/-- What stops the program on the spot. The interpreter tells it in its own way, which is not part of a report. -/
inductive Stop where
  | settings (fault : Settings.LoadFault)
  | workflow (fault : Document.ReadFault)
  | opening (fault : OpenFault)
  | compiling (fault : CompileFault)
  | publishing (fault : PublishFault)
  /-- The records cannot be written. -/
  | records (fault : DumpFault)
  /-- There is no folder to write a file into. -/
  | folder (path : Path)
  deriving DecidableEq, Repr

/-- How a run ends. -/
inductive Ending where
  /-- All went well. -/
  | done
  /-- The arguments ask for nothing that there is. -/
  | misused
  /-- The command failed for a reason that a panel tells. -/
  | failed (panel : Panel)
  /-- The file of variables is not there, which a note tells. -/
  | unprepared
  /-- The program could not go on. -/
  | stopped (cause : Stop)
  deriving DecidableEq, Repr

/-- The code that a run ends with. -/
def Ending.code : Ending → Nat
  | done => 0
  | misused => 2
  | failed _ | unprepared | stopped _ => 1

/-- The report of a run. -/
structure Report where
  ending : Ending
  /-- The lines that were printed. -/
  output : List String
  /-- What was said beside the output. -/
  notes : List String
  /-- The entries of the log that are shown. -/
  log : List LogEntry
  logsJson : Bool
  written : List (Path × String)
  requests : List Request
  deriving DecidableEq, Repr

namespace Report

/-- The report of a run that did nothing but end. -/
def ofEnding (e : Ending) : Report := ⟨e, [], [], [], false, [], []⟩

/-- A report of printed lines alone. -/
def printed (lines : List String) : Report := { ofEnding .done with output := lines }

end Report

/-- What a command did. -/
structure Done where
  ending : Ending
  output : List String
  written : List (Path × String)
  session : Session Exchange

namespace Command

/-- A command that failed, with a panel if there is one for its cause. -/
def failure (cause : Stop) (p : Option Panel) : Ending := p.elim (.stopped cause) .failed

/-- The settings file of a command. -/
def settings : Command → Option Path
  | validate _ settings => settings
  | order _ => none
  | compile _ _ settings => settings
  | publish _ settings _ => some settings

def workflow : Command → Path
  | validate workflow _ | order workflow | compile workflow _ _ | publish workflow _ _ => workflow

/-- Reads the settings of a command, if it names a file of them. -/
def readSettings (c : Command) (around : Surroundings) : Except Ending (Option Settings) :=
  match c.settings with
  | none => .ok none
  | some path =>
    match around.files.lookup path with
    | none => .error (.failed (Panel.settingsMissing path.toText))
    | some text =>
      match Settings.load around.loader (some text) around.environment with
      | .ok s => .ok (some s)
      | .error (.problems ps) => .error (.failed (Panel.settingsInvalid ps))
      | .error f => .error (.stopped (.settings f))

def readWorkflow (c : Command) (around : Surroundings) : Except Ending Document :=
  let path := c.workflow
  match around.files.lookup path with
  | none => .error (.failed (Panel.workflowMissing path.toText))
  | some text =>
    match Document.ofText around.reader (.ofEnding (Notation.endingOf path.name)) path.toText text with
    | .ok d => .ok d
    | .error f => .error (failure (.workflow f) (Panel.ofReadFault? path.name f))

/-- The time inside which a repeated connection is ignored if nothing is set. -/
def defaultWindow : Seconds := Settings.default.window

/-- The service that knows the fields of objects, with the token of the settings or of the environment. -/
def schemaService (s : ServiceSettings) (env : Environment) : SchemaService :=
  ⟨.parse s.url, some (.fixed (Text.filled? s.token <|> env.lookup Credential.defaultVariable))⟩

/-- The credential for the service that stores records. -/
def credential (s : ServiceSettings) (env : Environment) : Credential :=
  match Text.filled? s.token with
  | some t => .fixed (some t)
  | none => .ofEnvironment env Credential.defaultVariable

/-- Opens a workflow. Fields come from the service of the settings, or else from the document. -/
def openWorkflow (d : Document) (settings : Option Settings) (around : Surroundings) :
    Except Ending (Session Exchange) :=
  let service := (settings.bind (·.schema)).map fun s => schemaService s around.environment
  match Editor.openOn d ((settings.map Settings.window).getD defaultWindow) service.isSome with
  | .error f => .error (failure (.opening f) (Panel.ofOpenFault? f))
  | .ok e => .ok {
      editor := e
      desk := .fresh ((service.map SchemaService.source).getD (.ofObjects d.objects)) around.exchange
      clock := ⟨.zero⟩
      tokens := .ofList []
      isHeard := false
      events := [] }

/-- The problems of nodes, one after the other. Faults of other parties are problems of the node that met them. -/
def nodeProblems (s : Session Exchange) : List String → List String × Session Exchange
  | [] => ([], s)
  | id :: rest =>
    let (r, s) := s.checkNode id
    let (ps, s) := nodeProblems s rest
    (match r with
      | .ok () => ps
      | .error (.invalid n) => n.message :: ps
      | .error (.collaborator f) => (id ++ ": " ++ f.message) :: ps
      | .error (.graph f) => f.message :: ps, s)

/-- The problem of a workflow with an isolated node. -/
def isolation (s : Store) : List String :=
  s.isolated?.toList.map fun n => Record.isolatedMessage n.name n.id

/-- Validates a workflow. -/
def runValidate (file : String) (s : Session Exchange) : Done :=
  let (ps, after) := nodeProblems s (s.editor.sequence.map (·.id))
  match isolation s.editor.store ++ ps with
  | [] =>
    let store := s.editor.store
    ⟨.done,
      ["✅ Workflow valid!",
        "  Graph: " ++ toString store.nodes.length ++ " nodes, " ++ toString store.links.length ++ " edges"],
      [], after⟩
  | problems => ⟨.failed (Panel.problems file problems), [], [], after⟩

/-- A text with blanks before it, up to a width. -/
def padStart (width : Nat) (s : String) : String := .ofList (List.replicate (width - s.length) ' ') ++ s

/-- A text with blanks after it, up to a width. -/
def padEnd (width : Nat) (s : String) : String := s ++ .ofList (List.replicate (width - s.length) ' ')

/-- The line about a node: its order, level, label and id. -/
def orderLine (n : Node) : String :=
  padStart 4 ((n.order.map toString).getD "None") ++ "  L" ++ padEnd 3 ((n.level.map toString).getD "None") ++ " " ++
    padEnd 28 n.label ++ " " ++ n.id

/-- Shows the order of a workflow. -/
def runOrder (s : Session Exchange) : Done := ⟨.done, s.editor.sequence.map orderLine, [], s⟩

/-- The text of records, if they can be written. -/
def recordsText (records : List Record) : Except DumpFault String := do
  (Value.list (← Record.dumpAll records)).dump (Json.write .indented)

/-- Compiles a workflow, to a file or to the output. -/
def runCompile (output : Option Path) (around : Surroundings) (s : Session Exchange) : Done :=
  match s.compile with
  | (.error f, s) => ⟨failure (.compiling f) (Panel.ofCompileFault? "Schema Unavailable" f), [], [], s⟩
  | (.ok records, s) =>
    match recordsText records, output with
    | .error f, _ => ⟨.stopped (.records f), [], [], s⟩
    | .ok text, none => ⟨.done, [text], [], s⟩
    | .ok text, some path =>
      if around.folders.contains path.folder then
        ⟨.done, ["Wrote " ++ toString records.length ++ " records to " ++ path.toText], [(path, text ++ "\n")], s⟩
      else ⟨.stopped (.folder path), [], [], s⟩

/-- The lines about a receipt. -/
def receiptLines (r : Receipt) : List String :=
  ["✅ Published " ++ r.formVersion] ++
    (if r.message = "" then [] else ["  " ++ r.message]) ++
    if r.recordIds.isEmpty then [] else ["  Records: " ++ toString r.recordIds.length]

/-- Publishes a workflow under a version of the form. -/
def runPublish (service : ServiceSettings) (version : String) (env : Environment) (s : Session Exchange) : Done :=
  match s.publish (RecordService.mk (.parse service.url)).save (credential service env) version with
  | (.error f, s) => ⟨failure (.publishing f) (Panel.ofPublishFault? f), [], [], s⟩
  | (.ok receipt, s) => ⟨.done, receiptLines receipt, [], s⟩

/-- The version of the form to publish under: the given one, or the document's own; an empty one is none. -/
def version? (given : Option String) (d : Document) : Option String :=
  Text.filled? given <|> Text.filled? (some d.formVersion)

/-- Carries a command out with its settings. Publishing needs a service to publish to, and a version. -/
def carryOut (c : Command) (settings : Option Settings) (around : Surroundings) : Except Ending Done := do
  let opened : Except Ending (Document × Session Exchange) := do
    let d ← c.readWorkflow around
    return (d, ← openWorkflow d settings around)
  match c with
  | validate workflow _ => return runValidate workflow.name (← opened).2
  | order _ => return runOrder (← opened).2
  | compile _ output _ => return runCompile output around (← opened).2
  | publish _ _ given =>
    match settings.bind (·.persistence) with
    | none => .error (.failed Panel.noPersistence)
    | some service =>
      let (d, s) ← opened
      match version? given d with
      | none => .error (.failed Panel.noFormVersion)
      | some version => return runPublish service version around.environment s

/-- The threshold of the log: all is shown on demand, else what the settings say, and warnings without settings. -/
def threshold (o : GlobalOptions) (settings : Option Settings) : LogThreshold :=
  if o.isVerbose then LogLevel.debug.severity
  else (settings.map fun s => s.log.level.severity).getD LogLevel.warning.severity

/-- The entry about settings that were read. -/
def settingsEntry (s : Settings) : LogEntry := .debug "settings_loaded" [("settings", s.redacted.toValue)]

def report (c : Command) (o : GlobalOptions) (settings : Option Settings) (around : Surroundings) : Report :=
  let shown := fun (log : List LogEntry) =>
    (settings.toList.map settingsEntry ++ log).filter (LogEntry.reaches (threshold o settings))
  let logsJson := o.logsJson || (settings.map (·.log.asJson)).getD false
  match c.carryOut settings around with
  | .error e => { Report.ofEnding e with log := shown [], logsJson := logsJson }
  | .ok d => ⟨d.ending, d.output, [], shown d.session.desk.log, logsJson, d.written, d.session.desk.state.requests⟩

def run (c : Command) (o : GlobalOptions) (around : Surroundings) : Report :=
  match c.readSettings around with
  | .error e => .ofEnding e
  | .ok settings => c.report o settings around

end Command

/-- How the program is asked for something. -/
def usage : String := "Usage: " ++ programName ++ " [OPTIONS] COMMAND [ARGS]..."

/-- How a command is asked for. -/
def CommandName.usage (name : CommandName) : String :=
  let word := (CommandName.table.find? fun (_, n) => n == name).elim "" (·.1)
  "Usage: " ++ programName ++ " " ++ word ++ " [OPTIONS] WORKFLOW"

namespace Invocation

/-- The surroundings with the variables of the file that the options name, and what is said about it. Without such a
file the program stops. -/
def withVariables (o : GlobalOptions) (around : Surroundings) : Except String (Surroundings × List String) :=
  match o.variableFile with
  | none => .ok (around, [])
  | some path =>
    if o.skipsVariables then .ok (around, ["Warning: --env-file ignored because --no-dotenv is set."])
    else
      match around.files.lookup path with
      | none => .error ("Error: .env file not found: " ++ path.toText)
      | some text => .ok ({ around with environment := Variables.addTo around.environment text }, [])

/-- Runs what is asked for. The file of variables is read before the arguments of the command are. -/
def run (i : Invocation) (around : Surroundings) : Report :=
  match withVariables i.options around with
  | .error note => { Report.ofEnding .unprepared with notes := [note] }
  | .ok (around, notes) =>
    match i.name.read i.arguments with
    | .known c =>
      let r := c.run i.options around
      { r with notes := notes ++ r.notes }
    | .help => .printed [i.name.usage]
    | .unknown | .version => .ofEnding .misused

end Invocation

/-- The files that the program may read. -/
def filesRead (arguments : List String) : List Path :=
  match Invocation.read arguments with
  | .known i =>
    i.options.variableFile.toList ++
      match i.name.read i.arguments with
      | .known c => c.workflow :: c.settings.toList
      | _ => []
  | _ => []

/-- The files that the program may write. -/
def filesWritten (arguments : List String) : List Path :=
  match Invocation.read arguments with
  | .known i =>
    match i.name.read i.arguments with
    | .known (.compile _ output _) => output.toList
    | _ => []
  | _ => []

/-- Runs the program. -/
def run (arguments : List String) (around : Surroundings) : Report :=
  match Invocation.read arguments with
  | .version => .printed [programName ++ " version " ++ programVersion]
  | .help => .printed [usage]
  | .unknown => .ofEnding .misused
  | .known i => i.run around

end FormFlow
