import FormFlow.Document.File
import FormFlow.Editor.Compile
/-!
What the program says when a command fails: a panel with a title, a message, details and a hint.

Faults that cannot come from what a user wrote have no panel.
-/

set_option autoImplicit false

namespace FormFlow

/-- A panel. -/
structure Panel where
  title : String
  message : String
  details : List String
  hint : Option String
  deriving DecidableEq, Repr

namespace Panel

/-- The text of a panel: the message, the details between blank lines, the hint. -/
def text (p : Panel) : String :=
  p.message ++
    (if p.details.isEmpty then "" else "\n\n" ++ String.join (p.details.map fun d => "  • " ++ d ++ "\n")) ++
    match p.hint with
    | some h => "\nHint: " ++ h
    | none => ""

/-- The lines of a panel without blanks around them. -/
def lines (p : Panel) : List String :=
  (Text.pieces '\n' p.text.toList).map fun l => Text.strip (.ofList l)

/-- A panel of a message alone. -/
def plain (title message : String) : Panel := ⟨title, message, [], none⟩

def hinted (title message hint : String) : Panel := ⟨title, message, [], some hint⟩

/-- The problems of data as details. -/
def problemDetails (ps : List Problem) : List String := ps.map (Problem.describe "")

/-- A workflow that is not there. -/
def workflowMissing (path : String) : Panel := plain "File Not Found" ("Workflow file does not exist: " ++ path)

/-- Settings that are not there. -/
def settingsMissing (path : String) : Panel := plain "File Not Found" ("Settings file does not exist: " ++ path)

def settingsInvalid (ps : List Problem) : Panel :=
  ⟨"Configuration Validation Failed", "Invalid settings", problemDetails ps,
    some "Check field names, types, and required values."⟩

/-- A workflow whose text is no document. -/
def ofReadFault? (file : String) : Document.ReadFault → Option Panel
  | .unread .yaml .malformed => some (plain "YAML Syntax Error" ("Failed to parse " ++ file))
  | .unread .json .malformed => some (plain "Workflow Document Invalid" ("Failed to parse " ++ file))
  | .unread _ (.refused reason) => some (plain "Workflow Document Invalid" reason)
  | .unread _ .failed => none
  | .notMapping file => some (plain "Workflow Document Invalid" (Document.notMappingMessage file))
  | .problems ps => some ⟨"Workflow Document Invalid", "Invalid workflow document " ++ file, problemDetails ps, none⟩

/-- A workflow that no editor opens. -/
def ofOpenFault? : OpenFault → Option Panel
  | .document (.config node f) =>
    some ⟨"Node Configuration Error", Document.configMessage node f, ["node: " ++ node], none⟩
  | .document (.graph (.unindexedEdge _)) => none
  | .document (.graph f) =>
    some (hinted "Workflow Graph Error" f.message "Check for cycles, extra successors, or malformed Path branches.")
  | .placement _ => none

/-- A workflow that does not compile, for a reason that is its own or that of a party outside. -/
def ofCompileFault? (outside : String) : CompileFault → Option Panel
  | .isolated name id => some ⟨"Compile Failed", Record.isolatedMessage name id, ["node: " ++ id], none⟩
  | .invalid n => some ⟨"Compile Failed", n.message, ["node: " ++ n.id], none⟩
  | .collaborator f => some (plain outside f.message)
  | .graph _ | .unplaced _ | .undumped _ => none

/-- Records that were not published. -/
def ofPublishFault? : PublishFault → Option Panel
  | .compile f => ofCompileFault? "Publish Failed" f
  | .credential f | .save (.collaborator f) => some (plain "Publish Failed" f.message)
  | .save (.undumped _) | .save (.unsent _) | .save .unlistedIds => none

/-- A workflow with problems. -/
def problems (file : String) (ps : List String) : Panel :=
  ⟨"Workflow Validation Failed", toString ps.length ++ " problem(s) in " ++ file, ps, none⟩

/-- Settings without a service to store records. -/
def noPersistence : Panel :=
  hinted "Configuration Error" "No persistence endpoint configured" "Add a 'persistence.url' to the settings file."

/-- No version of the form to publish under. -/
def noFormVersion : Panel :=
  hinted "Missing Form Version" "No form_version_id in the document" "Pass --form-version-id."

end Panel

end FormFlow
