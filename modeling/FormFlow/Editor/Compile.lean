import FormFlow.Editor.Session
import FormFlow.Inspection.Check
import FormFlow.Service.Client
/-!
Checking, compiling and publishing the workflow of a session. None of it changes the editor.
-/

set_option autoImplicit false

namespace FormFlow

/-- Why a workflow was not compiled. -/
inductive CompileFault where
  | isolated (name id : String)
  | invalid (node : InvalidNode)
  | graph (fault : StructureFault)
  | collaborator (fault : CollaboratorFault)
  | unplaced (fault : Digraph.PlacementFault)
  /-- A record would hold a value that cannot be written. -/
  | undumped (fault : DumpFault)
  deriving DecidableEq, Repr

namespace CompileFault

/-- A node that failed its check. -/
def ofCheck : CheckFault → CompileFault
  | .graph f => .graph f
  | .invalid n => .invalid n
  | .collaborator f => .collaborator f

/-- A graph without records. -/
def ofRecords : Record.Fault → CompileFault
  | .isolated name id => .isolated name id
  | .unplaced f => .unplaced f

end CompileFault

/-- The records of a store, if what they hold can be written. -/
def Store.compileWritten (s : Store) : Except CompileFault (List Record) :=
  match s.compile with
  | .error f => .error (.ofRecords f)
  | .ok records => (dumpWith s.exported records).mapError .undumped

/-- Why records were not published. -/
inductive PublishFault where
  | compile (fault : CompileFault)
  | credential (fault : CollaboratorFault)
  | save (fault : SaveFault)
  deriving DecidableEq, Repr

/-- A party that stores records under a version of the form, with a token. -/
abbrev Backend (σ : Type) :=
  List Record → (formVersion token : String) → σ → (Except SaveFault Receipt × List LogEntry) × σ

namespace Session

variable {σ : Type}

/-- Checks nodes in turn, up to the first that fails. -/
def checkAll (store : Store) (form : List (String × FormField)) (d : Desk σ) :
    List String → Except CheckFault Unit × Desk σ
  | [] => (.ok (), d)
  | id :: rest =>
    match store.check form id d with
    | (.error f, d) => (.error f, d)
    | (.ok (), d) => checkAll store form d rest

/-- Checks one node and notes what is wrong with it. -/
def checkNode (s : Session σ) (id : String) : Except CheckFault Unit × Session σ :=
  match s.editor.store.check s.editor.form id s.desk with
  | (.error (.invalid n), desk) =>
    (.error (.invalid n),
      { s with desk := desk }.note
        (.info "node_invalid" [("node_id", .text id), ("error", .text n.message)]))
  | (r, desk) => (r, { s with desk := desk })

/-- Compiles the workflow: no node is isolated, every node passes its check, and each gives a record of what can be
written. -/
def compile (s : Session σ) : Except CompileFault (List Record) × Session σ :=
  match s.editor.store.isolated? with
  | some n => (.error (.isolated n.name n.id), s)
  | none =>
    match checkAll s.editor.store s.editor.form s.desk (s.editor.sequence.map (·.id)) with
    | (.error f, desk) => (.error (.ofCheck f), { s with desk := desk })
    | (.ok (), desk) =>
      let s := { s with desk := desk }
      match s.editor.store.compileWritten with
      | .error f => (.error f, s)
      | .ok records =>
        (.ok records, s.note (.info "workflow_compiled" [("record_count", .int records.length)]))

/-- Compiles the workflow and has its records stored. Nothing is tried twice. -/
def publish (s : Session σ) (backend : Backend σ) (credential : Credential) (formVersion : String) :
    Except PublishFault Receipt × Session σ :=
  match s.compile with
  | (.error f, s) => (.error (.compile f), s)
  | (.ok records, s) =>
    match credential with
    | .error f => (.error (.credential f), s)
    | .ok token =>
      let ((outcome, log), state) := backend records formVersion token s.desk.state
      let s := { s with desk := { s.desk with state := state, log := s.desk.log ++ log } }
      match outcome with
      | .error f => (.error (.save f), s)
      | .ok receipt =>
        (.ok receipt,
          s.note (.info "workflow_published"
            [("form_version_id", .text formVersion), ("record_count", .int records.length)]))

end Session

end FormFlow
