import FormFlow.Collaborator
import FormFlow.Fields
import FormFlow.Log
/-!
Sources of field lists.

A source is asked for the fields of an object by name. Its answers may change from call to call: each call takes the
state of the source and gives the next one.
-/

set_option autoImplicit false

namespace FormFlow

/-- Why a source gave no fields. -/
inductive FetchFault where
  | collaborator (fault : CollaboratorFault)
  /-- A failure of any other kind, with what there is to say about it. -/
  | other (reason : String)
  deriving DecidableEq, Repr

/-- One answer of a source, and what was logged on the way. -/
structure FetchReply where
  outcome : Except FetchFault (List FieldInfo)
  log : List LogEntry

/-- A source with state `σ`. -/
abbrev SchemaSource (σ : Type) := σ → String → FetchReply × σ

namespace SchemaSource

variable {σ : Type}

/-- A refusal without a log. -/
def refuse (f : CollaboratorFault) : FetchReply := ⟨.error (.collaborator f), []⟩

/-- The fields of a fixed table. -/
def fixed (objects : ObjectFields) : SchemaSource σ := fun st object =>
  match objects.lookup object with
  | some fields => (⟨.ok fields, []⟩, st)
  | none => (refuse (.unknownObject object), st)

def absent : SchemaSource σ := fun st object => (refuse (.noSource object), st)

/-- The source that a document brings: its own objects, if it has any. -/
def ofObjects (objects : ObjectFields) : SchemaSource σ :=
  if objects.isEmpty then absent else fixed objects

end SchemaSource

end FormFlow
