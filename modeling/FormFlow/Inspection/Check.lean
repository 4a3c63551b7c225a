import FormFlow.Inspection.Basic
import FormFlow.Schema.Desk
/-!
Checking a node at a desk: the inspection, with the fields that it asks for.
-/

set_option autoImplicit false

namespace FormFlow

/-- Why a node was not found fit to be saved. -/
inductive CheckFault where
  | graph (fault : StructureFault)
  | invalid (node : InvalidNode)
  | collaborator (fault : CollaboratorFault)
  deriving DecidableEq, Repr

namespace Inspection

def verdict (n : Node) : Option NodeProblem → Except CheckFault Unit
  | none => .ok ()
  | some p => .error (.invalid ⟨n.id, n.name, p⟩)

/-- Carries an inspection out; at most one object's fields are asked for. -/
def run {σ : Type} (n : Node) (d : Desk σ) : Inspection → Except CheckFault Unit × Desk σ
  | .settled p => (verdict n p, d)
  | .byFields object judge =>
    match d.fields object with
    | (.ok fields, d) => (verdict n (judge fields), d)
    | (.error f, d) => (.error (.collaborator f), d)

end Inspection

namespace Store

variable {σ : Type}

/-- Checks the node of an id. -/
def check (s : Store) (form : List (String × FormField)) (id : String) (d : Desk σ) :
    Except CheckFault Unit × Desk σ :=
  match s.node id with
  | .error f => (.error (.graph f), d)
  | .ok n => (s.inspect form n).run n d

end Store

end FormFlow
