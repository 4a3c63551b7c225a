import FormFlow.Collaborator
import FormFlow.Editor.Basic
import FormFlow.Graph.Connection
/-!
Committing a change of a workflow.

A change is made on a copy of the graph. Loops whose collection the change put out of reach lose it, every node is
placed anew, and only then does the copy take the graph's place: a change that fails leaves the graph as it was.
-/

set_option autoImplicit false

namespace FormFlow

/-- Why a command of the editor failed. -/
inductive EditFault where
  | graph (fault : StructureFault)
  | config (node : String) (fault : Config.Fault)
  | rejected (reason : Rejection) (source target : String)
  | collaborator (fault : CollaboratorFault)
  | placement (fault : Digraph.PlacementFault)
  /-- A branch is to be removed whose group has not the two edges of a branch. -/
  | brokenGroup (size : Nat)
  /-- All the tokens that were drawn give ids that are taken. -/
  | tokensExhausted
  deriving DecidableEq, Repr

/-- The wording of a group that is no branch. -/
def EditFault.groupMessage (size : Nat) : String :=
  if size < 2 then "not enough values to unpack (expected 2, got " ++ toString size ++ ")"
  else "too many values to unpack (expected 2)"

/-- Lifts a fault of the graph. -/
def EditFault.ofStructure {α : Type} : Except StructureFault α → Except EditFault α
  | .ok a => .ok a
  | .error f => .error (.graph f)

/-- A Loop with a collection, and whether the collection comes before it. -/
structure LoopReference where
  loop : String
  find : String
  isValid : Bool
  deriving DecidableEq, Repr

namespace Store

/-- The references of Loops to their collections. -/
def loopReferences (s : Store) : List LoopReference :=
  s.nodes.filterMap fun n =>
    n.config.collection.map fun find => ⟨n.id, find, (s.findsBefore n.id).contains find⟩

/-- Whether a reference is stale: it is not valid, and its Find is gone or the same reference was valid before. -/
def isStale (s : Store) (before : List LoopReference) (r : LoopReference) : Bool :=
  !r.isValid && (!s.hasNode r.find || before.contains { r with isValid := true })

def staleReferences (s : Store) (before : List LoopReference) : List LoopReference :=
  s.loopReferences.filter (s.isStale before)

/-- The store with the collection of a Loop cleared. -/
def clearCollection (s : Store) (loop : String) : Store :=
  { s with nodes := s.nodes.map fun n =>
    if n.id = loop then { n with config := n.config.withoutCollection } else n }

/-- The warning about a reference that is cleared. -/
def warningOf (s : Store) (r : LoopReference) : Warning :=
  ⟨((s.node? r.loop).map Node.name).getD r.loop, r.loop, r.find⟩

/-- Clears the stale references and warns about each. -/
def repair (s : Store) (before : List LoopReference) : Store × List Warning :=
  let stale := s.staleReferences before
  (stale.foldl (fun t r => t.clearCollection r.loop) s, stale.map s.warningOf)

/-- Makes a change on a copy, repairs it and places its nodes. -/
def commit (s : Store) (change : Store → Except EditFault Store) : Except EditFault (List Warning × Store) :=
  s.transact fun draft =>
    match change draft with
    | .error f => .error f
    | .ok changed =>
      let (repaired, warnings) := changed.repair s.loopReferences
      match repaired.recompute with
      | .error f => .error (.placement f)
      | .ok placed => .ok (warnings, placed)

end Store

end FormFlow
