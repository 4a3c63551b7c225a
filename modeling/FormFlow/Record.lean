import FormFlow.Config.Compiled
import FormFlow.Graph.Store
/-!
Compiled records: what a workflow hands to the service that runs it.

Every node becomes one record with its compiled configuration, the parent that runs first, the nodes that come next,
and its order and label. Records are listed in their order. A node other than a sentinel has to touch an edge.
-/

set_option autoImplicit false

namespace FormFlow

/-- One compiled node. -/
structure Record where
  nodeId : String
  kind : Kind
  config : Members
  previous : Option String
  next : List String
  order : Nat
  label : String
  deriving DecidableEq, Repr

namespace Record

def toValue (r : Record) : Value :=
  .record [
    ("node_id", .text r.nodeId),
    ("action_type", .text r.kind.code),
    ("config", .record r.config),
    ("previous_node_id", Value.ofText? r.previous),
    ("next_node_ids", Value.texts r.next),
    ("order", .int r.order),
    ("label", .text r.label)]

/-- The record as plain data, if its configuration can be written. -/
def dump (r : Record) : Except DumpFault Value := dumpWith (Members.values r.config) r.toValue

/-- Records as plain data, one after the other, if all of them can be written. -/
def dumpAll (rs : List Record) : Except DumpFault (List Value) := rs.mapM dump

/-- Why a graph has no records. -/
inductive Fault where
  | isolated (name id : String)
  | unplaced (fault : Digraph.PlacementFault)
  deriving DecidableEq, Repr

/-- The wording of an isolated node. -/
def isolatedMessage (name id : String) : String :=
  "Node " ++ name ++ " (" ++ id ++ ") is not connected to the workflow. Connect or delete it before saving."

end Record

namespace Store

/-- Whether a node other than a sentinel touches no edge. -/
def isIsolated (s : Store) (n : Node) : Bool :=
  !n.kind.isSentinel && (s.incoming n.id).isEmpty && (s.outgoing n.id).isEmpty

/-- The first isolated node. -/
def isolated? (s : Store) : Option Node := s.nodes.find? s.isIsolated

/-- Ids in the order of their placements. -/
def sortedBy (placements : List (String × Placement)) (ids : List String) : List String :=
  let order := fun id => ((placements.lookup id).map (·.order)).getD 0
  ids.mergeSort fun a b => order a ≤ order b

def recordOf (s : Store) (placements : List (String × Placement)) (n : Node) (p : Placement) : Record :=
  { nodeId := n.id
    kind := n.kind
    config := n.config.toRecord
    previous := (sortedBy placements ((s.incoming n.id).map (·.source))).head?
    next := sortedBy placements ((s.outgoing n.id).map (·.target)).eraseDups
    order := p.order
    label := p.label }

/-- The values of any shape that are written when the nodes are compiled. -/
def exported (s : Store) : List Value := s.nodes.flatMap (·.config.exported)

/-- The records of the nodes in their order. -/
def compile (s : Store) : Except Record.Fault (List Record) :=
  match s.isolated? with
  | some n => .error (.isolated n.name n.id)
  | none =>
    match Placement.assign s.nodes s.edges with
    | .error f => .error (.unplaced f)
    | .ok placements =>
      .ok (placements.filterMap fun (id, p) => (s.node? id).map fun n => s.recordOf placements n p)

end Store

end FormFlow
