import FormFlow.Graph.Node
import FormFlow.Graph.Orders
/-!
The placement of a workflow's nodes: order, level and labels.

A placement is a function of the nodes and edges alone and is computed anew after every change. Nodes that the walk
from the start does not reach are swept up by the orders they had before, so that placing a placed workflow changes
nothing.
-/

set_option autoImplicit false

namespace FormFlow

/-- Where a node stands in a workflow. -/
structure Placement where
  order : Nat
  level : Nat
  label : String
  displayLabel : String
  deriving DecidableEq, Repr

/-- The graph of a workflow's nodes and edges. -/
def graphOf (nodes : List Node) (edges : List Edge) : Digraph :=
  .ofLists (nodes.map (·.id)) (edges.map fun e => (e.source, e.target))

namespace Placement

/-- What a sweep looks at: nodes that have an order first, by that order, then by their place in the list. -/
structure SweepKey where
  isNew : Bool
  order : Int
  place : Nat

/-- Whether one key comes no later than another. -/
def SweepKey.le (a b : SweepKey) : Bool :=
  if a.isNew != b.isNew then !a.isNew
  else if a.order ≠ b.order then a.order < b.order
  else a.place ≤ b.place

/-- The nodes by id, with the place of each in the list. Of two nodes of one id the later one counts. -/
def byId (nodes : List Node) : List (String × Node × Nat) :=
  Members.ofPairs (nodes.mapIdx fun i n => (n.id, n, i))

/-- The ids of the nodes in the order of the sweep. -/
def sweep (nodes : List Node) : List String :=
  let keyed := (byId nodes).map fun (id, n, i) => (SweepKey.mk n.order.isNone (n.order.getD 0) i, id)
  (keyed.mergeSort fun a b => a.1.le b.1).map (·.2)

/-- A node with its number and level. -/
structure Seat where
  node : Node
  order : Nat
  level : Nat

/-- The label of a node that comes after the given ones: its stem, its number among those of its kind and level, and
its level. -/
def labelAfter (earlier : List Seat) (s : Seat) : String :=
  let number := earlier.countP (fun t => t.level == s.level && t.node.kind == s.node.kind) + 1
  s.node.kind.labelStem ++ "_" ++ toString number ++ "_Level" ++ toString s.level

/-- The display label of a node that comes after the given ones: guards are numbered for each Path, other nodes show
their kind. -/
def displayLabelAfter (earlier : List Seat) (s : Seat) : String :=
  match s.node.config.guardedPath with
  | some path =>
    "Condition " ++ toString (earlier.countP (fun t => t.node.config.guardedPath == some path) + 1)
  | none => s.node.kind.displayName

/-- The placements of nodes in their order, after the given ones. -/
def labelled (earlier : List Seat) : List Seat → List (String × Placement)
  | [] => []
  | s :: rest =>
    (s.node.id, ⟨s.order, s.level, labelAfter earlier s, displayLabelAfter earlier s⟩) ::
      labelled (earlier ++ [s]) rest

/-- The number and level of a node. -/
def seat (orders levels : List (String × Nat)) (id : String) (node : Node) :
    Except Digraph.PlacementFault Seat :=
  match orders.lookup id, levels.lookup id with
  | some order, some level => .ok ⟨node, order, level⟩
  | _, _ => .error (.unplaced id)

/-- The placement of every node, in their order. -/
def assign (nodes : List Node) (edges : List Edge) : Except Digraph.PlacementFault (List (String × Placement)) := do
  let g := graphOf nodes edges
  let levels ← g.levels finishId
  let orders ← g.orders startId finishId (sweep nodes)
  let seats ← (byId nodes).mapM fun (id, n, _) => seat orders levels id n
  return labelled [] (seats.mergeSort fun a b => a.order ≤ b.order)

def apply (p : Placement) (n : Node) : Node :=
  { n with order := some p.order, level := some p.level, label := p.label, displayLabel := p.displayLabel }

end Placement

end FormFlow
