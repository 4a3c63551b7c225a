import FormFlow.Config.Data
import FormFlow.Graph.Fault
import FormFlow.Graph.Placement
import FormFlow.Graph.Reach
/-!
The store of a workflow's nodes and edges.

Nodes and edges are kept in the order in which they came in, and an index leads from the id of an edge to its ends.
`edges` lists the edges source by source, in the order of the nodes; `incoming` lists those into a node as they came
in. A copy takes its edges over in the order of `edges`.
-/

set_option autoImplicit false

namespace FormFlow

/-- Nodes, edges and the index of edge ids. -/
structure Store where
  nodes : List Node
  links : List Edge
  index : List (String × String × String)
  deriving DecidableEq, Repr

namespace Store

/-- The store without nodes. -/
def empty : Store := ⟨[], [], []⟩

def ids (s : Store) : List String := s.nodes.map (·.id)

def hasNode (s : Store) (id : String) : Bool := s.ids.contains id

def hasEdge (s : Store) (id : String) : Bool := (s.index.lookup id).isSome

def node? (s : Store) (id : String) : Option Node := s.nodes.find? fun n => n.id == id

/-- The edge between two nodes. -/
def between? (s : Store) (source target : String) : Option Edge :=
  s.links.find? fun e => e.source == source && e.target == target

/-- The edge that the index leads to. -/
def edge? (s : Store) (id : String) : Option Edge :=
  (s.index.lookup id).bind fun (source, target) => s.between? source target

/-- The node of an id, or the fault that there is none. -/
def node (s : Store) (id : String) : Except StructureFault Node :=
  match s.node? id with
  | some n => .ok n
  | none => .error (.unknownNode id)

/-- The edge of an id, or the fault that there is none. -/
def edge (s : Store) (id : String) : Except StructureFault Edge :=
  match s.edge? id with
  | some e => .ok e
  | none => .error (.unknownEdge id)

/-- All edges, source by source in the order of the nodes. -/
def edges (s : Store) : List Edge :=
  s.nodes.flatMap fun n => s.links.filter fun e => e.source == n.id

/-- The nodes that an id selects: the node of that id, else those named by single characters of it. -/
def selected (s : Store) (id : String) : List String :=
  if s.hasNode id then [id]
  else ((id.toList.map fun c => String.ofList [c]).eraseDups).filter s.hasNode

/-- The edges out of a node, as they came in. -/
def outgoing (s : Store) (id : String) : List Edge :=
  (s.selected id).flatMap fun n => s.links.filter fun e => e.source == n

/-- The edges into a node, as they came in. -/
def incoming (s : Store) (id : String) : List Edge :=
  (s.selected id).flatMap fun n => s.links.filter fun e => e.target == n

/-- The kind of a node, if it is there. -/
def kind? (s : Store) (id : String) : Option Kind := (s.node? id).map Node.kind

/-- The edges of a branch, those out of a Path first. -/
def branchEdges (s : Store) (group : String) : List Edge :=
  let members := s.edges.filter fun e => e.group == some group
  let fromPath := fun (e : Edge) => s.kind? e.source == some .path
  members.filter fromPath ++ members.filter fun e => !fromPath e

/-- The branches of a Path: the edge to the guard and the edge on from it, which share a group. -/
def pathBranches (s : Store) (path : String) : List (Edge × Edge) :=
  (s.outgoing path).filterMap fun first =>
    match first.group with
    | none => none
    | some group => ((s.outgoing first.target).find? fun e => e.group == some group).map (first, ·)

/-- The graph of the nodes and edges. -/
def graph (s : Store) : Digraph := graphOf s.nodes s.links

def ancestors (s : Store) (id : String) : List String := s.graph.ancestors id

def descendants (s : Store) (id : String) : List String := s.graph.descendants id

/-- The ancestors of a node that hang off the start: their results are there when the node runs. -/
def nodesBefore (s : Store) (id : String) : List String :=
  let fromStart := startId :: s.descendants startId
  (s.ancestors id).filter fromStart.contains

/-- The Find nodes whose results are there when a node runs. -/
def findsBefore (s : Store) (id : String) : List String :=
  (s.nodesBefore id).filter fun n => s.kind? n == some .find

def addNode (s : Store) (n : Node) : Except StructureFault Store :=
  if s.hasNode n.id then .error (.duplicateNode n.id)
  else .ok { s with nodes := s.nodes ++ [n] }

/-- Puts a node in the place of the one with its id. -/
def put (s : Store) (n : Node) : Store :=
  { s with nodes := s.nodes.map fun m => if m.id = n.id then n else m }

/-- Replaces the node with the same id; the kind has to stay. -/
def replaceNode (s : Store) (n : Node) : Except StructureFault Store := do
  let current ← s.node n.id
  if current.kind ≠ n.kind then throw (.kindChanged n.id current.kind n.kind)
  return s.put n

/-- Adds an edge between two nodes that are there and not connected yet. -/
def addEdge (s : Store) (e : Edge) : Except StructureFault Store := do
  let _ ← s.node e.source
  let _ ← s.node e.target
  if s.hasEdge e.id then throw (.duplicateEdge e.id)
  if (s.between? e.source e.target).isSome then throw (.alreadyConnected e.source e.target)
  return { s with links := s.links ++ [e], index := s.index ++ [(e.id, e.source, e.target)] }

/-- Takes ids out of the index one by one, up to the first that is not there. -/
def dropIds (index : List (String × String × String)) :
    List String → Except StructureFault Unit × List (String × String × String)
  | [] => (.ok (), index)
  | id :: rest =>
    if (index.lookup id).isSome then dropIds (index.filter fun (k, _) => k != id) rest
    else (.error (.unindexedEdge id), index)

/-- Removes a node and the edges that touch it, and returns these. The index is cleared first, and stays as far as it
was cleared if an edge is missing in it. -/
def removeNode (s : Store) (id : String) : Except StructureFault (List Edge) × Store :=
  match s.node id with
  | .error f => (.error f, s)
  | .ok _ =>
    let removed := s.incoming id ++ s.outgoing id
    match dropIds s.index (removed.map (·.id)) with
    | (.error f, index) => (.error f, { s with index := index })
    | (.ok (), index) =>
      (.ok removed,
        { nodes := s.nodes.filter fun n => n.id != id
          links := s.links.filter fun e => e.source != id && e.target != id
          index := index })

/-- The store after a node was removed. -/
def withoutNode (s : Store) (id : String) : Except StructureFault Store :=
  match s.removeNode id with
  | (.ok _, t) => .ok t
  | (.error f, _) => .error f

/-- Removes an edge and returns it. -/
def removeEdge (s : Store) (id : String) : Except StructureFault (Edge × Store) := do
  let e ← s.edge id
  return (e,
    { s with
      links := s.links.filter fun f => !(f.source == e.source && f.target == e.target)
      index := s.index.filter fun (k, _) => k != e.id })

/-- A copy: the same nodes and edges, the edges taken over source by source. -/
def copy (s : Store) : Store := { s with links := s.edges }

/-- Runs a change on a copy, which takes the store's place if the change succeeds. -/
def transact {ε α : Type} (s : Store) (change : Store → Except ε (α × Store)) : Except ε (α × Store) :=
  change s.copy

/-- The store that holds the two sentinels only. -/
def withSentinels : Store :=
  { empty with
    nodes := [Node.unplaced startId (.default .start) .origin, Node.unplaced finishId (.default .finish) ⟨0.0, 400.0⟩] }

/-- Gives every node its placement. -/
def recompute (s : Store) : Except Digraph.PlacementFault Store := do
  let placements ← Placement.assign s.nodes s.edges
  return { s with nodes := s.nodes.map fun n =>
    match placements.lookup n.id with
    | some p => p.apply n
    | none => n }

end Store

end FormFlow
