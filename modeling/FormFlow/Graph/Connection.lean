import FormFlow.Graph.Store
import FormFlow.Graph.Tokens
/-!
The rules for a new connection.

`planConnection` decides whether an edge may be drawn between two nodes. For a Path it plans a branch: a Condition that
guards the way to the target, and the two edges of the branch under a group of their own. Nothing is changed; a plan
says what has to be added.
-/

set_option autoImplicit false

namespace FormFlow

/-- Why a connection is rejected. -/
inductive Rejection where
  | unknownNode (id : String)
  | selfLoop
  | intoStart
  | outOfFinish
  | cycle
  | successorTaken
  | branchExists
  | branchLimit
  deriving DecidableEq, Repr

/-- At most this many branches leave a Path. -/
def branchLimit : Nat := 2

namespace Rejection

def code : Rejection → String
  | unknownNode _ => "unknown_node"
  | selfLoop => "self_loop"
  | intoStart => "into_start"
  | outOfFinish => "out_of_end"
  | cycle => "cycle"
  | successorTaken => "successor_taken"
  | branchExists => "branch_exists"
  | branchLimit => "branch_limit"

def message : Rejection → String
  | unknownNode id => "Node '" ++ id ++ "' does not exist."
  | selfLoop => "Cannot connect a node to itself."
  | intoStart => "The start node cannot have incoming connections."
  | outOfFinish => "The end node cannot have outgoing connections."
  | cycle => "Cannot create a connection that forms a cycle."
  | successorTaken => "Each node can have only one outgoing connection, except Path nodes."
  | branchExists => "This Path node is already connected to the target node."
  | branchLimit => "Path nodes can have at most " ++ toString FormFlow.branchLimit ++ " outgoing branches."

end Rejection

/-- What an accepted connection adds: a guard, for a Path, and edges. -/
structure ConnectionPlan where
  edges : List Edge
  guard : Option Node
  deriving DecidableEq, Repr

/-- Why there is no plan: a rule, or a supply of tokens that hands out taken ones only. -/
inductive PlanFault where
  | rejected (reason : Rejection)
  | tokensExhausted
  deriving DecidableEq, Repr

namespace ConnectionPlan

/-- The store with the guard and the edges added. -/
def apply (p : ConnectionPlan) (s : Store) : Except StructureFault Store := do
  let s ← match p.guard with
    | some g => s.addNode g
    | none => pure s
  p.edges.foldlM Store.addEdge s

end ConnectionPlan

namespace Store

/-- The first rule that forbids an edge between two nodes. -/
def rejection? (s : Store) (source target : String) : Option Rejection :=
  if !s.hasNode source then some (.unknownNode source)
  else if !s.hasNode target then some (.unknownNode target)
  else if source = target then some .selfLoop
  else if target = startId then some .intoStart
  else if source = finishId then some .outOfFinish
  else if s.graph.wouldClose source target then some .cycle
  else if s.kind? source ≠ some .path then
    if (s.outgoing source).isEmpty then none else some .successorTaken
  else if (s.pathBranches source).any fun (_, second) => second.target == target then some .branchExists
  else if (s.outgoing source).length ≥ branchLimit then some .branchLimit
  else none

/-- The groups that edges belong to. -/
def groups (s : Store) : List String := s.edges.filterMap (·.group)

/-- A branch from a Path to a target: a guard and two edges, under ids and a group that are not taken. -/
def planBranch (s : Store) (path target : Node) (tokens : TokenSupply) : Option (ConnectionPlan × TokenSupply) := do
  let number := (s.pathBranches path.id).length + 1
  let (guardId, tokens) ← tokens.freshName (fun t => path.id ++ "_cond_" ++ toString number ++ "_" ++ t) s.ids
  let (group, tokens) ← tokens.freshName (fun t => "branch_" ++ t) s.groups
  let config : Config := .condition ⟨.rules, "", .empty, some path.id, some target.id⟩
  let guard := Node.unplaced guardId config (path.position.midpoint target.position)
  let edges := [
    Edge.mk (Edge.idFor path.id guardId) path.id guardId (some group),
    Edge.mk (Edge.idFor guardId target.id) guardId target.id (some group)]
  return (⟨edges, some guard⟩, tokens)

/-- What has to be added to connect two nodes, and the tokens that are left. -/
def planConnection (s : Store) (source target : String) (tokens : TokenSupply) :
    Except PlanFault (ConnectionPlan × TokenSupply) :=
  match s.rejection? source target, s.node? source, s.node? target with
  | some r, _, _ => .error (.rejected r)
  | none, some p, some t =>
    if p.kind = .path then
      match s.planBranch p t tokens with
      | some plan => .ok plan
      | none => .error .tokensExhausted
    else .ok (⟨[Edge.plain source target], none⟩, tokens)
  | none, _, _ => .error (.rejected (.unknownNode source))

end Store

end FormFlow
