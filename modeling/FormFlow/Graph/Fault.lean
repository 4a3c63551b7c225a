import FormFlow.Kind
/-!
Why a change of a workflow's graph is refused, and what is wrong with a graph as a whole.
-/

set_option autoImplicit false

namespace FormFlow

/-- A violated rule of the graph. -/
inductive StructureFault where
  | unknownNode (id : String)
  | unknownEdge (id : String)
  | duplicateNode (id : String)
  | duplicateEdge (id : String)
  | alreadyConnected (source target : String)
  | kindChanged (id : String) (before after : Kind)
  /-- The index of edge ids has lost an edge that is still in the graph. -/
  | unindexedEdge (id : String)
  | missingSentinel (id : String)
  | wrongSentinel (id : String) (kind : Kind)
  | secondSentinel (id : String) (kind : Kind)
  | intoStart
  | outOfFinish
  | cycle (ids : List String)
  | tooManySuccessors (id : String) (count : Nat)
  | tooManyBranches (path : String) (count limit : Nat)
  | unguardedBranch (path target : String)
  | guardOfWrongKind (path guard : String)
  | brokenBranch (guard : String)
  | wrongGroupSize (group : String) (size : Nat)
  | sentinelAdded (kind : Kind)
  | sentinelDeleted
  deriving DecidableEq, Repr

namespace StructureFault

def message : StructureFault → String
  | unknownNode id => "Unknown node '" ++ id ++ "'"
  | unknownEdge id => "Unknown edge '" ++ id ++ "'"
  | duplicateNode id => "Duplicate node ID '" ++ id ++ "'"
  | duplicateEdge id => "Duplicate edge ID '" ++ id ++ "'"
  | alreadyConnected source target => "Nodes '" ++ source ++ "' and '" ++ target ++ "' are already connected"
  | kindChanged id before after =>
    "Cannot change kind of node '" ++ id ++ "' from " ++ before.code ++ " to " ++ after.code
  | unindexedEdge id => "Edge '" ++ id ++ "' is not indexed"
  | missingSentinel id => "Graph is missing the '" ++ id ++ "' node"
  | wrongSentinel id kind => "Node '" ++ id ++ "' must be of kind " ++ kind.code
  | secondSentinel id kind =>
    "Node '" ++ id ++ "' cannot be of kind " ++ kind.code ++ "; only one " ++ kind.code ++ " node may exist"
  | intoStart => "The start node cannot have incoming connections"
  | outOfFinish => "The end node cannot have outgoing connections"
  | cycle ids => "Graph contains a cycle: " ++ " -> ".intercalate ids
  | tooManySuccessors id count =>
    "Node '" ++ id ++ "' has " ++ toString count ++ " outgoing connections; only Path nodes may branch"
  | tooManyBranches path count limit =>
    "Path node '" ++ path ++ "' has " ++ toString count ++ " branches; the limit is " ++ toString limit
  | unguardedBranch path target =>
    "Path node '" ++ path ++ "' connects to '" ++ target ++ "' without a branch condition"
  | guardOfWrongKind path guard =>
    "Branch of Path node '" ++ path ++ "' must go through a Condition node, not '" ++ guard ++ "'"
  | brokenBranch guard =>
    "Branch condition '" ++ guard ++ "' must continue its branch group with exactly one edge"
  | wrongGroupSize group size =>
    "Branch group '" ++ group ++ "' has " ++ toString size ++ " edges; expected exactly 2"
  | sentinelAdded kind => "A workflow has exactly one " ++ kind.code ++ " node; it cannot be added"
  | sentinelDeleted => "The start and end nodes cannot be deleted"

end StructureFault

end FormFlow
