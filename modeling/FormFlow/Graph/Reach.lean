import FormFlow.Graph.Counting
import FormFlow.Graph.Digraph
/-!
Reachability, and the test whether an arc would close a cycle.

`explore` visits every node of the graph that its work list leads to, each node once. Ancestors and descendants are
what it finds against and along the arcs.
-/

set_option autoImplicit false

namespace FormFlow.Digraph

/-- Visits the nodes on the work list and all that `next` leads to from there. Nodes outside the graph and nodes
that were seen before are passed over. -/
def explore (nodes : List String) (next : String → List String) (seen : List String) :
    List String → List String
  | [] => seen
  | v :: work =>
    if _h : v ∈ nodes ∧ v ∉ seen then explore nodes next (v :: seen) (next v ++ work)
    else explore nodes next seen work
  termination_by work => ((nodes.filter (· ∉ seen)).length, work.length)
  decreasing_by
    · refine Prod.Lex.left _ _ (Graph.length_filter_lt ?_ _h.1 ?_ ?_)
      · grind
      · grind
      · grind
    · exact Prod.Lex.right _ (by simp)

/-- The nodes that a node reaches, itself included. -/
def reachedFrom (g : Digraph) (n : String) : List String :=
  explore g.nodes g.children [] [n]

/-- The nodes that reach a node, itself included. -/
def leadingTo (g : Digraph) (n : String) : List String :=
  explore g.nodes g.parents [] [n]

/-- The other nodes that a node reaches. -/
def descendants (g : Digraph) (n : String) : List String :=
  (g.reachedFrom n).filter (· ≠ n)

/-- The other nodes that reach a node. -/
def ancestors (g : Digraph) (n : String) : List String :=
  (g.leadingTo n).filter (· ≠ n)

/-- Whether an arc from `source` to `target` would close a cycle. An arc from a node to itself does; an arc with an
end outside the graph does not. -/
def wouldClose (g : Digraph) (source target : String) : Bool :=
  if source = target then true
  else if source ∈ g.nodes ∧ target ∈ g.nodes then (g.reachedFrom target).contains source
  else false

end FormFlow.Digraph
