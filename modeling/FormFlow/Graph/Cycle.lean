import FormFlow.Graph.Counting
import FormFlow.Graph.Digraph
/-!
The search for a cycle, depth first.

The search keeps the path from a root to the node it stands on, each node with the children that were not followed
yet, and the nodes that are finished. A child on the path closes a cycle: the part of the path from that child on.
-/

set_option autoImplicit false

namespace FormFlow.Digraph

/-- The path of the search, the current node first, with the children that are still to be followed. -/
abbrev Trail := List (String × List String)

/-- The nodes that were met: those on the path and those that are finished. -/
def met (trail : Trail) (finished : List String) : List String :=
  trail.map (·.1) ++ finished

/-- The nodes of the path from `closing` on to the current one, in path order. -/
def cycleFrom (closing : String) (trail : Trail) : List String :=
  (closing :: ((trail.map (·.1)).takeWhile (· ≠ closing)).reverse)

/-- Follows the next child, goes back from a finished node, or turns to the next root. -/
def searchCycle (g : Digraph) (finished : List String) : (trail : Trail) → (roots : List String) →
    Option (List String)
  | [], [] => none
  | [], root :: roots =>
    if _h : root ∈ g.nodes ∧ root ∉ finished then searchCycle g finished [(root, g.children root)] roots
    else searchCycle g finished [] roots
  | (n, []) :: trail, roots => searchCycle g (n :: finished) trail roots
  | (n, c :: rest) :: trail, roots =>
    if c ∈ ((n, rest) :: trail).map (·.1) then some (cycleFrom c ((n, rest) :: trail))
    else if _h : c ∈ g.nodes ∧ c ∉ finished then
      searchCycle g finished ((c, g.children c) :: (n, rest) :: trail) roots
    else searchCycle g finished ((n, rest) :: trail) roots
  termination_by trail roots =>
    ((g.nodes.filter (· ∉ met trail finished)).length, Graph.total (trail.map fun (_, rest) => rest.length + 1), roots.length)
  decreasing_by
    · refine Prod.Lex.left _ _ (Graph.length_filter_lt ?_ _h.1 ?_ ?_) <;> grind [met]
    · exact Prod.Lex.right _ (Prod.Lex.right _ (by simp))
    · rw [Graph.length_filter_congr (q := fun x => decide (x ∉ met ((n, []) :: trail) finished))
        (fun x => by grind [met])]
      exact Prod.Lex.right _ (Prod.Lex.left _ _ (by simp))
    · refine Prod.Lex.left _ _ (Graph.length_filter_lt (a := c) ?_ _h.1 ?_ ?_) <;> grind [met]
    · exact Prod.Lex.right _ (Prod.Lex.left _ _ (by simp))

/-- The nodes of a cycle in path order, if the graph has one. -/
def findCycle (g : Digraph) : Option (List String) :=
  searchCycle g [] [] g.nodes

end FormFlow.Digraph
