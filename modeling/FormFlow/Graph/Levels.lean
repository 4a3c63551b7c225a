import FormFlow.Graph.Digraph
/-!
The levels of a graph's nodes.

`rounds` peels a graph: the first round holds the nodes without parents, each further round the nodes all of whose
parents were peeled before. The round of a node is the number of nodes on a longest path that ends in it. A node that
closes the graph is kept out and placed one level below its deepest parent, or below everything if it has none.
-/

set_option autoImplicit false

namespace FormFlow.Digraph

/-- Why nodes cannot be placed. -/
inductive PlacementFault where
  /-- The nodes that are still to be peeled lie on cycles or behind them. -/
  | cyclic
  /-- A node got no order or no level. -/
  | unplaced (id : String)
  deriving DecidableEq, Repr

/-- The nodes of a list that have no parent in it. -/
def peel (g : Digraph) (pending : List String) : List String :=
  pending.filter fun n => (g.parents n).all fun p => p ∉ pending

/-- The nodes of a list that have a parent in it. -/
def unpeeled (g : Digraph) (pending : List String) : List String :=
  pending.filter fun n => n ∉ g.peel pending

theorem length_unpeeled_lt {g : Digraph} {pending : List String} (h : g.peel pending ≠ []) :
    (g.unpeeled pending).length < pending.length := by
  obtain ⟨n, hn⟩ := List.exists_mem_of_ne_nil _ h
  simpa [unpeeled] using ⟨n, (List.mem_filter.1 hn).1, hn⟩

/-- The rounds in which a list of nodes is peeled, if no cycle stops it. -/
def rounds (g : Digraph) (pending : List String) : Option (List (List String)) :=
  if pending = [] then some []
  else if _h : g.peel pending = [] then none
  else (rounds g (g.unpeeled pending)).map (g.peel pending :: ·)
  termination_by pending.length
  decreasing_by exact length_unpeeled_lt _h

/-- The rounds with their numbers, from `first` on. -/
def numberRounds (first : Nat) : List (List String) → List (String × Nat)
  | [] => []
  | round :: rest => round.map (·, first) ++ numberRounds (first + 1) rest

/-- The levels of a list of parents, none if one of them has no level. -/
def levelsOf (levels : List (String × Nat)) (ns : List String) : Except PlacementFault (List Nat) :=
  ns.mapM fun n =>
    match levels.lookup n with
    | some level => .ok level
    | none => .error (.unplaced n)

/-- The level of every node, where `closing` is the node that closes the graph. -/
def levels (g : Digraph) (closing : String) : Except PlacementFault (List (String × Nat)) := do
  match g.rounds (g.nodes.filter (· ≠ closing)) with
  | none => throw .cyclic
  | some rounds =>
    let inner := numberRounds 1 rounds
    if closing ∈ g.nodes then
      let above ← levelsOf inner (g.parents closing)
      let deepest := if above.isEmpty then rounds.length else above.foldl max 0
      return inner ++ [(closing, deepest + 1)]
    else return inner

end FormFlow.Digraph
