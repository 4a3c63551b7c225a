import FormFlow.Graph.Counting
import FormFlow.Graph.Levels
/-!
The order of a graph's nodes: a depth-first numbering that waits for all parents.

Visiting a node counts as an arrival at each of its children. A child is ready when as many visits arrived as it has
parents; ready children are visited next, in the order of the arcs. The walk begins at the opening node. Nodes that it
does not reach are taken up afterwards in the order of a sweep, each one that waits for nothing. The closing node is
kept out and numbered last.
-/

set_option autoImplicit false

namespace FormFlow.Digraph

/-- How many of the visits arrived at a node from one of its parents. -/
def arrived (g : Digraph) (visits : List String) (n : String) : Nat :=
  Graph.total ((g.parents n).map fun p => visits.count p)

/-- Whether a node waits for no further arrival. -/
def isReady (g : Digraph) (visits : List String) (n : String) : Bool :=
  g.arrived visits n == (g.parents n).length

/-- The children of the node visited last that are ready by that visit. -/
def ready (g : Digraph) (closing : String) (visits : List String) (n : String) : List String :=
  (g.children n).filter fun c => c ≠ closing && g.isReady visits c

/-- The nodes that wait for further arrivals. -/
def waiting (g : Digraph) (visits : List String) : List String :=
  g.nodes.filter fun n => g.arrived visits n < (g.parents n).length

theorem arrived_mono (g : Digraph) (visits : List String) (v n : String) :
    g.arrived visits n ≤ g.arrived (v :: visits) n := by
  unfold arrived
  induction g.parents n with
  | nil => simp
  | cons p ps ih =>
    simp only [List.map_cons, Graph.total_cons]
    have : visits.count p ≤ (v :: visits).count p := List.count_le_count_cons
    omega

theorem arrived_lt_of_mem_children {g : Digraph} {v n : String} (h : n ∈ g.children v) (visits : List String) :
    g.arrived visits n < g.arrived (v :: visits) n := by
  have hp : v ∈ g.parents n := by grind
  unfold arrived
  revert hp
  induction g.parents n with
  | nil => simp
  | cons p ps ih =>
    intro hp
    simp only [List.map_cons, Graph.total_cons]
    by_cases hv : v = p
    · subst hv
      have hmono : Graph.total (ps.map fun p => visits.count p) ≤
          Graph.total (ps.map fun p => (v :: visits).count p) := by
        clear ih hp
        induction ps with
        | nil => simp
        | cons q qs ih =>
          have : visits.count q ≤ (v :: visits).count q := List.count_le_count_cons
          simp only [List.map_cons, Graph.total_cons]
          omega
      have : (v :: visits).count v = visits.count v + 1 := List.count_cons_self
      omega
    · have : visits.count p ≤ (v :: visits).count p := List.count_le_count_cons
      have := ih (by grind)
      omega

/-- A visit makes as many nodes stop waiting as become ready, or more. -/
theorem length_waiting_add_length_ready_le (g : Digraph) (closing : String) (visits : List String) (v : String) :
    (g.waiting (v :: visits)).length + (g.ready closing (v :: visits) v).length ≤ (g.waiting visits).length := by
  refine Graph.length_filter_add_le ?_ _ _ ((g.children_nodup v).filter _) ?_ ?_ ?_
  · intro x hx
    have := arrived_mono g visits v x
    simp at hx ⊢
    omega
  · intro x hx
    exact g.children_subset ((List.mem_filter.1 hx).1)
  · intro x hx
    have hc := arrived_lt_of_mem_children ((List.mem_filter.1 hx).1) visits
    simp [ready, isReady] at hx ⊢
    omega
  · intro x hx
    simp [ready, isReady] at hx ⊢
    omega

/-- Visits the nodes on a stack and all that become ready by it. The visits are held the latest first. -/
def walk (g : Digraph) (closing : String) (visits : List String) : (stack : List String) → List String
  | [] => visits
  | n :: stack => walk g closing (n :: visits) (g.ready closing (n :: visits) n ++ stack)
  termination_by stack => (g.waiting visits).length + stack.length
  decreasing_by
    have := length_waiting_add_length_ready_le g closing visits n
    simp only [List.length_append, List.length_cons]
    omega

/-- Takes up the nodes of a sweep that were not visited and wait for nothing. -/
def sweepUp (g : Digraph) (closing : String) (visits : List String) :
    (sweep : List String) → Except PlacementFault (List String)
  | [] => .ok visits
  | n :: rest =>
    if n = closing ∨ n ∈ visits then sweepUp g closing visits rest
    else if n ∉ g.nodes then .error (.unplaced n)
    else if g.isReady visits n then sweepUp g closing (g.walk closing visits [n]) rest
    else sweepUp g closing visits rest

/-- The number of a node: how many visits there were when it was visited last. -/
def numberIn (visits : List String) (n : String) : Nat :=
  visits.length - visits.idxOf n

/-- The order of every node that the walk from `opening` or the sweep visits, `closing` last. -/
def orders (g : Digraph) (opening closing : String) (sweep : List String) :
    Except PlacementFault (List (String × Nat)) := do
  let visits := if opening ∈ g.nodes then g.walk closing [] [opening] else []
  let visits ← g.sweepUp closing visits sweep
  let numbered := visits.eraseDups.reverse.map fun n => (n, numberIn visits n)
  return numbered ++ if closing ∈ g.nodes then [(closing, visits.length + 1)] else []

end FormFlow.Digraph
