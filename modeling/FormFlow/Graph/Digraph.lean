/-!
Directed graphs over named nodes.

Nodes and arcs keep the order in which they were added; adding one again changes nothing. The end points of an arc are
nodes of the graph.
-/

set_option autoImplicit false

namespace FormFlow

/-- Nodes and the arcs between them, each once and in the order of insertion. -/
structure Digraph where
  nodes : List String
  arcs : List (String × String)
  nodes_nodup : nodes.Nodup
  arcs_nodup : arcs.Nodup
  ends_mem : ∀ a ∈ arcs, a.1 ∈ nodes ∧ a.2 ∈ nodes

namespace Digraph

/-- The graph without nodes. -/
def empty : Digraph := ⟨[], [], .nil, .nil, nofun⟩

/-- The graph with a node added at the end, if it is new. -/
def addNode (g : Digraph) (n : String) : Digraph :=
  if h : n ∈ g.nodes then g
  else
    { g with
      nodes := g.nodes ++ [n]
      nodes_nodup := List.nodup_append.2 ⟨g.nodes_nodup, by simp, by grind⟩
      ends_mem := fun a ha => by have := g.ends_mem a ha; simp [this] }

theorem mem_addNode (g : Digraph) (n m : String) : m ∈ (g.addNode n).nodes ↔ m ∈ g.nodes ∨ m = n := by
  unfold addNode
  split <;> grind

@[simp] theorem arcs_addNode (g : Digraph) (n : String) : (g.addNode n).arcs = g.arcs := by
  unfold addNode
  split <;> rfl

/-- The graph with an arc added at the end, if it is new, after its end points. -/
def addArc (g : Digraph) (source target : String) : Digraph :=
  let g := (g.addNode source).addNode target
  if h : (source, target) ∈ g.arcs then g
  else
    { g with
      arcs := g.arcs ++ [(source, target)]
      arcs_nodup := List.nodup_append.2 ⟨g.arcs_nodup, by simp, by grind⟩
      ends_mem := fun a ha => by
        rcases List.mem_append.1 ha with ha | ha
        · exact g.ends_mem a ha
        · obtain rfl : a = (source, target) := by simpa using ha
          simp [g, mem_addNode] }

/-- The graph of a list of nodes and a list of arcs. -/
def ofLists (nodes : List String) (arcs : List (String × String)) : Digraph :=
  arcs.foldl (fun g a => g.addArc a.1 a.2) (nodes.foldl addNode empty)

/-- The targets of a node's arcs, in their order. -/
def children (g : Digraph) (n : String) : List String :=
  (g.arcs.filter fun a => a.1 == n).map (·.2)

/-- The sources of the arcs into a node, in their order. -/
def parents (g : Digraph) (n : String) : List String :=
  (g.arcs.filter fun a => a.2 == n).map (·.1)

@[grind =] theorem mem_children {g : Digraph} {n c : String} : c ∈ g.children n ↔ (n, c) ∈ g.arcs := by
  simp [children]

@[grind =] theorem mem_parents {g : Digraph} {n p : String} : p ∈ g.parents n ↔ (p, n) ∈ g.arcs := by
  simp [parents]

theorem children_nodup (g : Digraph) (n : String) : (g.children n).Nodup := by
  rw [children, List.nodup_iff_pairwise_ne, List.pairwise_map]
  refine (List.Pairwise.filter _ g.arcs_nodup).imp_of_mem ?_
  intro a b ha hb hne h
  exact hne (Prod.ext (by simp at ha hb; rw [ha.2, hb.2]) h)

theorem children_subset (g : Digraph) {n c : String} (h : c ∈ g.children n) : c ∈ g.nodes :=
  (g.ends_mem _ (mem_children.1 h)).2

/-- `n` reaches `m` along one arc or more. -/
inductive Reaches (g : Digraph) : String → String → Prop where
  | arc {n m : String} : (n, m) ∈ g.arcs → Reaches g n m
  | step {n k m : String} : (n, k) ∈ g.arcs → Reaches g k m → Reaches g n m

/-- No node reaches itself. -/
def Acyclic (g : Digraph) : Prop :=
  ∀ n, ¬ g.Reaches n n

end Digraph

end FormFlow
