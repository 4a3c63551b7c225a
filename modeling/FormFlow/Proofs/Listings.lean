import FormFlow.Proofs.Depths
/-!
What placing does not look at.

The walk follows the children of each node in their order and otherwise asks only which nodes are parents, so graphs
with the same children are walked alike (`walk_congr`), in whatever order they list their nodes and the arcs of
different nodes. Where every node but the opening and the closing one has a parent, the first walk visits them all and
the sweep, which goes by the order of the nodes, has nothing to take up (`Rooted.visitsOf_eq_walk`). So a workflow in
which every node between the sentinels has an edge into it is placed alike however it is listed
(`Built.assign_eq_of_relists`).
-/

set_option autoImplicit false

namespace FormFlow

/-- A sum does not depend on the order of its numbers. -/
theorem Graph.total_perm {before after : List Nat} (h : before.Perm after) : total before = total after := by
  induction h with
  | nil => rfl
  | cons n _ ih => rw [total_cons, total_cons, ih]
  | swap n m rest => rw [total_cons, total_cons, total_cons, total_cons, Nat.add_left_comm]
  | trans _ _ ih ih' => exact ih.trans ih'

namespace Digraph

variable {g g' : Digraph} {opening closing n : String} {visits sweep : List String}

/-! ## Graphs with the same children -/

theorem mem_arcs_of_children (h : ∀ n, g'.children n = g.children n) (a : String × String) :
    a ∈ g'.arcs ↔ a ∈ g.arcs := by
  rw [← mem_children (n := a.1) (c := a.2), h, mem_children]

/-- The parents of a node are the same, perhaps in another order. -/
theorem parents_perm_of_children (h : ∀ n, g'.children n = g.children n) (n : String) :
    (g'.parents n).Perm (g.parents n) :=
  (((List.perm_ext_iff_of_nodup g'.arcs_nodup g.arcs_nodup).mpr (mem_arcs_of_children h)).filter _).map _

theorem isReady_congr (h : ∀ n, g'.children n = g.children n) (visits : List String) (n : String) :
    g'.isReady visits n = g.isReady visits n := by
  have hparents := parents_perm_of_children h n
  have harrived : g'.arrived visits n = g.arrived visits n := Graph.total_perm (hparents.map _)
  rw [isReady, isReady, harrived, hparents.length_eq]

theorem ready_congr (h : ∀ n, g'.children n = g.children n) (closing : String) (visits : List String) (n : String) :
    g'.ready closing visits n = g.ready closing visits n := by
  simp only [ready, h, isReady_congr h]

/-- **Graphs with the same children are walked alike.** -/
theorem walk_congr (h : ∀ n, g'.children n = g.children n) (closing : String) (visits stack : List String) :
    g'.walk closing visits stack = g.walk closing visits stack := by
  fun_induction Digraph.walk g closing visits stack with
  | case1 visits => rw [Digraph.walk]
  | case2 visits n stack ih => rw [Digraph.walk, ready_congr h, ih]

/-- Where every inner node has a parent, the walk from the opening node visits them all. -/
theorem Rooted.mem_walk (hg : g.Rooted opening closing)
    (hparents : ∀ n ∈ g.nodes, n ≠ opening → n ≠ closing → g.parents n ≠ []) (hn : n ∈ g.nodes) (hne : n ≠ closing) :
    n ∈ g.walk closing [] [opening] := by
  refine hg.walking.walk.covers hg.acyclic hg.closing_leaf (fun m hm hclosing hroot => ?_) n hn hne
  by_cases hopening : m = opening
  · exact hopening ▸ (suffix_walk_singleton g closing [] opening).subset List.mem_cons_self
  · exact absurd hroot (hparents m hm hopening hclosing)

/-- Where every inner node has a parent, the sweep takes nothing up. -/
theorem Rooted.visitsOf_eq_walk (hg : g.Rooted opening closing)
    (hparents : ∀ n ∈ g.nodes, n ≠ opening → n ≠ closing → g.parents n ≠ []) (hsweep : ∀ n ∈ sweep, n ∈ g.nodes) :
    g.visitsOf opening closing sweep = .ok (g.walk closing [] [opening]) := by
  have hpassed : ∀ n ∈ sweep, n = closing ∨ n ∈ g.walk closing [] [opening] := fun n hn =>
    or_iff_not_imp_left.mpr fun hne => hg.mem_walk hparents (hsweep n hn) hne
  rw [visitsOf, ← List.append_nil sweep, sweepUp_append_of_mem [] hpassed, sweepUp]

end Digraph

namespace Placement

variable {nodes nodes' : List Node} {edges edges' : List Edge}

/-! ## Workflows with the same run -/

/-- Two listings of a workflow that make the same run: they have the same ids, and the same children of each node. -/
structure SameRun (nodes nodes' : List Node) (edges edges' : List Edge) : Prop where
  mem_ids : ∀ id, id ∈ nodes'.map (·.id) ↔ id ∈ nodes.map (·.id)
  children : ∀ id, (graphOf nodes' edges').children id = (graphOf nodes edges).children id
  run : ∀ run, RunOf nodes edges run → RunOf nodes' edges' run

/-- Nodes with the same run are seated alike as far as their nodes look alike. -/
theorem SameRun.exists_seats {α : Type} (h : SameRun nodes nodes' edges edges') (look : Seat → α)
    (hplaceable : Placeable nodes edges) (hplaceable' : Placeable nodes' edges')
    (hlook : ∀ n ∈ nodes, ∀ m ∈ nodes', n.id = m.id → ∀ order level, look ⟨n, order, level⟩ = look ⟨m, order, level⟩) :
    ∃ seats seats', assign nodes edges = .ok (labelled [] seats) ∧ assign nodes' edges' = .ok (labelled [] seats') ∧
      seats.map look = seats'.map look := by
  obtain ⟨run, levels, hrunOf, hrun, hlevels, hassign⟩ := hplaceable.exists_assign
  obtain ⟨run', levels', hrunOf', hrun', hlevels', hassign'⟩ := hplaceable'.exists_assign
  obtain rfl := (h.run run hrunOf).unique hrunOf'
  have hlevel : ∀ n ∈ nodes, (levels.lookup n.id).getD 0 = (levels'.lookup n.id).getD 0 := fun n hn =>
    (hplaceable.bounded.leveling hlevels).unique (hplaceable'.bounded.leveling hlevels')
      (fun id => by rw [hplaceable.nodes_graph, hplaceable'.nodes_graph, h.mem_ids])
      (fun a => (Digraph.mem_arcs_of_children h.children a).symm)
      (hplaceable.nodes_graph ▸ List.mem_map_of_mem hn)
  refine ⟨_, _, hassign, hassign', map_seats_congr (fun s => s.node.id) ?_ fun s hs s' hs' hid => ?_⟩
  · rw [seatsIn_names levels hplaceable.ids_nodup hrun.nodup fun _ => hplaceable.mem_run hrun,
      seatsIn_names levels' hplaceable'.ids_nodup hrun.nodup fun _ => hplaceable'.mem_run hrun']
  · obtain ⟨n, hn, rfl⟩ := mem_seatsIn hs
    obtain ⟨m, hm, rfl⟩ := mem_seatsIn hs'
    dsimp only at hid
    rw [hlevel n hn, hid]
    exact hlook n hn m hm hid _ _

end Placement

namespace Store

variable {s t : Store} {id : String}

/-! ## Listings -/

/-- The node without its place and labels. -/
def bare (n : Node) : Node := .unplaced n.id n.config n.position

/-- The second store lists the same workflow: it has the same nodes up to their order in the list and their places and
labels, and the same edges out of each, in the same order. -/
structure Relists (t s : Store) : Prop where
  nodes : (t.nodes.map bare).Perm (s.nodes.map bare)
  rows : ∀ id ∈ s.ids, (t.edges.filter fun e => e.source == id) = s.edges.filter fun e => e.source == id

/-- Every node between the sentinels has an edge into it. -/
def Connected (s : Store) : Prop :=
  ∀ id ∈ s.ids, id ≠ startId → id ≠ finishId → ∃ e ∈ s.edges, e.target = id

namespace Relists

theorem ids_perm (h : Relists t s) : t.ids.Perm s.ids := by
  have hids := h.nodes.map (·.id)
  rwa [List.map_map, List.map_map] at hids

/-- Both stores have one configuration for each node. -/
theorem config_eq (h : Relists t s) (hs : s.WellFormed) {n m : Node} (hn : n ∈ s.nodes) (hm : m ∈ t.nodes)
    (hid : n.id = m.id) : n.config = m.config := by
  obtain ⟨k, hk, hbare⟩ := List.mem_map.mp (h.nodes.mem_iff.mp (List.mem_map_of_mem (f := bare) hm))
  have hkm : k.id = m.id := (congrArg Node.id hbare :)
  have hkn : k = n := List.inj_on_of_nodup_map hs.ids_nodup hk hn (hkm.trans hid.symm)
  exact hkn ▸ (congrArg Node.config hbare :)

theorem children_eq (h : Relists t s) (hs : s.WellFormed) (ht : t.WellFormed) (id : String) :
    (graphOf t.nodes t.edges).children id = (graphOf s.nodes s.edges).children id := by
  rw [children_graphOf ht.edges_nodup, children_graphOf hs.edges_nodup]
  by_cases hid : id ∈ s.ids
  · rw [h.rows id hid]
  · have hnone : ∀ {u : Store}, u.WellFormed → id ∉ u.ids → (u.edges.filter fun e => e.source == id) = [] := by
      intro u hu hnot
      refine List.filter_eq_nil_iff.mpr fun e he hsource => hnot ?_
      exact beq_iff_eq.mp hsource ▸ (hu.ends_mem e (hu.mem_edges.mp he)).1
    rw [hnone hs hid, hnone ht fun hmem => hid (h.ids_perm.mem_iff.mp hmem)]

/-- Listings of a connected workflow make the same run. -/
theorem sameRun (h : Relists t s) (hs : s.WellFormed) (ht : t.WellFormed)
    (hplaceable : Placement.Placeable s.nodes s.edges) (hplaceable' : Placement.Placeable t.nodes t.edges)
    (hconnected : s.Connected) : Placement.SameRun s.nodes t.nodes s.edges t.edges := by
  have hchildren := h.children_eq hs ht
  have hparents : ∀ id ∈ (graphOf s.nodes s.edges).nodes, id ≠ startId → id ≠ finishId →
      (graphOf s.nodes s.edges).parents id ≠ [] := by
    intro id hid hstart hfinish
    rw [hplaceable.nodes_graph] at hid
    obtain ⟨e, he, rfl⟩ := hconnected id hid hstart hfinish
    exact List.ne_nil_of_mem (Digraph.mem_parents.mpr (mem_arcs_graphOf.mpr ⟨e, he, rfl⟩))
  have hparents' : ∀ id ∈ (graphOf t.nodes t.edges).nodes, id ≠ startId → id ≠ finishId →
      (graphOf t.nodes t.edges).parents id ≠ [] := by
    intro id hid hstart hfinish hnil
    rw [hplaceable'.nodes_graph] at hid
    refine hparents id ?_ hstart hfinish (hnil ▸ Digraph.parents_perm_of_children hchildren id).nil_eq.symm
    rw [hplaceable.nodes_graph]
    exact h.ids_perm.mem_iff.mp hid
  refine ⟨fun id => h.ids_perm.mem_iff, hchildren, ?_⟩
  rintro _ ⟨visits, hvisits, hnodup, rfl⟩
  refine ⟨visits, ?_, hnodup, rfl⟩
  rw [hplaceable'.bounded.rooted.visitsOf_eq_walk hparents' fun _ => hplaceable'.mem_sweep.mp,
    Digraph.walk_congr hchildren, ← hvisits,
    hplaceable.bounded.rooted.visitsOf_eq_walk hparents fun _ => hplaceable.mem_sweep.mp]

end Relists

/-- **The placement of a connected workflow depends on its edges only.** Two stores that can be built, that the check
accepts and that list the same workflow are placed alike, if every node between the sentinels has an edge into it. -/
theorem Built.assign_eq_of_relists (hs : s.Built) (hcheck : s.checkStructure = .ok ()) (ht : t.Built)
    (hcheck' : t.checkStructure = .ok ()) (h : t.Relists s) (hconnected : s.Connected) :
    ∃ placements, Placement.assign s.nodes s.edges = .ok placements ∧
      Placement.assign t.nodes t.edges = .ok placements := by
  have hwell := hs.wellFormed
  have hplaceable := hwell.placeable (checkStructure_eq_ok_iff.mp hcheck).1
  have hplaceable' := ht.wellFormed.placeable (checkStructure_eq_ok_iff.mp hcheck').1
  have hsame := h.sameRun hwell ht.wellFormed hplaceable hplaceable' hconnected
  obtain ⟨seats, seats', hassign, hassign', hfaces⟩ := hsame.exists_seats Placement.Seat.face hplaceable
    hplaceable' fun n hn m hm hid order level => by
      simp only [Placement.Seat.face, Placement.Seat.rank, Node.kind, hid, h.config_eq hwell hn hm hid]
  exact ⟨_, hassign, by rw [hassign', Placement.labelled_congr hfaces]⟩

/-- A Path with two branches, one to a Find and one to the end, where the Find leads too. -/
def withChoice (p : Point) : Store where
  nodes := [
    .unplaced startId (.default .start) p,
    .unplaced "path_1" (.default .path) p,
    .unplaced "cond_1" (.default .condition) p,
    .unplaced "find_1" (.default .find) p,
    .unplaced "cond_2" (.default .condition) p,
    .unplaced finishId (.default .finish) p]
  links := [
    .plain startId "path_1",
    ⟨"e1", "path_1", "cond_1", some "branch_1"⟩,
    ⟨"e2", "cond_1", "find_1", some "branch_1"⟩,
    ⟨"e3", "path_1", "cond_2", some "branch_2"⟩,
    ⟨"e4", "cond_2", finishId, some "branch_2"⟩,
    .plain "find_1" finishId]
  index := [("estart-path_1", startId, "path_1"), ("e1", "path_1", "cond_1"), ("e2", "cond_1", "find_1"),
    ("e3", "path_1", "cond_2"), ("e4", "cond_2", finishId), ("efind_1-end", "find_1", finishId)]

/-- The same workflow, listed from its end and with an order for the Find. -/
def withChoiceReversed (p : Point) : Store where
  nodes := [
    .unplaced finishId (.default .finish) p,
    .unplaced "cond_2" (.default .condition) p,
    { Node.unplaced "find_1" (.default .find) p with order := some (-3), label := "first" },
    .unplaced "cond_1" (.default .condition) p,
    .unplaced "path_1" (.default .path) p,
    .unplaced startId (.default .start) p]
  links := [
    .plain "find_1" finishId,
    ⟨"e4", "cond_2", finishId, some "branch_2"⟩,
    ⟨"e2", "cond_1", "find_1", some "branch_1"⟩,
    ⟨"e1", "path_1", "cond_1", some "branch_1"⟩,
    ⟨"e3", "path_1", "cond_2", some "branch_2"⟩,
    .plain startId "path_1"]
  index := [("efind_1-end", "find_1", finishId), ("e4", "cond_2", finishId), ("e2", "cond_1", "find_1"),
    ("e1", "path_1", "cond_1"), ("e3", "path_1", "cond_2"), ("estart-path_1", startId, "path_1")]

theorem built_withChoice (p : Point) : (withChoice p).Built ∧ (withChoiceReversed p).Built := by
  have hnodes : (withChoice p).nodes.foldlM Store.addNode .empty =
      .ok { withChoice p with links := [], index := [] } := by
    cbv
  have hedges : (withChoice p).links.foldlM Store.addEdge { withChoice p with links := [], index := [] } =
      .ok (withChoice p) := by
    cbv
  have hnodes' : (withChoiceReversed p).nodes.foldlM Store.addNode .empty =
      .ok { withChoiceReversed p with links := [], index := [] } := by
    cbv
  have hedges' : (withChoiceReversed p).links.foldlM Store.addEdge
      { withChoiceReversed p with links := [], index := [] } = .ok (withChoiceReversed p) := by
    cbv
  exact ⟨.of_lists hnodes hedges, .of_lists hnodes' hedges'⟩

theorem checkStructure_withChoice (p : Point) :
    (withChoice p).checkStructure = .ok () ∧ (withChoiceReversed p).checkStructure = .ok () := by
  constructor <;> cbv

theorem relists_withChoice (p : Point) : (withChoiceReversed p).Relists (withChoice p) where
  nodes := List.reverse_perm ((withChoice p).nodes.map bare)
  rows := by
    show ∀ id ∈ [startId, "path_1", "cond_1", "find_1", "cond_2", finishId], _
    simp only [List.forall_mem_cons]
    exact ⟨by cbv, by cbv, by cbv, by cbv, by cbv, by cbv, nofun⟩

theorem connected_withChoice (p : Point) : (withChoice p).Connected := by
  simp only [Connected, (built_withChoice p).1.wellFormed.mem_edges]
  have hlinks : (withChoice p).links = (withChoice .origin).links := rfl
  show ∀ id ∈ [startId, "path_1", "cond_1", "find_1", "cond_2", finishId], _
  rw [hlinks]
  decide

theorem assign_eq_withChoice :
    (withChoice .origin).Built ∧ (withChoice .origin).checkStructure = .ok () ∧
      (withChoiceReversed .origin).Built ∧ (withChoiceReversed .origin).checkStructure = .ok () ∧
      (withChoiceReversed .origin).Relists (withChoice .origin) ∧ (withChoice .origin).Connected ∧
      ∃ placements,
        Placement.assign (withChoice .origin).nodes (withChoice .origin).edges = .ok placements ∧
        Placement.assign (withChoiceReversed .origin).nodes (withChoiceReversed .origin).edges = .ok placements := by
  obtain ⟨hbuilt, hbuilt'⟩ := built_withChoice .origin
  obtain ⟨hcheck, hcheck'⟩ := checkStructure_withChoice .origin
  have hrelists := relists_withChoice .origin
  have hconnected := connected_withChoice .origin
  exact ⟨hbuilt, hcheck, hbuilt', hcheck', hrelists, hconnected,
    Built.assign_eq_of_relists hbuilt hcheck hbuilt' hcheck' hrelists hconnected⟩

end Store

end FormFlow
