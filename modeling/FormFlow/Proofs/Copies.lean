import FormFlow.Proofs.Connection
import FormFlow.Proofs.Interruptions
import FormFlow.Proofs.Recompile
/-!
A copy and its original.

A copy lists the edges into a node in an order of its own, but those out of each node as the original does
(`Mirrors`). Nothing that a store is asked looks at more than that (`Mirrors.indistinguishable`), and every change that
does not remove a node with an edge to itself comes to the same on both and leaves mirrors (`Mirrors.alter`). So a copy
is not told from its original, at once or after changes to both, without edges from a node to itself, or with such
edges as long as their nodes stay (`indistinguishable_copy`, `spares_of_loopless`).
-/

set_option autoImplicit false

namespace FormFlow.Store

/-- Makes changes in turn. Those that fail are passed over. -/
def alterAll (s : Store) (changes : List Alteration) : Store := changes.foldl (fun s a => (s.alter a).2) s

/-- None of the changes, made in turn, removes a node that has an edge to itself then. -/
def Spares (s : Store) : List Alteration → Prop
  | [] => True
  | a :: rest => ¬ s.Tears a ∧ (s.alter a).2.Spares rest

/-- What the stores are asked they answer alike: nodes and edges, branches, reachability as sets, and the outcomes of
the check of the structure, of placing, of compiling and of planning a connection. -/
structure Indistinguishable (t s : Store) : Prop where
  nodes : t.nodes = s.nodes
  edges : t.edges = s.edges
  hasEdge : ∀ id, t.hasEdge id = s.hasEdge id
  pathBranches : ∀ id, t.pathBranches id = s.pathBranches id
  ancestors : ∀ id other, other ∈ t.ancestors id ↔ other ∈ s.ancestors id
  descendants : ∀ id other, other ∈ t.descendants id ↔ other ∈ s.descendants id
  nodesBefore : ∀ id other, other ∈ t.nodesBefore id ↔ other ∈ s.nodesBefore id
  checkStructure : t.checkStructure = s.checkStructure
  assign : Placement.assign t.nodes t.edges = Placement.assign s.nodes s.edges
  compile : t.compile = s.compile
  planConnection : ∀ source target tokens, t.planConnection source target tokens = s.planConnection source target tokens

/-- The stores have the same nodes and the same index, and list the edges out of each node alike. -/
structure Mirrors (t s : Store) : Prop where
  nodes : t.nodes = s.nodes
  index : t.index = s.index
  rows : ∀ id, (t.links.filter fun e => e.source == id) = s.links.filter fun e => e.source == id

variable {s t : Store} {id : String} {a : Alteration} {changes : List Alteration}

/-! ## Changes in turn -/

/-- A change makes no edge but the one that it adds. -/
theorem mem_links_alter {e : Edge} (he : e ∈ (s.alter a).2.links) : e ∈ s.links ∨ a = .addEdge e := by
  revert he
  cases a with
  | removeNode id =>
    intro he
    rw [alter_removeNode] at he
    rcases s.removeNode_cases id with ⟨-, hlinks⟩ | ⟨-, hlinks⟩
    · exact Or.inl (hlinks ▸ he)
    · exact Or.inl (List.mem_filter.mp (hlinks ▸ he)).1
  | addNode n =>
    refine adopt_induction (P := fun t => e ∈ t.links → _) Or.inl fun removed t ht he => ?_
    obtain ⟨u, hu, ⟨⟩⟩ := eq_ok_of_map ht
    exact Or.inl (links_addNode hu ▸ he)
  | replaceNode n =>
    refine adopt_induction (P := fun t => e ∈ t.links → _) Or.inl fun removed t ht he => ?_
    obtain ⟨u, hu, ⟨⟩⟩ := eq_ok_of_map ht
    obtain ⟨-, rfl⟩ := replaceNode_eq_ok hu
    exact Or.inl he
  | addEdge f =>
    refine adopt_induction (P := fun t => e ∈ t.links → _) Or.inl fun removed t ht he => ?_
    obtain ⟨u, hu, ⟨⟩⟩ := eq_ok_of_map ht
    exact ((mem_links_addEdge hu).mp he).imp_right fun heq => by rw [heq]
  | removeEdge id =>
    refine adopt_induction (P := fun t => e ∈ t.links → _) Or.inl fun removed t ht he => ?_
    obtain ⟨⟨f, u⟩, hu, ⟨⟩⟩ := eq_ok_of_map ht
    obtain ⟨-, rfl⟩ := removeEdge_eq_ok hu
    exact Or.inl (List.mem_filter.mp he).1
  | recompute =>
    refine adopt_induction (P := fun t => e ∈ t.links → _) Or.inl fun removed t ht he => ?_
    obtain ⟨u, hu, ⟨⟩⟩ := eq_ok_of_map ht
    exact Or.inl ((alike_recompute hu).mem_links.mp he)

/-- Where no edge runs from a node to itself and none is added, no node with such an edge is removed. -/
theorem spares_of_loopless (hs : ∀ e ∈ s.links, e.source ≠ e.target)
    (hadded : ∀ e, .addEdge e ∈ changes → e.source ≠ e.target) : s.Spares changes := by
  induction changes generalizing s with
  | nil => exact trivial
  | cons a changes ih =>
    refine ⟨fun ⟨e, he, hloop, _⟩ => hs e he hloop, ih (fun e he => ?_) fun e he => ?_⟩
    · rcases mem_links_alter he with he | rfl
      · exact hs e he
      · exact hadded e List.mem_cons_self
    · exact hadded e (List.mem_cons_of_mem _ he)

theorem Intact.alterAll (hs : s.Intact) (hspares : s.Spares changes) : (s.alterAll changes).Intact := by
  induction changes generalizing s with
  | nil => exact hs
  | cons a changes ih => exact ih (hs.alter hspares.1) hspares.2

/-! ## Mirrors -/

theorem WellFormed.mirrors_copy (hs : s.WellFormed) : Mirrors s.copy s := by
  refine ⟨rfl, rfl, fun id => ?_⟩
  by_cases hid : id ∈ s.ids
  · exact hs.filter_edges hid
  · -- No edge comes from where no node is.
    have hnone : ∀ {links : List Edge}, (∀ e ∈ links, e ∈ s.links) → (links.filter fun e => e.source == id) = [] := by
      intro links hlinks
      refine List.filter_eq_nil_iff.mpr fun e he hsource => hid ?_
      exact beq_iff_eq.mp hsource ▸ (hs.ends_mem e (hlinks e he)).1
    show (s.edges.filter fun e => e.source == id) = s.links.filter fun e => e.source == id
    rw [hnone fun e he => hs.mem_edges.mp he, hnone fun e he => he]

namespace Mirrors

/-- The same edges out of each node are the same edges. -/
theorem links (h : Mirrors t s) : t.links.Perm s.links := by
  refine List.perm_iff_count.mpr fun e => ?_
  have hrow : (e.source == e.source) = true := beq_self_eq_true _
  rw [← List.count_filter (p := fun f : Edge => f.source == e.source) hrow, h.rows,
    List.count_filter (p := fun f : Edge => f.source == e.source) hrow]

theorem rearranged (h : Mirrors t s) : Rearranged t s where
  nodes := h.nodes
  links := h.links
  edges := by
    rw [Store.edges, Store.edges, h.nodes]
    exact List.flatMap_congr fun n _ => h.rows n.id

theorem alike (h : Mirrors t s) : Alike t s := ⟨by rw [kinds, kinds, h.nodes], h.links, h.index⟩

theorem wellFormed (h : Mirrors t s) (hs : s.WellFormed) : t.WellFormed := (h.alike.part hs).wellFormed hs

/-! ## What a store is asked -/

theorem hasNode_eq (h : Mirrors t s) (id : String) : t.hasNode id = s.hasNode id := by
  rw [hasNode, hasNode, h.rearranged.ids_eq]

theorem node_eq (h : Mirrors t s) (id : String) : t.node id = s.node id := by
  rw [node, node, h.rearranged.node?_eq]

theorem hasEdge_eq (h : Mirrors t s) (id : String) : t.hasEdge id = s.hasEdge id := by
  rw [hasEdge, hasEdge, h.index]

theorem between?_eq (h : Mirrors t s) (source target : String) :
    t.between? source target = s.between? source target := by
  have hrow : ∀ u : Store, u.between? source target =
      (u.links.filter fun e => e.source == source).find? fun e => e.target == target := by
    intro u
    rw [between?, List.find?_filter]
    exact congrArg (u.links.find? ·) (funext fun e => by rw [Bool.eq_iff_iff]; simp)
  rw [hrow, hrow, h.rows]

theorem edge_eq (h : Mirrors t s) (id : String) : t.edge id = s.edge id := by
  have hedge : t.edge? id = s.edge? id := by
    rw [edge?, edge?, h.index]
    exact congrArg _ (funext fun ends => h.between?_eq ends.1 ends.2)
  rw [edge, edge, hedge]

theorem outgoing_eq (h : Mirrors t s) (id : String) : t.outgoing id = s.outgoing id := by
  rw [outgoing, outgoing, h.rearranged.selected_eq]
  exact List.flatMap_congr fun n _ => h.rows n

theorem pathBranches_eq (h : Mirrors t s) (id : String) : t.pathBranches id = s.pathBranches id := by
  simp only [pathBranches, h.outgoing_eq]

theorem mem_ancestors (h : Mirrors t s) (id other : String) : other ∈ t.ancestors id ↔ other ∈ s.ancestors id := by
  rw [ancestors, ancestors, Digraph.mem_ancestors, Digraph.mem_ancestors, h.rearranged.reaches_iff]

theorem mem_descendants (h : Mirrors t s) (id other : String) :
    other ∈ t.descendants id ↔ other ∈ s.descendants id := by
  rw [descendants, descendants, Digraph.mem_descendants, Digraph.mem_descendants, h.rearranged.reaches_iff]

theorem mem_nodesBefore (h : Mirrors t s) (id other : String) :
    other ∈ t.nodesBefore id ↔ other ∈ s.nodesBefore id := by
  simp only [nodesBefore, List.mem_filter, List.contains_iff_mem, List.mem_cons, h.mem_ancestors, h.mem_descendants]

/-- The graphs of the stores have the same nodes, and the same children of each. -/
theorem children_eq (h : Mirrors t s) (hs : s.WellFormed) (id : String) :
    t.graph.children id = s.graph.children id := by
  rw [graph, children_graphOf (h.wellFormed hs).ends_nodup, h.rows, graph, children_graphOf hs.ends_nodup]

theorem nodes_graph_eq (h : Mirrors t s) (hs : s.WellFormed) : t.graph.nodes = s.graph.nodes := by
  rw [(h.wellFormed hs).nodes_graph, hs.nodes_graph, h.rearranged.ids_eq]

theorem checkStructure_eq (h : Mirrors t s) (hs : s.WellFormed) : t.checkStructure = s.checkStructure := by
  have hgroups : t.groups = s.groups := by rw [groups, groups, h.rearranged.edges]
  have hsize : t.groupSize = s.groupSize := by
    funext group
    rw [groupSize, groupSize, hgroups]
  have hsentinel : t.checkSentinel = s.checkSentinel := by
    funext id kind
    rw [checkSentinel, checkSentinel, h.rearranged.node?_eq]
  have hbranch : t.checkBranch = s.checkBranch := by
    funext path first
    simp only [checkBranch, h.node_eq, h.outgoing_eq, hsize]
  have hout : t.checkOutgoing = s.checkOutgoing := by
    funext n
    simp only [checkOutgoing, h.outgoing_eq, hbranch]
  have hcycle : t.graph.findCycle = s.graph.findCycle :=
    Digraph.findCycle_congr (h.nodes_graph_eq hs) (h.children_eq hs)
  simp only [checkStructure, hsentinel, h.nodes, (h.rearranged.incoming_perm startId).isEmpty_eq, h.outgoing_eq, hcycle,
    hout, hgroups, hsize]

theorem wouldClose_eq (h : Mirrors t s) (hs : s.WellFormed) (source target : String) :
    t.graph.wouldClose source target = s.graph.wouldClose source target := by
  have hreached : (t.graph.reachedFrom target).contains source = (s.graph.reachedFrom target).contains source := by
    rw [Bool.eq_iff_iff, List.contains_iff_mem, List.contains_iff_mem, Digraph.mem_reachedFrom,
      Digraph.mem_reachedFrom, h.nodes_graph_eq hs, h.rearranged.reaches_iff]
  rw [Digraph.wouldClose, Digraph.wouldClose, h.nodes_graph_eq hs, hreached]

theorem planConnection_eq (h : Mirrors t s) (hs : s.WellFormed) (source target : String) (tokens : TokenSupply) :
    t.planConnection source target tokens = s.planConnection source target tokens := by
  have hkind : t.kind? = s.kind? := by
    funext id
    rw [kind?, kind?, h.rearranged.node?_eq]
  have hrejection : t.rejection? source target = s.rejection? source target := by
    simp only [rejection?, h.hasNode_eq, h.wouldClose_eq hs, hkind, h.outgoing_eq, h.pathBranches_eq]
  have hbranch : t.planBranch = s.planBranch := by
    funext path target tokens
    simp only [planBranch, h.pathBranches_eq, h.rearranged.ids_eq, groups, h.rearranged.edges]
  simp only [planConnection, hrejection, h.rearranged.node?_eq, hbranch]

/-- **Mirrors cannot be told apart.** -/
theorem indistinguishable (h : Mirrors t s) (hs : s.WellFormed) : t.Indistinguishable s where
  nodes := h.nodes
  edges := h.rearranged.edges
  hasEdge := h.hasEdge_eq
  pathBranches := h.pathBranches_eq
  ancestors := h.mem_ancestors
  descendants := h.mem_descendants
  nodesBefore := h.mem_nodesBefore
  checkStructure := h.checkStructure_eq hs
  assign := by rw [h.nodes, h.rearranged.edges]
  compile := h.rearranged.compile_eq hs
  planConnection := h.planConnection_eq hs

/-! ## Changes -/

theorem addNode (h : Mirrors t s) (n : Node) : Table.Agree Mirrors (t.addNode n) (s.addNode n) := by
  rw [Store.addNode, Store.addNode, h.hasNode_eq]
  split
  · exact .error _
  · exact .ok ⟨congrArg (· ++ [n]) h.nodes, h.index, h.rows⟩

theorem replaceNode (h : Mirrors t s) (n : Node) : Table.Agree Mirrors (t.replaceNode n) (s.replaceNode n) := by
  rw [Store.replaceNode, Store.replaceNode, h.node_eq]
  refine .bind_left _ fun current => ?_
  split
  · exact .error _
  · exact .ok ⟨congrArg (List.map _) h.nodes, h.index, h.rows⟩

theorem addEdge (h : Mirrors t s) (e : Edge) : Table.Agree Mirrors (t.addEdge e) (s.addEdge e) := by
  rw [Store.addEdge, Store.addEdge, h.node_eq, h.node_eq, h.hasEdge_eq, h.between?_eq]
  refine .bind_left _ fun _ => .bind_left _ fun _ => ?_
  dsimp only
  split
  · exact .error _
  · split
    · exact .error _
    · refine .ok ⟨h.nodes, congrArg (· ++ [_]) h.index, fun id => ?_⟩
      rw [List.filter_append, List.filter_append, h.rows]

/-- Taking out edges in both keeps the rows the same. -/
theorem rows_filter (h : Mirrors t s) (keep : Edge → Bool) (id : String) :
    ((t.links.filter keep).filter fun e => e.source == id) = (s.links.filter keep).filter fun e => e.source == id := by
  rw [List.filter_comm, h.rows, List.filter_comm]

theorem removeEdge (h : Mirrors t s) (id : String) :
    Table.Agree (fun x y => x.1 = y.1 ∧ Mirrors x.2 y.2) (t.removeEdge id) (s.removeEdge id) := by
  rw [Store.removeEdge, Store.removeEdge, h.edge_eq]
  refine .bind_left _ fun e => .ok ⟨rfl, h.nodes, ?_, h.rows_filter _⟩
  exact congrArg (List.filter _) h.index

theorem recompute (h : Mirrors t s) : Table.Agree Mirrors t.recompute s.recompute := by
  rw [Store.recompute, Store.recompute, h.nodes, h.rearranged.edges]
  exact .bind_left _ fun _ => .ok ⟨rfl, h.index, h.rows⟩

/-- Removing a node without an edge to itself takes the same edges, in whatever order they are listed. -/
theorem removeNode (h : Mirrors t s) (hs : s.WellFormed) (hi : s.Indexed)
    (hloop : ∀ e ∈ s.links, e.source = id → e.target ≠ id) :
    Table.Agree List.Perm (t.removeNode id).1 (s.removeNode id).1 ∧
      Mirrors (t.removeNode id).2 (s.removeNode id).2 := by
  have hids := h.rearranged.ids_eq
  by_cases hid : id ∈ s.ids
  · have hloop' : ∀ e ∈ t.links, e.source = id → e.target ≠ id := fun e he => hloop e (h.links.mem_iff.mp he)
    obtain ⟨s', hok, hs'⟩ := hi.exists_removeNode hs hid hloop
    obtain ⟨t', hok', ht'⟩ := (hi.of_alike h.alike).exists_removeNode (h.wellFormed hs) (hids ▸ hid) hloop'
    obtain ⟨-, hnodes, hlinks, hdrop⟩ := withoutNode_eq_ok hs'
    obtain ⟨-, hnodes', hlinks', hdrop'⟩ := withoutNode_eq_ok ht'
    have htaken := (h.rearranged.incoming_perm id).append (h.rearranged.outgoing_perm id)
    rw [hok, hok']
    refine ⟨.ok htaken, ?_, ?_, fun other => ?_⟩
    · rw [hnodes, hnodes', h.nodes]
    · rw [dropIds_eq_ok hdrop, dropIds_eq_ok hdrop', h.index]
      simp only [(htaken.map _).mem_iff]
    · rw [hlinks, hlinks']
      exact h.rows_filter _ other
  · rw [removeNode_of_not_mem hid, removeNode_of_not_mem (hids ▸ hid)]
    exact ⟨.error _, h⟩

theorem adopt {ε : Type} (h : Mirrors t s) (fault : ε → Alteration.Fault) {x y : Except ε (List Edge × Store)}
    (hxy : Table.Agree (fun x y => x.1.Perm y.1 ∧ Mirrors x.2 y.2) x y) :
    Table.Agree List.Perm (t.adopt fault x).1 (s.adopt fault y).1 ∧
      Mirrors (t.adopt fault x).2 (s.adopt fault y).2 := by
  cases hxy with
  | ok hboth => exact ⟨.ok hboth.1, hboth.2⟩
  | error f => exact ⟨.error _, h⟩

/-- **A change comes to the same on mirrors and leaves mirrors**, unless it removes a node with an edge to itself. -/
theorem alter (h : Mirrors t s) (hs : s.WellFormed) (hi : s.Indexed) (ha : ¬ s.Tears a) :
    Table.Agree List.Perm (t.alter a).1 (s.alter a).1 ∧ Mirrors (t.alter a).2 (s.alter a).2 := by
  have hplain : ∀ u v, Mirrors u v → ([] : List Edge).Perm [] ∧ Mirrors u v := fun _ _ huv => ⟨.refl _, huv⟩
  cases a with
  | addNode n => exact h.adopt _ ((h.addNode n).map hplain)
  | replaceNode n => exact h.adopt _ ((h.replaceNode n).map hplain)
  | removeNode id =>
    have hloop : ∀ e ∈ s.links, e.source = id → e.target ≠ id := fun e he hsource htarget =>
      ha ⟨e, he, hsource.trans htarget.symm, by rw [hsource]⟩
    obtain ⟨houtcome, hmirrors⟩ := h.removeNode hs hi hloop
    rw [alter_removeNode, alter_removeNode]
    exact ⟨houtcome.mapError _, hmirrors⟩
  | addEdge e => exact h.adopt _ ((h.addEdge e).map hplain)
  | removeEdge id =>
    refine h.adopt _ ((h.removeEdge id).map ?_)
    rintro ⟨e, t'⟩ ⟨f, s'⟩ ⟨rfl, hmirrors⟩
    exact ⟨.refl _, hmirrors⟩
  | recompute => exact h.adopt _ (h.recompute.map hplain)

/-- The same goes for changes in turn, as long as they spare such nodes. -/
theorem alterAll (h : Mirrors t s) (hs : s.Intact) (hspares : s.Spares changes) :
    Mirrors (t.alterAll changes) (s.alterAll changes) := by
  induction changes generalizing t s with
  | nil => exact h
  | cons a changes ih =>
    obtain ⟨hwell, hindexed⟩ := hs.indexed
    obtain ⟨ha, hrest⟩ := hspares
    exact ih (h.alter hwell hindexed ha).2 (hs.alter ha) hrest

end Mirrors

/-! ## Copies -/

/-- **A copy cannot be told from its original**, neither at once nor after the same changes to both. -/
theorem indistinguishable_copy (hs : s.Intact) (hspares : s.Spares changes) :
    (s.copy.alterAll changes).Indistinguishable (s.alterAll changes) := by
  have hmirrors := hs.indexed.1.mirrors_copy.alterAll hs hspares
  exact hmirrors.indistinguishable (hs.alterAll hspares).indexed.1

/-- A node that two edges lead to, the first of them out of the later node. -/
def joined : Store :=
  Store.empty.alterAll [.addNode (.unplaced "a" (.default .find) .origin),
    .addNode (.unplaced "b" (.default .find) .origin), .addNode (.unplaced "c" (.default .find) .origin),
    .addEdge (.plain "b" "c"), .addEdge (.plain "a" "c")]

theorem intact_joined : joined.Intact :=
  Intact.empty.alterAll (spares_of_loopless nofun (by simp [Edge.plain]))

/-- The copy lists the edges into the node the other way round, and shows the same after the node is gone, too. -/
theorem indistinguishable_joined :
    (joined.incoming "c").map (·.source) = ["b", "a"] ∧ (joined.copy.incoming "c").map (·.source) = ["a", "b"] ∧
      joined.copy.Indistinguishable joined ∧
      (joined.copy.alterAll [.removeNode "c", .recompute]).Indistinguishable
        (joined.alterAll [.removeNode "c", .recompute]) := by
  have hloopless : ∀ e ∈ joined.links, e.source ≠ e.target := by decide
  exact ⟨rfl, rfl, indistinguishable_copy intact_joined (show joined.Spares [] from trivial),
    indistinguishable_copy intact_joined (spares_of_loopless hloopless (by simp))⟩

end FormFlow.Store
