import FormFlow.Proofs.Recompute
/-!
The records that a store compiles to.

Placing numbers the nodes in an order in which every edge ascends (`PlacedAlong`); nothing but a graph that opens with
the start is needed for that. The records stand in this order, and what a record says of its neighbours is sorted by
it. So the records of a store list every node once, number themselves by their places, and name the neighbours that the
edges lead to and from (`Recorded`, `PlacedAlong.recorded`).
-/

set_option autoImplicit false

namespace FormFlow

/-- The place of a node in a list of records, from zero. -/
def Record.place (records : List Record) (id : String) : Nat := (records.map (·.nodeId)).idxOf id

namespace Store

variable {s : Store} {placements : List (String × Placement)} {run ids : List String} {records : List Record}
  {id p : String} {r : Record}

/-- The records are those of a store: each node has one, which carries its kind and its compiled configuration. They
are numbered from one in the order of the list, and edges ascend in it. The nodes that come next are the targets of the
edges out of the node, each once and in the order of the list; the previous node is the first source of an edge into
it, if there is any. -/
structure Recorded (s : Store) (records : List Record) : Prop where
  ids_perm : (records.map (·.nodeId)).Perm s.ids
  carries : ∀ r ∈ records, ∃ n ∈ s.nodes, n.id = r.nodeId ∧ r.kind = n.kind ∧ r.config = n.config.toRecord
  orders : records.map (·.order) = List.range' 1 s.nodes.length
  ascends : ∀ e ∈ s.edges, Record.place records e.source < Record.place records e.target
  next_nodup : ∀ r ∈ records, r.next.Nodup
  mem_next : ∀ r ∈ records, ∀ id, id ∈ r.next ↔ ∃ e ∈ s.edges, e.source = r.nodeId ∧ e.target = id
  next_sorted : ∀ r ∈ records, r.next.Pairwise fun a b => Record.place records a < Record.place records b
  previous_none : ∀ r ∈ records, r.previous = none ↔ ∀ e ∈ s.edges, e.target ≠ r.nodeId
  previous_first : ∀ r ∈ records, ∀ p, r.previous = some p →
    (∃ e ∈ s.edges, e.source = p ∧ e.target = r.nodeId) ∧
      ∀ e ∈ s.edges, e.target = r.nodeId → Record.place records p ≤ Record.place records e.source

/-! ## Compiling -/

/-- The records of placed nodes, in the order of their placements. -/
def recordsOf (s : Store) (placements : List (String × Placement)) : List Record :=
  placements.filterMap fun (id, p) => (s.node? id).map fun n => s.recordOf placements n p

/-- A store is compiled if no node is isolated and all are placed. -/
theorem compile_eq_ok_iff : s.compile = .ok records ↔
    s.isolated? = none ∧ ∃ placements, Placement.assign s.nodes s.edges = .ok placements ∧
      s.recordsOf placements = records := by
  unfold compile
  cases s.isolated? with
  | some n => simp
  | none =>
    cases Placement.assign s.nodes s.edges with
    | error f => simp
    | ok placements => simp [recordsOf]

theorem mem_recordsOf (h : r ∈ s.recordsOf placements) :
    ∃ n p, s.node? r.nodeId = some n ∧ r = s.recordOf placements n p := by
  obtain ⟨⟨id, p⟩, -, hrecord⟩ := List.mem_filterMap.mp h
  obtain ⟨n, hn, rfl⟩ := Option.map_eq_some_iff.mp hrecord
  have hid : (s.recordOf placements n p).nodeId = id := (mem_of_node? hn).2
  exact ⟨n, p, hid ▸ hn, rfl⟩

/-- No node is isolated exactly if every node other than a sentinel touches an edge. -/
theorem WellFormed.isolated?_eq_none_iff (hs : s.WellFormed) : s.isolated? = none ↔
    ∀ n ∈ s.nodes, n.kind.isSentinel = false → ∃ e ∈ s.edges, e.source = n.id ∨ e.target = n.id := by
  rw [isolated?, List.find?_eq_none]
  refine forall₂_congr fun n hn => ?_
  have hid := mem_ids_of_node hn
  rw [isIsolated, Bool.not_eq_true, Bool.and_eq_false_iff, Bool.and_eq_false_iff, Bool.not_eq_false',
    List.isEmpty_eq_false_iff_exists_mem, List.isEmpty_eq_false_iff_exists_mem]
  simp only [mem_incoming hid, mem_outgoing hid, hs.mem_edges]
  cases n.kind.isSentinel with
  | true => simp
  | false =>
    simp only [Bool.false_eq_true, false_or, true_implies]
    constructor
    · rintro (⟨e, he, htarget⟩ | ⟨e, he, hsource⟩)
      · exact ⟨e, he, Or.inr htarget⟩
      · exact ⟨e, he, Or.inl hsource⟩
    · rintro ⟨e, he, hsource | htarget⟩
      · exact Or.inr ⟨e, he, hsource⟩
      · exact Or.inl ⟨e, he, htarget⟩

/-! ## Numbering -/

/-- The placements number the nodes from one, in an order in which every edge ascends. -/
structure PlacedAlong (s : Store) (placements : List (String × Placement)) (run : List String) : Prop where
  nodup : run.Nodup
  mem_iff : ∀ id, id ∈ run ↔ id ∈ s.ids
  numbers : (placements.map fun entry => (entry.1, entry.2.order)) = run.zipIdx 1
  ascends : ∀ e ∈ s.edges, run.idxOf e.source < run.idxOf e.target

theorem numberOf_eq_idxOf (hrun : run.Nodup) (hid : id ∈ run) : Placement.numberOf run id = run.idxOf id + 1 :=
  (Placement.numberOf_eq_iff hrun hid).mpr (List.getElem?_idxOf hid)

/-- A store whose graph opens with the start is placed, along a run. -/
theorem WellFormed.exists_placedAlong (hs : s.WellFormed)
    (hrooted : (graphOf s.nodes s.edges).Rooted startId finishId) :
    ∃ run placements, Placement.assign s.nodes s.edges = .ok placements ∧ s.PlacedAlong placements run := by
  have hnodes : (graphOf s.nodes s.edges).nodes = s.ids :=
    nodes_graphOf hs.ids_nodup fun e he => hs.ends_mem e (hs.mem_edges.mp he)
  obtain ⟨run, placements, hrun, hassign, hnumbers⟩ :=
    Placement.exists_assign_of_rooted hs.ids_nodup hnodes hrooted
  have hmem : ∀ id, id ∈ run ↔ id ∈ s.ids := fun id => by rw [hrun.mem_iff, hnodes]
  refine ⟨run, placements, hassign, hrun.nodup, hmem, hnumbers, fun e he => ?_⟩
  obtain ⟨hsource, htarget⟩ := hs.ends_mem e (hs.mem_edges.mp he)
  have hlt := Placement.numberOf_lt_of_topological hrun hrooted.acyclic (mem_arcs_graphOf.mpr ⟨e, he, rfl⟩)
  rw [Edge.ends, numberOf_eq_idxOf hrun.nodup ((hmem _).mpr hsource),
    numberOf_eq_idxOf hrun.nodup ((hmem _).mpr htarget)] at hlt
  exact Nat.lt_of_succ_lt_succ hlt

theorem mem_sortedBy : id ∈ sortedBy placements ids ↔ id ∈ ids := List.mem_mergeSort

theorem nodup_sortedBy (h : ids.Nodup) : (sortedBy placements ids).Nodup := (List.mergeSort_perm _ _).nodup_iff.mpr h

namespace PlacedAlong

theorem order_eq (h : s.PlacedAlong placements run) (hid : id ∈ s.ids) :
    ((placements.lookup id).map (·.order)).getD 0 = run.idxOf id + 1 := by
  rw [← Table.lookup_map_value, h.numbers]
  exact numberOf_eq_idxOf h.nodup ((h.mem_iff id).mpr hid)

/-- Nodes are sorted in the order of their numbers. -/
theorem sortedBy_sorted (h : s.PlacedAlong placements run) (hids : ∀ id ∈ ids, id ∈ s.ids) :
    (sortedBy placements ids).Pairwise fun a b => run.idxOf a ≤ run.idxOf b := by
  have hsorted : (sortedBy placements ids).Pairwise _ :=
    List.pairwise_mergeSort (fun a b c hab hbc => ?_) (fun a b => ?_) ids
  · refine hsorted.imp_of_mem fun {a b} ha hb hab => ?_
    simp only [decide_eq_true_eq] at hab
    rw [h.order_eq (hids a (mem_sortedBy.mp ha)), h.order_eq (hids b (mem_sortedBy.mp hb))] at hab
    exact Nat.le_of_succ_le_succ hab
  · rw [decide_eq_true_eq] at hab hbc ⊢
    exact hab.trans hbc
  · rw [Bool.or_eq_true, decide_eq_true_eq, decide_eq_true_eq]
    exact Nat.le_total _ _

theorem sortedBy_ascends (h : s.PlacedAlong placements run) (hids : ∀ id ∈ ids, id ∈ s.ids) (hnodup : ids.Nodup) :
    (sortedBy placements ids).Pairwise fun a b => run.idxOf a < run.idxOf b := by
  refine ((h.sortedBy_sorted hids).and (nodup_sortedBy hnodup)).imp_of_mem fun {a b} ha _ ⟨hab, hne⟩ => ?_
  have hrun : a ∈ run := (h.mem_iff a).mpr (hids a (mem_sortedBy.mp ha))
  exact Nat.lt_of_le_of_ne hab fun heq => hne ((List.idxOf_inj hrun).mp heq)

/-- The first of the sorted nodes has the least number. -/
theorem head?_sortedBy (h : s.PlacedAlong placements run) (hids : ∀ id ∈ ids, id ∈ s.ids)
    (hp : (sortedBy placements ids).head? = some p) : p ∈ ids ∧ ∀ id ∈ ids, run.idxOf p ≤ run.idxOf id := by
  have hsorted := h.sortedBy_sorted hids
  obtain ⟨rest, hrest⟩ := List.head?_eq_some_iff.mp hp
  rw [hrest] at hsorted
  refine ⟨mem_sortedBy.mp (hrest ▸ List.mem_cons_self), fun id hid => ?_⟩
  rcases List.mem_cons.mp (hrest ▸ mem_sortedBy.mpr hid) with rfl | hlater
  · exact Nat.le_refl _
  · exact (List.pairwise_cons.mp hsorted).1 id hlater

/-- The records stand in the order of the numbers, and carry them. -/
theorem recordsOf_numbers (h : s.PlacedAlong placements run) :
    ((s.recordsOf placements).map fun r => (r.nodeId, r.order)) = run.zipIdx 1 := by
  rw [← h.numbers, recordsOf, List.map_filterMap, ← List.filterMap_eq_map]
  refine List.filterMap_congr fun (id, p) hentry => ?_
  have hnumber : (id, p.order) ∈ run.zipIdx 1 := h.numbers ▸ List.mem_map_of_mem hentry
  obtain ⟨n, hn⟩ := exists_node? ((h.mem_iff id).mp (List.fst_mem_of_mem_zipIdx hnumber))
  simp only [hn, Option.map_some, recordOf, (mem_of_node? hn).2, Function.comp_apply]

theorem recordsOf_ids (h : s.PlacedAlong placements run) : (s.recordsOf placements).map (·.nodeId) = run := by
  have hids := congrArg (List.map (·.1)) h.recordsOf_numbers
  rwa [List.map_map, List.zipIdx_map_fst] at hids

theorem place_eq (h : s.PlacedAlong placements run) (id : String) :
    Record.place (s.recordsOf placements) id = run.idxOf id := by
  rw [Record.place, h.recordsOf_ids]

end PlacedAlong

/-! ## Records -/

theorem WellFormed.mem_sources (hs : s.WellFormed) {n : Node} (hn : n ∈ s.nodes) :
    p ∈ (s.incoming n.id).map (·.source) ↔ ∃ e ∈ s.edges, e.source = p ∧ e.target = n.id := by
  simp only [List.mem_map, mem_incoming (mem_ids_of_node hn), hs.mem_edges, and_assoc, and_comm]

theorem WellFormed.mem_targets (hs : s.WellFormed) {n : Node} (hn : n ∈ s.nodes) :
    id ∈ ((s.outgoing n.id).map (·.target)).eraseDups ↔ ∃ e ∈ s.edges, e.source = n.id ∧ e.target = id := by
  simp only [List.mem_eraseDups, List.mem_map, mem_outgoing (mem_ids_of_node hn), hs.mem_edges, and_assoc]

/-- **The records of a store that is placed along a run** are those that its nodes and edges call for. -/
theorem PlacedAlong.recorded (h : s.PlacedAlong placements run) (hs : s.WellFormed) :
    s.Recorded (s.recordsOf placements) := by
  have hperm : run.Perm s.ids := (List.perm_ext_iff_of_nodup h.nodup hs.ids_nodup).mpr h.mem_iff
  have hnode : ∀ r ∈ s.recordsOf placements, ∃ n ∈ s.nodes, ∃ p, r = s.recordOf placements n p := by
    intro r hr
    obtain ⟨n, p, hn, heq⟩ := mem_recordsOf hr
    exact ⟨n, (mem_of_node? hn).1, p, heq⟩
  have hsources : ∀ n ∈ s.nodes, ∀ p ∈ (s.incoming n.id).map (·.source), p ∈ s.ids := by
    intro n hn p hp
    obtain ⟨e, he, rfl, -⟩ := (hs.mem_sources hn).mp hp
    exact (hs.ends_mem e (hs.mem_edges.mp he)).1
  have htargets : ∀ n ∈ s.nodes, ∀ id ∈ ((s.outgoing n.id).map (·.target)).eraseDups, id ∈ s.ids := by
    intro n hn id hid
    obtain ⟨e, he, -, rfl⟩ := (hs.mem_targets hn).mp hid
    exact (hs.ends_mem e (hs.mem_edges.mp he)).2
  constructor
  case ids_perm => exact h.recordsOf_ids ▸ hperm
  case carries =>
    intro r hr
    obtain ⟨n, hn, p, rfl⟩ := hnode r hr
    exact ⟨n, hn, rfl, rfl, rfl⟩
  case orders =>
    have horders := congrArg (List.map (·.2)) h.recordsOf_numbers
    rw [List.map_map, List.zipIdx_map_snd, hperm.length_eq, ids, List.length_map] at horders
    exact horders
  case ascends =>
    intro e he
    rw [h.place_eq, h.place_eq]
    exact h.ascends e he
  case next_nodup =>
    intro r hr
    obtain ⟨n, hn, p, rfl⟩ := hnode r hr
    exact nodup_sortedBy (Table.eraseDups_nodup _)
  case mem_next =>
    intro r hr id
    obtain ⟨n, hn, p, rfl⟩ := hnode r hr
    exact mem_sortedBy.trans (hs.mem_targets hn)
  case next_sorted =>
    intro r hr
    obtain ⟨n, hn, p, rfl⟩ := hnode r hr
    simp only [h.place_eq]
    exact h.sortedBy_ascends (htargets n hn) (Table.eraseDups_nodup _)
  case previous_none =>
    intro r hr
    obtain ⟨n, hn, p, rfl⟩ := hnode r hr
    have hnone : (s.recordOf placements n p).previous = none ↔
        ∀ parent, parent ∉ sortedBy placements ((s.incoming n.id).map (·.source)) :=
      List.head?_eq_none_iff.trans List.eq_nil_iff_forall_not_mem
    simp only [hnone, mem_sortedBy, hs.mem_sources hn, not_exists, not_and]
    exact ⟨fun h e he => h e.source e he rfl, fun h _ e he _ => h e he⟩
  case previous_first =>
    intro r hr p hp
    obtain ⟨n, hn, q, rfl⟩ := hnode r hr
    obtain ⟨hmem, hfirst⟩ := h.head?_sortedBy (hsources n hn) hp
    refine ⟨(hs.mem_sources hn).mp hmem, fun e he htarget => ?_⟩
    rw [h.place_eq, h.place_eq]
    exact hfirst e.source ((hs.mem_sources hn).mpr ⟨e, he, rfl, htarget⟩)

/-- Every node has a record. -/
theorem Recorded.exists_of_mem (h : s.Recorded records) (hs : s.WellFormed) {n : Node} (hn : n ∈ s.nodes) :
    ∃ r ∈ records, r.nodeId = n.id ∧ r.kind = n.kind ∧ r.config = n.config.toRecord := by
  obtain ⟨r, hr, hid⟩ := List.mem_map.mp (h.ids_perm.mem_iff.mpr (mem_ids_of_node hn))
  obtain ⟨m, hm, hmid, hkind, hconfig⟩ := h.carries r hr
  have hsame : m = n := List.inj_on_of_nodup_map hs.ids_nodup hm hn (hmid.trans hid)
  exact ⟨r, hr, hid, hsame ▸ hkind, hsame ▸ hconfig⟩

/-- Two Finds that lead to one Loop, one from the start and one that nothing leads to. -/
def withJoin (p : Point) : Store where
  nodes := [
    .unplaced startId (.default .start) p,
    .unplaced finishId (.default .finish) p,
    .unplaced "find_1" (.default .find) p,
    .unplaced "find_2" (.default .find) p,
    .unplaced "loop_1" (.default .loop) p]
  links := [.plain startId "find_1", .plain "find_1" "loop_1", .plain "find_2" "loop_1", .plain "loop_1" finishId]
  index := [("estart-find_1", startId, "find_1"), ("efind_1-loop_1", "find_1", "loop_1"),
    ("efind_2-loop_1", "find_2", "loop_1"), ("eloop_1-end", "loop_1", finishId)]

theorem built_withJoin (p : Point) : (withJoin p).Built := by
  have hnodes : (withJoin p).nodes.foldlM Store.addNode .empty =
      .ok { withJoin p with links := [], index := [] } := by
    cbv
  have hedges : (withJoin p).links.foldlM Store.addEdge { withJoin p with links := [], index := [] } =
      .ok (withJoin p) := by
    cbv
  exact .of_lists hnodes hedges

theorem checkStructure_withJoin (p : Point) : (withJoin p).checkStructure = .ok () := by
  cbv

theorem isolated?_withJoin (p : Point) : (withJoin p).isolated? = none := by
  cbv

example (p : Point) : ((withJoin p).compile.toOption.getD []).map (fun r => r.nodeId) =
    [startId, "find_1", "find_2", "loop_1", finishId] := by
  cbv

end Store

end FormFlow
