import Mathlib.Computability.Primrec.List
import Mathlib.Data.List.Permutation
import FormFlow.Proofs.Placement
import FormFlow.Proofs.Structure
import FormFlow.Record
/-!
Placing the nodes of a store.

Every sound store can be placed, and is placed by its structure alone: placing it again changes nothing
(`WellFormed.exists_recompute`). A store that placing leaves as it is holds its placements in its nodes, and its records
carry what its nodes hold (`Settled`).
-/

set_option autoImplicit false

namespace FormFlow.Store

open Placement (Placeable)

variable {s t : Store} {placements : List (String × Placement)}

theorem WellFormed.placeable (hs : s.WellFormed) (h : s.Sound) : Placeable s.nodes s.edges where
  ids_nodup := hs.ids_nodup
  nodes_graph := nodes_graphOf hs.ids_nodup fun e he => hs.ends_mem e (hs.mem_edges.mp he)
  bounded := hs.bounded h hs.edges_perm

/-! ## Numbering -/

/-- The placements number the nodes: each once, from one to their count, the start first and the end last, and
ascending along every edge. -/
structure Numbers (s : Store) (placements : List (String × Placement)) (order : String → Nat) : Prop where
  names : (placements.map (·.1)).Perm s.ids
  order_eq : ∀ id ∈ s.ids, ∃ p, placements.lookup id = some p ∧ p.order = order id
  bijective : Set.BijOn order {id | id ∈ s.ids} (Set.Icc 1 s.nodes.length)
  first : order startId = 1
  last : order finishId = s.nodes.length
  ascends : ∀ e ∈ s.edges, order e.source < order e.target

/-- **Placing numbers the nodes.** Every store that can be built and that the check accepts is placed, whatever orders
its nodes carry, and its placements number it. -/
theorem Built.exists_numbering (hs : s.Built) (hcheck : s.checkStructure = .ok ()) :
    ∃ placements order, Placement.assign s.nodes s.edges = .ok placements ∧ s.Numbers placements order := by
  obtain ⟨h, -, -⟩ := checkStructure_eq_ok_iff.mp hcheck
  have hplaceable := hs.wellFormed.placeable h
  obtain ⟨_, _, -, -, -, hassign⟩ := hplaceable.exists_assign
  obtain ⟨run, -, hrun, hnames, hlookup⟩ := hplaceable.lookup_assign hassign
  have hperm : run.Perm s.ids := (List.perm_ext_iff_of_nodup hrun.nodup hs.wellFormed.ids_nodup).mpr fun id => by
    rw [hrun.mem_iff, hplaceable.nodes_graph]
    rfl
  have hlength : run.length = s.nodes.length := by rw [hperm.length_eq, ids, List.length_map]
  refine ⟨_, Placement.numberOf run, hassign, hnames ▸ hperm, hlookup, ?_, Placement.numberOf_opening hrun,
    hlength ▸ Placement.numberOf_closing hrun, fun e he => ?_⟩
  · rw [← hlength, show {id | id ∈ s.ids} = {id | id ∈ run} from Set.ext fun id => hperm.mem_iff.symm]
    exact Placement.numberOf_bijOn hrun.nodup
  · exact Placement.numberOf_lt hrun hplaceable.bounded.acyclic (mem_arcs_graphOf.mpr ⟨e, he, rfl⟩)

/-- A Find between the sentinels and a Loop beside them, both with one order from before. -/
def withIsland (p : Point) : Store where
  nodes := [
    .unplaced startId (.default .start) p,
    .unplaced finishId (.default .finish) p,
    { Node.unplaced "find_1" (.default .find) p with order := some (-3) },
    { Node.unplaced "loop_1" (.default .loop) p with order := some (-3) }]
  links := [.plain startId "find_1", .plain "find_1" finishId]
  index := [("estart-find_1", startId, "find_1"), ("efind_1-end", "find_1", finishId)]

theorem built_withIsland (p : Point) : (withIsland p).Built := by
  have hnodes : (withIsland p).nodes.foldlM Store.addNode .empty =
      .ok { withIsland p with links := [], index := [] } := by
    cbv
  have hedges : (withIsland p).links.foldlM Store.addEdge { withIsland p with links := [], index := [] } =
      .ok (withIsland p) := by
    cbv
  exact .of_lists hnodes hedges

theorem checkStructure_withIsland (p : Point) : (withIsland p).checkStructure = .ok () := by
  cbv

theorem exists_numbering_withIsland :
    (withIsland .origin).Built ∧ (withIsland .origin).checkStructure = .ok () ∧
      ∃ placements order, Placement.assign (withIsland .origin).nodes (withIsland .origin).edges = .ok placements ∧
        (withIsland .origin).Numbers placements order :=
  ⟨built_withIsland .origin, checkStructure_withIsland .origin,
    Built.exists_numbering (built_withIsland .origin) (checkStructure_withIsland .origin)⟩

/-! ## Placing again -/

/-- A node with the placement that a table gives it. -/
def placedBy (placements : List (String × Placement)) (n : Node) : Node :=
  match placements.lookup n.id with
  | some p => p.apply n
  | none => n

theorem placedBy_of_lookup {n : Node} {p : Placement} (h : placements.lookup n.id = some p) :
    placedBy placements n = p.apply n := by
  rw [placedBy, h]

theorem placedBy_id (n : Node) : (placedBy placements n).id = n.id := by
  unfold placedBy
  split <;> rfl

theorem placedBy_config (n : Node) : (placedBy placements n).config = n.config := by
  unfold placedBy
  split <;> rfl

theorem recompute_of_assign (h : Placement.assign s.nodes s.edges = .ok placements) :
    s.recompute = .ok { s with nodes := s.nodes.map (placedBy placements) } := by
  simp only [recompute, h, bind, Except.bind, pure, Except.pure]
  rfl

theorem edges_map {f : Node → Node} (hid : ∀ n, (f n).id = n.id) :
    ({ s with nodes := s.nodes.map f } : Store).edges = s.edges := by
  simp only [edges, List.flatMap_map, hid]

theorem placedBy_placedBy (n : Node) : placedBy placements (placedBy placements n) = placedBy placements n := by
  rw [placedBy, placedBy_id, placedBy]
  split <;> rfl

/-- **A sound store can be placed, and placing it twice is placing it once.** -/
theorem WellFormed.exists_recompute (hs : s.WellFormed) (h : s.Sound) :
    ∃ t, s.recompute = .ok t ∧ t.recompute = .ok t := by
  have hplaceable := hs.placeable h
  obtain ⟨_, _, -, -, -, hassign⟩ := hplaceable.exists_assign
  refine ⟨_, recompute_of_assign hassign, ?_⟩
  have hagain : Placement.assign (s.nodes.map (placedBy _)) s.edges = _ :=
    hplaceable.assign_placed hassign placedBy_id placedBy_config fun n hn => by
      obtain ⟨_, -, -, -, hlookup⟩ := hplaceable.lookup_assign hassign
      obtain ⟨p, hp, -⟩ := hlookup n.id (List.mem_map_of_mem hn)
      exact ⟨p, hp, by rw [placedBy, hp]; rfl⟩
  rw [← edges_map placedBy_id] at hagain
  rw [recompute_of_assign hagain, List.map_map]
  congr 3
  exact funext placedBy_placedBy

theorem WellFormed.recompute_recompute (hs : s.WellFormed) (h : s.Sound) (ht : s.recompute = .ok t) :
    t.recompute = .ok t := by
  obtain ⟨u, hu, hagain⟩ := hs.exists_recompute h
  obtain rfl := Except.ok.inj (ht.symm.trans hu)
  exact hagain

/-- The order, level and labels of a node. -/
abbrev Seating := Option Int × Option Nat × String × String

/-- The store with its nodes placed in some way. -/
def placedAs (s : Store) (place : String → Seating) : Store :=
  { s with nodes := s.nodes.map fun n =>
    { n with
      order := (place n.id).1
      level := (place n.id).2.1
      label := (place n.id).2.2.1
      displayLabel := (place n.id).2.2.2 } }

/-- Placing a sound store changes nothing but orders, levels and labels. -/
theorem WellFormed.exists_placedAs (hs : s.WellFormed) (h : s.Sound) (ht : s.recompute = .ok t) :
    ∃ place, t = s.placedAs place := by
  have hplaceable := hs.placeable h
  obtain ⟨placements, hassign, rfl⟩ := recompute_eq_ok ht
  obtain ⟨_, -, -, -, hlookup⟩ := hplaceable.lookup_assign hassign
  refine ⟨fun id => ((placements.lookup id).map fun p =>
    (some ↑p.order, some p.level, p.label, p.displayLabel)).getD (none, none, "", ""), ?_⟩
  rw [placedAs]
  congr 1
  refine List.map_congr_left ?_
  intro n hn
  obtain ⟨p, hp, -⟩ := hlookup n.id (List.mem_map_of_mem hn)
  simp only [hp]
  rfl

/-! ## Placed stores -/

/-- The nodes hold their placements: every node is placed, once, and has the order, level and labels of its
placement. -/
def Holds (s : Store) (placements : List (String × Placement)) : Prop :=
  (placements.map (·.1)).Perm s.ids ∧
  ∀ n ∈ s.nodes, ∃ p, placements.lookup n.id = some p ∧
    n.order = some ↑p.order ∧ n.level = some p.level ∧ n.label = p.label ∧ n.displayLabel = p.displayLabel

/-- A store that placing leaves as it is holds its placements. -/
theorem WellFormed.exists_holds (hs : s.WellFormed) (h : s.Sound) (hfix : s.recompute = .ok s) :
    ∃ placements, Placement.assign s.nodes s.edges = .ok placements ∧ s.Holds placements := by
  have hplaceable := hs.placeable h
  obtain ⟨placements, hassign, heq⟩ := recompute_eq_ok hfix
  obtain ⟨run, -, hrun, hnames, hlookup⟩ := hplaceable.lookup_assign hassign
  have hnodes : s.nodes.map (placedBy placements) = s.nodes.map id := by
    rw [List.map_id]
    exact (congrArg Store.nodes heq).symm
  refine ⟨placements, hassign, ?_, fun n hn => ?_⟩
  · rw [hnames]
    exact (List.perm_ext_iff_of_nodup hrun.nodup hs.ids_nodup).mpr fun _ => hplaceable.mem_run hrun
  · obtain ⟨p, hp, -⟩ := hlookup n.id (List.mem_map_of_mem hn)
    have hplaced : p.apply n = n := by
      have := List.map_inj_left.mp hnodes n hn
      rwa [placedBy, hp] at this
    exact ⟨p, hp, congrArg Node.order hplaced.symm, congrArg Node.level hplaced.symm,
      congrArg Node.label hplaced.symm, congrArg Node.displayLabel hplaced.symm⟩

/-- The records of a store that holds its placements carry what its nodes hold. -/
theorem Holds.record_eq (hs : s.WellFormed) (hassign : Placement.assign s.nodes s.edges = .ok placements)
    (h : s.Holds placements) {records : List Record} (hcompile : s.compile = .ok records) {r : Record}
    (hr : r ∈ records) : ∃ n ∈ s.nodes, n.id = r.nodeId ∧ n.order = some ↑r.order ∧ n.label = r.label := by
  obtain ⟨hperm, hholds⟩ := h
  unfold compile at hcompile
  split at hcompile
  · cases hcompile
  · rw [hassign] at hcompile
    cases hcompile
    obtain ⟨⟨id, p⟩, hentry, hrecord⟩ := List.mem_filterMap.mp hr
    obtain ⟨n, hn, rfl⟩ := Option.map_eq_some_iff.mp hrecord
    obtain ⟨hmem, rfl⟩ := mem_of_node? hn
    obtain ⟨q, hq, horder, -, hlabel, -⟩ := hholds n hmem
    have hnodup : (placements.map (·.1)).Nodup := hperm.nodup_iff.mpr hs.ids_nodup
    obtain rfl := Option.some.inj (hq.symm.trans ((Table.lookup_eq_some_iff_mem hnodup).mpr hentry))
    exact ⟨n, hmem, rfl, horder, hlabel⟩

/-- Placing gives what the nodes hold, and so do the records wherever the store can be compiled. -/
structure Settled (s : Store) : Prop where
  holds : ∃ placements, Placement.assign s.nodes s.edges = .ok placements ∧ s.Holds placements
  records : ∀ records, s.compile = .ok records → ∀ r ∈ records,
    ∃ n ∈ s.nodes, n.id = r.nodeId ∧ n.order = some ↑r.order ∧ n.label = r.label

/-- **A store that placing leaves as it is is settled.** -/
theorem WellFormed.settled (hs : s.WellFormed) (h : s.Sound) (hfix : s.recompute = .ok s) : s.Settled := by
  obtain ⟨placements, hassign, hholds⟩ := hs.exists_holds h hfix
  exact ⟨⟨placements, hassign, hholds⟩, fun records hcompile r hr => hholds.record_eq hs hassign hcompile hr⟩

end FormFlow.Store
