import Mathlib.Data.Set.Function
import Mathlib.Order.Interval.Set.Defs
import FormFlow.Graph.Placement
import FormFlow.Proofs.Levels
import FormFlow.Proofs.Orders
import FormFlow.Proofs.Table
/-!
The placement of nodes, read off the run that the walk and the sweep make through their graph.

The graph is taken to be bounded by the sentinels. Then placing succeeds and numbers the run from one
(`Placeable.exists_assign`). Placing the placed nodes sweeps them in the order of that run, which makes the same run
again (`Placeable.assign_placed`).
-/

set_option autoImplicit false

namespace FormFlow.Placement

variable {nodes : List Node} {edges : List Edge}

/-! ## The sweep -/

namespace SweepKey

theorem le_trans (a b c : SweepKey) (hab : a.le b = true) (hbc : b.le c = true) : a.le c = true := by
  unfold le at *
  grind

theorem le_total (a b : SweepKey) : (a.le b || b.le a) = true := by
  unfold le
  grind

end SweepKey

theorem map_zipIdx_fst {β : Type} (f : Node → β) :
    (nodes.zipIdx.map fun entry => f entry.1) = nodes.map f := by
  have h := congrArg (List.map f) (List.zipIdx_map_fst 0 nodes)
  rwa [List.map_map] at h

/-- A list of nodes with distinct ids is its own table. -/
theorem byId_eq (h : (nodes.map (·.id)).Nodup) :
    byId nodes = nodes.zipIdx.map fun entry => (entry.1.id, entry.1, entry.2) := by
  rw [byId, List.mapIdx_eq_zipIdx_map]
  refine Table.ofPairs_of_nodup ?_
  rw [List.map_map]
  exact (map_zipIdx_fst (·.id)).symm ▸ h

/-- What is read off the table without the places is read off the nodes. -/
theorem map_byId {β : Type} (h : (nodes.map (·.id)).Nodup) (f : String → Node → β) :
    ((byId nodes).map fun entry => f entry.1 entry.2.1) = nodes.map fun n => f n.id n := by
  rw [byId_eq h, List.map_map]
  exact map_zipIdx_fst fun n => f n.id n

theorem sweep_perm (h : (nodes.map (·.id)).Nodup) : (sweep nodes).Perm (nodes.map (·.id)) := by
  refine ((List.mergeSort_perm _ _).map _).trans (List.Perm.of_eq ?_)
  rw [List.map_map]
  exact map_byId h fun id _ => id

/-- The number of a node in a run, from one. -/
def numberOf (run : List String) (id : String) : Nat := ((run.zipIdx 1).lookup id).getD 0

/-- A run and a list of ids that list the same ids once each, with the numbers of the run. -/
theorem numbered_perm {run ids : List String} (hrun : run.Nodup) (hids : ids.Nodup) (hmem : ∀ id, id ∈ run ↔ id ∈ ids) :
    (ids.map fun id => (id, numberOf run id)).Perm (run.zipIdx 1) := by
  have hperm : ids.Perm run := (List.perm_ext_iff_of_nodup hids hrun).mpr fun id => (hmem id).symm
  have htable : ((run.zipIdx 1).map (·.1)).Nodup := by rwa [List.zipIdx_map_fst]
  have h := Table.map_lookup_eq htable 0
  rw [List.zipIdx_map_fst] at h
  exact (hperm.map _).trans (List.Perm.of_eq h)

theorem mem_byId (h : (nodes.map (·.id)).Nodup) {id : String} {n : Node} {i : Nat} (hm : (id, n, i) ∈ byId nodes) :
    n ∈ nodes ∧ n.id = id := by
  rw [byId_eq h, List.mem_map] at hm
  obtain ⟨entry, hentry, heq⟩ := hm
  cases heq
  exact ⟨List.fst_mem_of_mem_zipIdx hentry, rfl⟩

/-- The nodes of a run are numbered by their places. -/
theorem numberOf_eq_iff {run : List String} (hrun : run.Nodup) {id : String} (hid : id ∈ run) {k : Nat} :
    numberOf run id = k + 1 ↔ run[k]? = some id := by
  have htable : ((run.zipIdx 1).map (·.1)).Nodup := by rwa [List.zipIdx_map_fst]
  obtain ⟨number, hnumber⟩ := Table.exists_lookup_zipIdx 1 hid
  have hmem : (run.zipIdx 1).lookup id = some (k + 1) ↔ (id, k + 1) ∈ run.zipIdx 1 :=
    Table.lookup_eq_some_iff_mem htable
  rw [numberOf, ← List.mk_add_mem_zipIdx_iff_getElem? (k := 1), Nat.add_comm 1 k, ← hmem, hnumber, Option.getD_some,
    Option.some.injEq]

/-- A run without repetition is numbered from one to its length. -/
theorem numberOf_bijOn {run : List String} (hrun : run.Nodup) :
    Set.BijOn (numberOf run) {id | id ∈ run} (Set.Icc 1 run.length) := by
  refine ⟨fun id hid => ?_, fun id hid other hother heq => ?_, fun k hk => ?_⟩
  · obtain ⟨k, hk, hget⟩ := List.mem_iff_getElem.mp hid
    rw [(numberOf_eq_iff hrun hid).mpr (List.getElem?_eq_some_iff.mpr ⟨hk, hget⟩)]
    exact ⟨Nat.le_add_left 1 k, hk⟩
  · obtain ⟨k, hk, hget⟩ := List.mem_iff_getElem.mp hid
    have hplace := List.getElem?_eq_some_iff.mpr ⟨hk, hget⟩
    rw [(numberOf_eq_iff hrun hid).mpr hplace] at heq
    exact Option.some.inj (hplace.symm.trans ((numberOf_eq_iff hrun hother).mp heq.symm))
  · obtain ⟨k, rfl⟩ : ∃ i, k = i + 1 := ⟨k - 1, by have := hk.1; omega⟩
    have hlt : k < run.length := hk.2
    exact ⟨run[k], List.getElem_mem hlt, (numberOf_eq_iff hrun (List.getElem_mem hlt)).mpr
      (List.getElem?_eq_getElem hlt)⟩

/-- Numbers ascend along the arcs of a graph whose nodes are numbered in a topological order. -/
theorem numberOf_lt_of_topological {g : Digraph} {run : List String} (h : g.Topological run) (hg : g.Acyclic)
    {a : String × String} (ha : a ∈ g.arcs) : numberOf run a.1 < numberOf run a.2 := by
  have hsource := (h.mem_iff a.1).mpr (g.ends_mem a ha).1
  have htarget := (h.mem_iff a.2).mpr (g.ends_mem a ha).2
  obtain ⟨i, hi, hgeti⟩ := List.mem_iff_getElem.mp hsource
  obtain ⟨j, hj, hgetj⟩ := List.mem_iff_getElem.mp htarget
  rw [(numberOf_eq_iff h.nodup hsource).mpr (List.getElem?_eq_some_iff.mpr ⟨hi, hgeti⟩),
    (numberOf_eq_iff h.nodup htarget).mpr (List.getElem?_eq_some_iff.mpr ⟨hj, hgetj⟩)]
  rcases Nat.lt_trichotomy i j with hij | hij | hij
  · exact Nat.succ_lt_succ hij
  · subst hij
    exact absurd (hgeti.symm.trans hgetj) (hg.ne_of_arc ha)
  · have hforward := List.pairwise_iff_getElem.mp h.forward j i hj hi hij
    rw [hgeti, hgetj] at hforward
    exact absurd (Digraph.mem_children.mpr ha) hforward

section RunsThrough

variable {g : Digraph} {opening closing : String} {run : List String}

theorem numberOf_lt (h : g.RunsThrough opening closing run) (hg : g.Acyclic) {a : String × String}
    (ha : a ∈ g.arcs) : numberOf run a.1 < numberOf run a.2 :=
  numberOf_lt_of_topological h.topological hg ha

theorem numberOf_opening (h : g.RunsThrough opening closing run) : numberOf run opening = 1 :=
  (numberOf_eq_iff h.nodup (List.mem_of_mem_head? h.first)).mpr (by rw [← List.head?_eq_getElem?]; exact h.first)

theorem numberOf_closing (h : g.RunsThrough opening closing run) : numberOf run closing = run.length := by
  have hmem := List.mem_of_mem_getLast? h.last
  have hlength := List.length_pos_of_mem hmem
  have hlast := (numberOf_eq_iff h.nodup hmem).mpr ((List.getLast?_eq_getElem? (l := run)).symm.trans h.last)
  omega

end RunsThrough

/-- Nodes that are numbered along a run are swept in the order of that run. -/
theorem sweep_of_numbered {run : List String} (h : (nodes.map (·.id)).Nodup) (hrun : run.Nodup)
    (hmem : ∀ id, id ∈ run ↔ id ∈ nodes.map (·.id))
    (horder : ∀ n ∈ nodes, n.order = some ↑(numberOf run n.id)) : sweep nodes = run := by
  have hnumbers : (sweep nodes).map (fun id => (id, numberOf run id)) = run.zipIdx 1 := by
    refine Table.eq_zipIdx_of_perm (((sweep_perm h).map _).trans (numbered_perm hrun h hmem)) ?_
    rw [sweep]
    refine List.pairwise_map.mpr (List.pairwise_map.mpr ?_)
    refine (List.pairwise_mergeSort (fun a b c => SweepKey.le_trans a.1 b.1 c.1)
      (fun a b => SweepKey.le_total a.1 b.1) _).imp_of_mem fun {a b} ha hb hab => ?_
    -- The keys of the table carry the numbers, so comparing keys is comparing numbers.
    have hkey : ∀ key : SweepKey × String, key ∈ ((byId nodes).map fun entry =>
        (SweepKey.mk entry.2.1.order.isNone (entry.2.1.order.getD 0) entry.2.2, entry.1)) →
        key.1.isNew = false ∧ key.1.order = (numberOf run key.2 : Int) := by
      intro key hkey
      obtain ⟨⟨id, n, i⟩, hbyId, rfl⟩ := List.mem_map.mp hkey
      obtain ⟨hn, rfl⟩ := mem_byId h hbyId
      simp [horder n hn]
    obtain ⟨hnew, horder⟩ := hkey a (List.mem_mergeSort.mp ha)
    obtain ⟨hnew', horder'⟩ := hkey b (List.mem_mergeSort.mp hb)
    simp only [SweepKey.le, hnew, hnew', horder, horder'] at hab
    grind
  have hnames := congrArg (List.map (·.1)) hnumbers
  rw [List.map_map, List.zipIdx_map_fst] at hnames
  exact (List.map_id _).symm.trans hnames

/-! ## The seats -/

/-- The nodes with their numbers in a run and their levels, in the order of the numbers. -/
def seatsIn (run : List String) (levels : List (String × Nat)) (nodes : List Node) : List Seat :=
  (nodes.map fun n => Seat.mk n (numberOf run n.id) ((levels.lookup n.id).getD 0)).mergeSort
    fun a b => a.order ≤ b.order

/-- A seat with its node changed. -/
def Seat.change (f : Node → Node) (s : Seat) : Seat := { s with node := f s.node }

variable {run : List String} {levels : List (String × Nat)} {f : Node → Node}

/-- The seats stand in the order of the run. -/
theorem seatsIn_numbers (levels : List (String × Nat)) (h : (nodes.map (·.id)).Nodup) (hrun : run.Nodup)
    (hmem : ∀ id, id ∈ run ↔ id ∈ nodes.map (·.id)) :
    ((seatsIn run levels nodes).map fun s => (s.node.id, s.order)) = run.zipIdx 1 := by
  refine Table.eq_zipIdx_of_perm ?_ (List.pairwise_map.mpr ?_)
  · refine ((List.mergeSort_perm _ _).map _).trans (List.Perm.trans (List.Perm.of_eq ?_) (numbered_perm hrun h hmem))
    rw [List.map_map, List.map_map]
    rfl
  · have hsorted := @List.pairwise_mergeSort Seat (fun a b => a.order ≤ b.order)
      (fun a b c hab hbc => by simp at *; omega) (fun a b => by simp; omega)
    exact (hsorted _).imp fun hab => by simpa using hab

theorem seatsIn_map (hid : ∀ n, (f n).id = n.id) :
    seatsIn run levels (nodes.map f) = (seatsIn run levels nodes).map (Seat.change f) := by
  have hseats : ((nodes.map f).map fun n => Seat.mk n (numberOf run n.id) ((levels.lookup n.id).getD 0)) =
      (nodes.map fun n => Seat.mk n (numberOf run n.id) ((levels.lookup n.id).getD 0)).map (Seat.change f) := by
    rw [List.map_map, List.map_map]
    exact List.map_congr_left fun n _ => by simp [hid, Seat.change]
  rw [seatsIn, seatsIn, hseats]
  exact (List.map_mergeSort (f := Seat.change f) fun _ _ _ _ => rfl).symm

/-! ## The labels -/

/-- Placing keeps the nodes and their numbers, in their order. -/
theorem labelled_numbers (earlier seats : List Seat) :
    ((labelled earlier seats).map fun entry => (entry.1, entry.2.order)) =
      seats.map fun s => (s.node.id, s.order) := by
  induction seats generalizing earlier with
  | nil => rfl
  | cons s seats ih => rw [labelled, List.map_cons, List.map_cons, ih]

/-- Labels depend on the ids and configurations of nodes only. -/
theorem labelled_map (hid : ∀ n, (f n).id = n.id) (hconfig : ∀ n, (f n).config = n.config)
    (earlier seats : List Seat) :
    labelled (earlier.map (Seat.change f)) (seats.map (Seat.change f)) = labelled earlier seats := by
  induction seats generalizing earlier with
  | nil => rfl
  | cons s seats ih =>
    have hrest := ih (earlier ++ [s])
    rw [List.map_append, List.map_singleton] at hrest
    rw [List.map_cons, labelled, labelled, hrest]
    simp only [labelAfter, displayLabelAfter, Seat.change, List.countP_map, Node.kind, hid, hconfig, Function.comp_def]

/-! ## Placing -/

/-- The nodes and edges of a workflow as it has to be to be placed: no id is repeated, edges run between the nodes, and
the graph is bounded by the sentinels. -/
structure Placeable (nodes : List Node) (edges : List Edge) : Prop where
  ids_nodup : (nodes.map (·.id)).Nodup
  nodes_graph : (graphOf nodes edges).nodes = nodes.map (·.id)
  bounded : (graphOf nodes edges).Bounded startId finishId

/-- The run that the walk and the sweep make through a workflow, the end included. -/
def RunOf (nodes : List Node) (edges : List Edge) (run : List String) : Prop :=
  ∃ visits, (graphOf nodes edges).visitsOf startId finishId (sweep nodes) = .ok visits ∧ visits.Nodup ∧
    run = visits.reverse ++ [finishId]

theorem RunOf.unique {run run' : List String} (h : RunOf nodes edges run) (h' : RunOf nodes edges run') :
    run = run' := by
  obtain ⟨visits, hvisits, -, rfl⟩ := h
  obtain ⟨visits', hvisits', -, rfl⟩ := h'
  rw [Except.ok.inj (hvisits.symm.trans hvisits')]

/-- Where every node has a level and an order, the placements are those of the seats. -/
theorem assign_eq_bind {levels orders : List (String × Nat)}
    (hlevels : (graphOf nodes edges).levels finishId = .ok levels)
    (horders : (graphOf nodes edges).orders startId finishId (sweep nodes) = .ok orders) :
    assign nodes edges = ((byId nodes).mapM fun entry => seat orders levels entry.1 entry.2.1).bind fun seats =>
      .ok (labelled [] (seats.mergeSort fun a b => a.order ≤ b.order)) := by
  simp only [assign, hlevels, horders, bind, Except.bind, pure, Except.pure]

/-- Where the orders number a topological order from one, the placements are the labelled seats of that order. -/
theorem assign_eq_labelled {run : List String} {levels : List (String × Nat)} (hids : (nodes.map (·.id)).Nodup)
    (hnodes : (graphOf nodes edges).nodes = nodes.map (·.id)) (hrun : (graphOf nodes edges).Topological run)
    (horders : (graphOf nodes edges).orders startId finishId (sweep nodes) = .ok (run.zipIdx 1))
    (hlevels : (graphOf nodes edges).levels finishId = .ok levels)
    (hlevel : ∀ id ∈ (graphOf nodes edges).nodes, ∃ level, levels.lookup id = some level) :
    assign nodes edges = .ok (labelled [] (seatsIn run levels nodes)) := by
  have hseats : ((byId nodes).mapM fun entry => seat (run.zipIdx 1) levels entry.1 entry.2.1) =
      .ok (nodes.map fun n => Seat.mk n (numberOf run n.id) ((levels.lookup n.id).getD 0)) := by
    rw [← map_byId hids fun id n => Seat.mk n (numberOf run id) ((levels.lookup id).getD 0)]
    refine Table.mapM_eq_ok ?_
    rintro ⟨id, n, i⟩ hentry
    obtain ⟨hn, rfl⟩ := mem_byId hids hentry
    have hnode : n.id ∈ (graphOf nodes edges).nodes := hnodes ▸ List.mem_map_of_mem hn
    obtain ⟨order, horder⟩ := Table.exists_lookup_zipIdx 1 ((hrun.mem_iff n.id).mpr hnode)
    obtain ⟨level, hfound⟩ := hlevel n.id hnode
    simp only [seat, numberOf, horder, hfound, Option.getD_some]
  rw [assign_eq_bind hlevels horders, hseats]
  rfl

theorem seat_eq_ok {orders levels : List (String × Nat)} {id : String} {n : Node} {s : Seat}
    (h : seat orders levels id n = .ok s) : s.node = n ∧ orders.lookup id = some s.order := by
  unfold seat at h
  split at h
  · next horder _ =>
    cases h
    exact ⟨rfl, horder⟩
  · cases h

/-- Where placing succeeds, it gives every node its order, whatever the graph. -/
theorem exists_orders_of_assign {placements : List (String × Placement)} (hids : (nodes.map (·.id)).Nodup)
    (h : assign nodes edges = .ok placements) :
    ∃ orders, (graphOf nodes edges).orders startId finishId (sweep nodes) = .ok orders ∧
      ∀ id ∈ nodes.map (·.id), ∃ p, placements.lookup id = some p ∧ orders.lookup id = some p.order := by
  obtain ⟨levels, -, h⟩ := Table.bind_eq_ok.mp h
  obtain ⟨orders, horders, h⟩ := Table.bind_eq_ok.mp h
  obtain ⟨seats, hseats, h⟩ := Table.bind_eq_ok.mp h
  cases h
  have hplaced : seats.map (fun s => (s.node.id, some s.order)) = nodes.map fun n => (n.id, orders.lookup n.id) := by
    rw [← map_byId hids fun id _ => (id, orders.lookup id)]
    refine Table.map_of_mapM hseats ?_
    rintro ⟨id, n, i⟩ hentry s hs
    obtain ⟨rfl, horder⟩ := seat_eq_ok hs
    rw [(mem_byId hids hentry).2, horder]
  have hnumbers := labelled_numbers [] (seats.mergeSort fun a b => a.order ≤ b.order)
  have hnames : ((labelled [] (seats.mergeSort fun a b => a.order ≤ b.order)).map (·.1)).Nodup := by
    have hsorted := congrArg (List.map (·.1)) hnumbers
    have hseatNames := congrArg (List.map (·.1)) hplaced
    simp only [List.map_map, Function.comp_def] at hsorted hseatNames
    rw [hsorted, ((List.mergeSort_perm _ _).map _).nodup_iff, hseatNames]
    exact hids
  refine ⟨orders, horders, fun id hid => ?_⟩
  obtain ⟨n, hn, rfl⟩ := List.mem_map.mp hid
  have hseat : (n.id, orders.lookup n.id) ∈ seats.map fun s => (s.node.id, some s.order) :=
    hplaced ▸ List.mem_map.mpr ⟨n, hn, rfl⟩
  obtain ⟨s, hs, heq⟩ := List.mem_map.mp hseat
  obtain ⟨hsid, hsorder⟩ := Prod.mk.inj heq
  have hin : (s.node.id, s.order) ∈ (labelled [] (seats.mergeSort fun a b => a.order ≤ b.order)).map
      fun entry => (entry.1, entry.2.order) :=
    hnumbers ▸ List.mem_map.mpr ⟨s, List.mem_mergeSort.mpr hs, rfl⟩
  obtain ⟨⟨name, p⟩, hp, hentry⟩ := List.mem_map.mp hin
  obtain ⟨hpid, hporder⟩ := Prod.mk.inj hentry
  dsimp only at hpid hporder
  rw [hpid, hsid] at hp
  exact ⟨p, (Table.lookup_eq_some_iff_mem hnames).mpr hp, by rw [← hsorder, hporder]⟩

/-- Where placing succeeds, no two nodes get one order. -/
theorem order_injective {placements : List (String × Placement)} (hids : (nodes.map (·.id)).Nodup)
    (h : assign nodes edges = .ok placements) {a b : String} (ha : a ∈ nodes.map (·.id)) (hb : b ∈ nodes.map (·.id))
    (heq : (placements.lookup a).map (·.order) = (placements.lookup b).map (·.order)) : a = b := by
  obtain ⟨orders, horders, hplaced⟩ := exists_orders_of_assign hids h
  obtain ⟨p, hp, hpa⟩ := hplaced a ha
  obtain ⟨q, hq, hqb⟩ := hplaced b hb
  rw [hp, hq] at heq
  exact Digraph.orders_injective horders hpa (hqb.trans heq.symm)

namespace Placeable

theorem mem_sweep (h : Placeable nodes edges) {id : String} :
    id ∈ sweep nodes ↔ id ∈ (graphOf nodes edges).nodes := by
  rw [h.nodes_graph, (sweep_perm h.ids_nodup).mem_iff]

theorem mem_run (h : Placeable nodes edges) {run : List String}
    (hrun : (graphOf nodes edges).RunsThrough startId finishId run) {id : String} :
    id ∈ run ↔ id ∈ nodes.map (·.id) := by
  rw [hrun.mem_iff, h.nodes_graph]

/-- **Placing succeeds**, and gives the labelled seats of a run through the graph. -/
theorem exists_assign (h : Placeable nodes edges) :
    ∃ run levels, RunOf nodes edges run ∧ (graphOf nodes edges).RunsThrough startId finishId run ∧
      (graphOf nodes edges).levels finishId = .ok levels ∧
      assign nodes edges = .ok (labelled [] (seatsIn run levels nodes)) := by
  obtain ⟨visits, hvisits, hnodup, hrun⟩ := h.bounded.exists_visits fun _ => h.mem_sweep
  obtain ⟨levels, hlevels, hlevel⟩ := h.bounded.acyclic.exists_levels finishId
  exact ⟨_, levels, ⟨visits, hvisits, hnodup, rfl⟩, hrun, hlevels, assign_eq_labelled h.ids_nodup h.nodes_graph
    hrun.topological (h.bounded.orders_eq hvisits hnodup) hlevels hlevel⟩

variable {placements : List (String × Placement)}

/-- The placements, looked up, give every node the number that it has in the run. -/
theorem lookup_assign (h : Placeable nodes edges) (hassign : assign nodes edges = .ok placements) :
    ∃ run, RunOf nodes edges run ∧ (graphOf nodes edges).RunsThrough startId finishId run ∧
      placements.map (·.1) = run ∧
      ∀ id ∈ nodes.map (·.id), ∃ p, placements.lookup id = some p ∧ p.order = numberOf run id := by
  obtain ⟨run, levels, hrunOf, hrun, -, hok⟩ := h.exists_assign
  obtain rfl := Except.ok.inj (hassign.symm.trans hok)
  have hnumbers := (labelled_numbers [] _).trans (seatsIn_numbers levels h.ids_nodup hrun.nodup fun _ => h.mem_run hrun)
  refine ⟨run, hrunOf, hrun, ?_, fun id hid => ?_⟩
  · have hnames := congrArg (List.map (·.1)) hnumbers
    rwa [List.map_map, List.zipIdx_map_fst] at hnames
  · obtain ⟨number, hnumber⟩ := Table.exists_lookup_zipIdx 1 ((h.mem_run hrun).mpr hid)
    have hlookup := hnumber
    rw [← hnumbers, Table.lookup_map_value (fun p : Placement => p.order), Option.map_eq_some_iff] at hlookup
    obtain ⟨p, hp, horder⟩ := hlookup
    exact ⟨p, hp, by rw [horder, numberOf, hnumber, Option.getD_some]⟩

theorem graphOf_map (hid : ∀ n, (f n).id = n.id) : graphOf (nodes.map f) edges = graphOf nodes edges := by
  rw [graphOf, graphOf, List.map_map, show ((·.id) ∘ f) = (·.id) from funext hid]

/-- Nodes that differ in their places and labels only can be placed alike. -/
theorem map (h : Placeable nodes edges) (hid : ∀ n, (f n).id = n.id) : Placeable (nodes.map f) edges := by
  have hids : (nodes.map f).map (·.id) = nodes.map (·.id) := by
    rw [List.map_map, show ((·.id) ∘ f) = (·.id) from funext hid]
  exact ⟨hids ▸ h.ids_nodup, by rw [graphOf_map hid, h.nodes_graph, hids], by rw [graphOf_map hid]; exact h.bounded⟩

/-- **Placing placed nodes changes nothing**: with the orders of their placements they are placed as before. -/
theorem assign_placed (h : Placeable nodes edges) (hassign : assign nodes edges = .ok placements)
    (hid : ∀ n, (f n).id = n.id) (hconfig : ∀ n, (f n).config = n.config)
    (horder : ∀ n ∈ nodes, ∃ p, placements.lookup n.id = some p ∧ (f n).order = some ↑p.order) :
    assign (nodes.map f) edges = .ok placements := by
  obtain ⟨run, levels, hrunOf, hrun, hlevels, hok⟩ := h.exists_assign
  obtain ⟨run', levels', hrunOf', -, hlevels', hok'⟩ := (h.map hid).exists_assign
  -- The orders of the placements are the numbers of the run, so the second sweep follows the run.
  have hsweep : sweep (nodes.map f) = run := by
    obtain ⟨run'', hrunOf'', -, -, hlookup⟩ := h.lookup_assign hassign
    have hsame : run'' = run := hrunOf''.unique hrunOf
    have hmem : ∀ id, id ∈ run ↔ id ∈ (nodes.map f).map (·.id) := fun id => by
      rw [hrun.mem_iff, ← (h.map hid).nodes_graph, graphOf_map hid]
    refine sweep_of_numbered (h.map hid).ids_nodup hrun.nodup hmem ?_
    intro m hm
    obtain ⟨n, hn, rfl⟩ := List.mem_map.mp hm
    obtain ⟨p, hp, hplaced⟩ := horder n hn
    obtain ⟨q, hq, hnumber⟩ := hlookup n.id (List.mem_map_of_mem hn)
    obtain rfl := Option.some.inj (hp.symm.trans hq)
    rw [hplaced, hnumber, hsame, hid]
  have hsame : run' = run := by
    obtain ⟨visits, hvisits, -, rfl⟩ := hrunOf
    obtain ⟨visits', hvisits', -, rfl⟩ := hrunOf'
    rw [graphOf_map hid, hsweep] at hvisits'
    have hagain := Digraph.sweepUp_again hvisits
    rw [Except.ok.inj (hvisits'.symm.trans hagain)]
  have hlevel : levels' = levels := by
    rw [graphOf_map hid] at hlevels'
    exact Except.ok.inj (hlevels'.symm.trans hlevels)
  rw [hok', hsame, hlevel, seatsIn_map hid, ← hassign, hok]
  exact congrArg Except.ok (labelled_map hid hconfig [] _)

end Placeable

/-! ## Placing without an end -/

/-- Placing succeeds also where the end is missing, and numbers the nodes from one in a topological order. -/
theorem exists_assign_of_rooted (hids : (nodes.map (·.id)).Nodup)
    (hnodes : (graphOf nodes edges).nodes = nodes.map (·.id))
    (hrooted : (graphOf nodes edges).Rooted startId finishId) :
    ∃ run placements, (graphOf nodes edges).Topological run ∧ assign nodes edges = .ok placements ∧
      (placements.map fun entry => (entry.1, entry.2.order)) = run.zipIdx 1 := by
  have hsweep : ∀ id, id ∈ sweep nodes ↔ id ∈ (graphOf nodes edges).nodes := fun id => by
    rw [hnodes, (sweep_perm hids).mem_iff]
  obtain ⟨run, hrun, horders⟩ := hrooted.exists_orders hsweep
  obtain ⟨levels, hlevels, hlevel⟩ := hrooted.acyclic.exists_levels finishId
  refine ⟨run, _, hrun, assign_eq_labelled hids hnodes hrun horders hlevels hlevel, ?_⟩
  exact (labelled_numbers [] _).trans (seatsIn_numbers levels hids hrun.nodup fun id => by rw [hrun.mem_iff, hnodes])

end FormFlow.Placement
