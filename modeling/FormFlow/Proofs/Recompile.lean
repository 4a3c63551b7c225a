import Mathlib.Data.String.Basic
import FormFlow.Editor.Compile
import FormFlow.Proofs.LoopReferences
import FormFlow.Proofs.Snapshot
/-!
Compiling a store whose edges are kept in another order.

Records, and the checks before them, look at the nodes, at the edges source by source, and otherwise at what the edges
are, not at the order in which they came in. So two stores that differ in that order alone are compiled alike at desks
that give the same answers (`Rearranged.compile_eq`, `Session.compile_eq_of_rearranged`).
-/

set_option autoImplicit false

namespace FormFlow

/-- Sorting forgets the order of a list, if no two of its items are of one rank. -/
theorem mergeSort_eq_of_perm {α : Type} {le : α → α → Bool} {before after : List α}
    (htrans : ∀ a b c, le a b = true → le b c = true → le a c = true) (htotal : ∀ a b, (le a b || le b a) = true)
    (hanti : ∀ a ∈ before, ∀ b ∈ before, le a b = true → le b a = true → a = b) (h : before.Perm after) :
    before.mergeSort le = after.mergeSort le := by
  refine List.Perm.eq_of_pairwise ?_ (List.pairwise_mergeSort htrans htotal _)
    (List.pairwise_mergeSort htrans htotal _) ?_
  · intro a b ha hb
    exact hanti a (List.mem_mergeSort.mp ha) b (h.mem_iff.mpr (List.mem_mergeSort.mp hb))
  · exact (List.mergeSort_perm _ _).trans (h.trans (List.mergeSort_perm _ _).symm)

theorem Inspection.sorted_eq_of_perm {before after : List String} (h : before.Perm after) :
    sorted before = sorted after := by
  have hle : ∀ a b : String, (!decide (b < a)) = true ↔ a ≤ b := fun a b => by
    rw [Bool.not_eq_true', decide_eq_false_iff_not, not_lt]
  refine mergeSort_eq_of_perm (fun a b c => ?_) (fun a b => ?_) (fun a _ b _ => ?_) h
  · rw [hle, hle, hle]
    exact le_trans
  · rw [Bool.or_eq_true, hle, hle]
    exact le_total a b
  · rw [hle, hle]
    exact le_antisymm

namespace Store

variable {s t : Store} {id : String} {placements : List (String × Placement)}

/-- The stores have the same nodes and the same edges source by source, but the edges may have come in another order. -/
structure Rearranged (t s : Store) : Prop where
  nodes : t.nodes = s.nodes
  links : t.links.Perm s.links
  edges : t.edges = s.edges

theorem WellFormed.rearranged_relisted (hs : s.WellFormed) : Rearranged s.relisted s :=
  ⟨rfl, hs.edges_perm, hs.edges_copy⟩

namespace Rearranged

theorem ids_eq (h : Rearranged t s) : t.ids = s.ids := by rw [ids, ids, h.nodes]

theorem node?_eq (h : Rearranged t s) (id : String) : t.node? id = s.node? id := by rw [node?, node?, h.nodes]

theorem selected_eq (h : Rearranged t s) (id : String) : t.selected id = s.selected id := by
  have hhas : t.hasNode = s.hasNode := by
    funext other
    rw [hasNode, hasNode, h.ids_eq]
  rw [selected, selected, hhas]

theorem outgoing_perm (h : Rearranged t s) (id : String) : (t.outgoing id).Perm (s.outgoing id) := by
  rw [outgoing, outgoing, h.selected_eq]
  exact List.Perm.flatMap_left _ fun n _ => h.links.filter _

theorem incoming_perm (h : Rearranged t s) (id : String) : (t.incoming id).Perm (s.incoming id) := by
  rw [incoming, incoming, h.selected_eq]
  exact List.Perm.flatMap_left _ fun n _ => h.links.filter _

/-- The edges out of a node stand as they stand source by source. -/
theorem outgoing_eq (h : Rearranged t s) (hs : s.WellFormed) (hid : id ∈ s.ids) : t.outgoing id = s.outgoing id := by
  have ht : t.WellFormed := by
    refine ⟨h.ids_eq ▸ hs.ids_nodup, fun e he => h.ids_eq ▸ hs.ends_mem e (h.links.mem_iff.mp he), ?_⟩
    exact (h.links.map _).nodup_iff.mpr hs.ends_nodup
  have hid' : id ∈ t.ids := h.ids_eq ▸ hid
  rw [outgoing_of_mem hid, outgoing_of_mem hid', ← hs.filter_edges hid, ← ht.filter_edges hid', h.edges]

/-! ## Inspections -/

theorem reaches_iff (h : Rearranged t s) {a b : String} : t.graph.Reaches a b ↔ s.graph.Reaches a b := by
  have harcs : ∀ {arc}, arc ∈ t.graph.arcs ↔ arc ∈ s.graph.arcs := fun {arc} => by
    simp only [mem_arcs_graph, h.links.mem_iff]
  exact ⟨Digraph.Reaches.mono fun arc => harcs.mp, Digraph.Reaches.mono fun arc => harcs.mpr⟩

theorem findsBefore_perm (h : Rearranged t s) (id : String) : (t.findsBefore id).Perm (s.findsBefore id) := by
  refine (List.perm_ext_iff_of_nodup (t.findsBefore_nodup id) (s.findsBefore_nodup id)).mpr fun find => ?_
  have hkind : t.kind? find = s.kind? find := by rw [kind?, kind?, h.node?_eq]
  rw [mem_findsBefore, mem_findsBefore, h.reaches_iff, h.reaches_iff, hkind]

theorem inspect_eq (h : Rearranged t s) (form : List (String × FormField)) (n : Node) :
    t.inspect form n = s.inspect form n := by
  have hfinds := h.findsBefore_perm n.id
  have hnarrowed : Inspection.narrowed (t.findsBefore n.id) = Inspection.narrowed (s.findsBefore n.id) := by
    funext source
    simp only [Inspection.narrowed, hfinds.isEmpty_eq, hfinds.contains_eq]
  have hloop : Inspection.loop (t.findsBefore n.id) = Inspection.loop (s.findsBefore n.id) := by
    funext c
    simp only [Inspection.loop, hfinds.contains_eq, Inspection.sorted_eq_of_perm hfinds]
  rw [inspect, inspect, hnarrowed, hloop]

/-! ## Records -/

theorem isolated?_eq (h : Rearranged t s) : t.isolated? = s.isolated? := by
  have hisolated : t.isIsolated = s.isIsolated := by
    funext n
    rw [isIsolated, isIsolated, (h.incoming_perm n.id).isEmpty_eq, (h.outgoing_perm n.id).isEmpty_eq]
  rw [isolated?, isolated?, h.nodes, hisolated]

end Rearranged

/-- Placed ids are sorted alike whatever order they come in: no two nodes have one number. -/
theorem WellFormed.sortedBy_eq_of_perm (hs : s.WellFormed)
    (hassign : Placement.assign s.nodes s.edges = .ok placements) {before after : List String}
    (hmem : ∀ id ∈ before, id ∈ s.ids) (h : before.Perm after) :
    sortedBy placements before = sortedBy placements after := by
  obtain ⟨_, -, hplaced⟩ := Placement.exists_orders_of_assign hs.ids_nodup hassign
  refine mergeSort_eq_of_perm (fun a b c => ?_) (fun a b => ?_) (fun a ha b hb => ?_) h
  · simp only [decide_eq_true_eq]
    exact Nat.le_trans
  · simp only [Bool.or_eq_true, decide_eq_true_eq]
    exact Nat.le_total _ _
  · obtain ⟨p, hp, -⟩ := hplaced a (hmem a ha)
    obtain ⟨q, hq, -⟩ := hplaced b (hmem b hb)
    simp only [decide_eq_true_eq, hp, hq, Option.map_some, Option.getD_some]
    intro hab hba
    refine Placement.order_injective hs.ids_nodup hassign (hmem a ha) (hmem b hb) ?_
    rw [hp, hq, Option.map_some, Option.map_some, Nat.le_antisymm hab hba]

/-- **Stores that differ in the order of their edges only give the same records**, or none for the same reason. -/
theorem Rearranged.compile_eq (h : Rearranged t s) (hs : s.WellFormed) : t.compile = s.compile := by
  unfold compile
  rw [h.isolated?_eq, h.nodes, h.edges]
  split
  · rfl
  · cases hassign : Placement.assign s.nodes s.edges with
    | error f => rfl
    | ok placements =>
      refine congrArg Except.ok (List.filterMap_congr fun (id, p) _ => ?_)
      show (t.node? id).map (t.recordOf placements · p) = (s.node? id).map (s.recordOf placements · p)
      rw [h.node?_eq]
      refine Option.map_congr fun n hn => ?_
      have hid : n.id ∈ s.ids := mem_ids_of_node (mem_of_node? hn).1
      have hsources : ∀ source ∈ (s.incoming n.id).map (·.source), source ∈ s.ids := by
        intro source hsource
        obtain ⟨e, he, rfl⟩ := List.mem_map.mp hsource
        exact (hs.ends_mem e ((mem_incoming hid).mp he).1).1
      have hbefore := hs.sortedBy_eq_of_perm hassign hsources ((h.incoming_perm n.id).map _).symm
      rw [recordOf, recordOf, h.outgoing_eq hs hid, hbefore]

/-- The nodes alone decide whether what the records hold can be written. -/
theorem Rearranged.compileWritten_eq (h : Rearranged t s) (hs : s.WellFormed) :
    t.compileWritten = s.compileWritten := by
  rw [compileWritten, compileWritten, h.compile_eq hs, exported, exported, h.nodes]

end Store

namespace Desk

variable {σ τ : Type} {d : Desk σ} {d' : Desk τ}

/-- The answers to requests for the fields of objects, made in turn. -/
def answers (d : Desk σ) : List String → List (Except CollaboratorFault (List FieldInfo))
  | [] => []
  | object :: rest => (d.fields object).1 :: (d.fields object).2.answers rest

/-- The desks give the same answers to whatever is asked, from their lists or from their sources. -/
def SameAnswers (d : Desk σ) (d' : Desk τ) : Prop := ∀ objects, d.answers objects = d'.answers objects

/-- Desks that give the same answers still do after a request. -/
theorem SameAnswers.fields (h : d.SameAnswers d') (object : String) :
    (d.fields object).1 = (d'.fields object).1 ∧ (d.fields object).2.SameAnswers (d'.fields object).2 :=
  ⟨(List.cons.inj (h [object])).1, fun objects => (List.cons.inj (h (object :: objects))).2⟩

theorem run_byFields (n : Node) (object : String) (judge : List FieldInfo → Option NodeProblem) (d : Desk σ) :
    (Inspection.byFields object judge).run n d =
      (match (d.fields object).1 with
        | .ok fields => Inspection.verdict n (judge fields)
        | .error f => .error (.collaborator f), (d.fields object).2) := by
  rcases h : d.fields object with ⟨_ | _, _⟩ <;> simp only [Inspection.run, h]

/-- An inspection comes to the same verdict at such desks. -/
theorem SameAnswers.run (h : d.SameAnswers d') (n : Node) (i : Inspection) :
    (i.run n d).1 = (i.run n d').1 ∧ (i.run n d).2.SameAnswers (i.run n d').2 := by
  cases i with
  | settled p => exact ⟨rfl, h⟩
  | byFields object judge =>
    obtain ⟨hanswer, hlater⟩ := h.fields object
    rw [run_byFields, run_byFields, hanswer]
    exact ⟨rfl, hlater⟩

end Desk

namespace Session

variable {σ τ : Type} {s t : Store}

/-- Checking one node, or all, comes to the same in stores that differ in the order of their edges only. -/
theorem check_eq_of_rearranged (h : Store.Rearranged t s) (form : List (String × FormField)) (id : String) {d : Desk σ}
    {d' : Desk τ} (hdesk : d'.SameAnswers d) :
    (t.check form id d').1 = (s.check form id d).1 ∧ (t.check form id d').2.SameAnswers (s.check form id d).2 := by
  have hnode : t.node id = s.node id := by rw [Store.node, Store.node, h.node?_eq]
  rw [Store.check, Store.check, hnode]
  cases s.node id with
  | error f => exact ⟨rfl, hdesk⟩
  | ok n =>
    simp only [h.inspect_eq]
    exact hdesk.run n _

theorem checkAll_cons (s : Store) (form : List (String × FormField)) (d : Desk σ) (id : String) (ids : List String) :
    (checkAll s form d (id :: ids)).1 =
      (s.check form id d).1.bind fun _ => (checkAll s form (s.check form id d).2 ids).1 := by
  rw [checkAll]
  rcases s.check form id d with ⟨_ | ⟨⟩, _⟩ <;> rfl

theorem checkAll_eq_of_rearranged (h : Store.Rearranged t s) (form : List (String × FormField)) (ids : List String)
    {d : Desk σ} {d' : Desk τ} (hdesk : d'.SameAnswers d) :
    (checkAll t form d' ids).1 = (checkAll s form d ids).1 := by
  induction ids generalizing d d' with
  | nil => rfl
  | cons id ids ih =>
    obtain ⟨hverdict, hlater⟩ := check_eq_of_rearranged h form id hdesk
    rw [checkAll_cons, checkAll_cons, hverdict, ih hlater]

/-- What a session compiles to is decided by the check of its nodes, and by its graph. -/
theorem compile_fst (s : Session σ) : s.compile.1 =
    match s.editor.store.isolated? with
    | some n => .error (.isolated n.name n.id)
    | none =>
      ((checkAll s.editor.store s.editor.form s.desk (s.editor.sequence.map (·.id))).1.mapError .ofCheck).bind
        fun _ => s.editor.store.compileWritten := by
  unfold compile
  cases s.editor.store.isolated? with
  | some n => rfl
  | none =>
    rcases hchecked : checkAll s.editor.store s.editor.form s.desk (s.editor.sequence.map (·.id)) with ⟨_ | ⟨⟩, desk⟩
    · simp only [hchecked]
      rfl
    · rcases hcompiled : s.editor.store.compileWritten with _ | _
      all_goals
        simp only [hchecked, hcompiled]
        rfl

/-- **Sessions compile to the same**, if their graphs differ in the order of their edges only, their forms are the same
and their desks give the same answers. -/
theorem compile_eq_of_rearranged {a : Session σ} {b : Session τ}
    (h : Store.Rearranged b.editor.store a.editor.store) (hwell : a.editor.store.WellFormed)
    (hform : b.editor.form = a.editor.form) (hdesk : b.desk.SameAnswers a.desk) : b.compile.1 = a.compile.1 := by
  have hsequence : b.editor.sequence = a.editor.sequence := by rw [Editor.sequence, Editor.sequence, h.nodes]
  rw [compile_fst, compile_fst, h.isolated?_eq, h.compileWritten_eq hwell, hform, hsequence,
    checkAll_eq_of_rearranged h a.editor.form _ hdesk]

end Session

end FormFlow
