import FormFlow.Proofs.Acceptance
import FormFlow.Proofs.Grounded
import FormFlow.Proofs.RoundTrip
/-!
Stores as they are written, opened again.

The document of a store lists its nodes with their orders, and its edges source by source. It gives a store with these
nodes, unplaced, and these edges (`store_spec`). If the check accepts the first store and placing leaves it as it is,
the second one is accepted too, and placing it gives every node its place back: the document opens with the same nodes
and edges, the edges now in the order in which they are listed (`openStore_spec`).
-/

set_option autoImplicit false

namespace FormFlow

/-- A node as a document gives it: unplaced, but with the order that was written. -/
def Node.reset (n : Node) : Node := { Node.unplaced n.id n.config n.position with order := n.order }

/-- An edge that is read back as it is written: its id is not empty, and neither is its group. -/
def Edge.Named (e : Edge) : Prop := e.id ≠ "" ∧ e.group ≠ some ""

namespace Document

variable {s : Store}

theorem nodeOf_spec (n : Node) : nodeOf n.spec = .ok n.reset := by
  simp only [nodeOf, Node.spec, Node.specWith, Node.kind, Config.parse_toMembers]
  rfl

theorem filled?_eq_self {text : Option String} (h : text ≠ some "") : Text.filled? text = text := by
  cases text with
  | none => rfl
  | some text => simpa [Text.filled?, Option.filter_eq_some_iff] using fun heq => h (congrArg some heq)

theorem edge_spec {e : Edge} (h : e.Named) : e.spec.edge = e := by
  have hid : some e.id ≠ some "" := fun heq => h.1 (Option.some.inj heq)
  simp only [Edge.spec, EdgeSpec.edge, filled?_eq_self hid, filled?_eq_self h.2, Option.getD_some]

/-- New nodes are added as they are written. -/
theorem foldlM_addSpec {nodes : List Node} (h : (s.ids ++ nodes.map (·.id)).Nodup) :
    (nodes.map Node.spec).foldlM addSpec s = .ok { s with nodes := s.nodes ++ nodes.map Node.reset } := by
  induction nodes generalizing s with
  | nil => simp [pure, Except.pure]
  | cons n nodes ih =>
    have hnew : s.hasNode n.reset.id = false := by
      rw [← Bool.not_eq_true, Store.hasNode_eq_true_iff]
      intro hmem
      exact (List.nodup_append.mp h).2.2 _ hmem _ List.mem_cons_self rfl
    have hadd : addSpec s n.spec = .ok { s with nodes := s.nodes ++ [n.reset] } := by
      simp only [addSpec, nodeOf_spec, bind, Except.bind, Store.addNode_of_new hnew]
      rfl
    rw [List.map_cons, List.foldlM_cons, hadd]
    show (nodes.map Node.spec).foldlM addSpec _ = _
    rw [ih ?_]
    · simp
    · simpa [Store.ids, Node.reset, Node.unplaced] using h

/-- New edges between nodes that are there are added as they are written. -/
theorem foldlM_addEdge {edges : List Edge} (hends : ∀ e ∈ edges, e.source ∈ s.ids ∧ e.target ∈ s.ids)
    (hpairs : ((s.links ++ edges).map Edge.ends).Nodup) (hids : (s.index.map (·.1) ++ edges.map (·.id)).Nodup)
    (hnamed : ∀ e ∈ edges, e.Named) :
    (edges.map Edge.spec).foldlM (fun s e => s.addEdge e.edge) s =
      .ok { s with links := s.links ++ edges, index := s.index ++ edges.map Store.entry } := by
  induction edges generalizing s with
  | nil => simp [pure, Except.pure]
  | cons e edges ih =>
    obtain ⟨hsource, htarget⟩ := hends e List.mem_cons_self
    have hid : s.hasEdge e.id = false := by
      rw [Store.hasEdge, ← Bool.not_eq_true, Option.isSome_iff_exists, Table.exists_lookup_iff]
      intro hmem
      exact (List.nodup_append.mp hids).2.2 _ hmem _ List.mem_cons_self rfl
    have hpair : s.between? e.source e.target = none := by
      refine Store.between?_eq_none_of fun f hf hsame htarget => ?_
      rw [List.map_append] at hpairs
      exact (List.nodup_append.mp hpairs).2.2 _ (List.mem_map_of_mem hf) _ List.mem_cons_self (Prod.ext hsame htarget)
    have hadd := Store.addEdge_of_new (Store.hasNode_eq_true_iff.mpr hsource) (Store.hasNode_eq_true_iff.mpr htarget)
      hid hpair
    rw [List.map_cons, List.foldlM_cons, edge_spec (hnamed e List.mem_cons_self), hadd]
    show (edges.map Edge.spec).foldlM (fun (t : Store) e => t.addEdge e.edge) _ = _
    rw [ih ?_ ?_ ?_ fun f hf => hnamed f (List.mem_cons_of_mem _ hf)]
    · simp [Store.entry, Edge.ends]
    · exact fun f hf => hends f (List.mem_cons_of_mem _ hf)
    · simpa using hpairs
    · simpa using hids

end Document

namespace Store

variable {s : Store}

/-- The store that a document of a store gives: its nodes unplaced, its edges as they are listed. -/
def written (s : Store) : Store := ⟨s.nodes.map Node.reset, s.edges, s.edges.map entry⟩

/-- The store with its edges in the order in which they are listed. -/
def relisted (s : Store) : Store := ⟨s.nodes, s.edges, s.edges.map entry⟩

theorem ids_written (s : Store) : s.written.ids = s.ids := by
  rw [ids, written, List.map_map]
  rfl

/-- The index aside, the written store is alike the store. -/
theorem WellFormed.alike_written (hs : s.WellFormed) : Alike { s.written with index := s.index } s :=
  ⟨kinds_map fun _ => ⟨rfl, rfl⟩, hs.edges_perm, rfl⟩

theorem WellFormed.edges_written (hs : s.WellFormed) : s.written.edges = s.edges := by
  have hcopy : ({ s.copy with nodes := s.copy.nodes.map Node.reset } : Store).edges = s.copy.edges :=
    edges_map fun _ => rfl
  exact hcopy.trans hs.edges_copy

theorem WellFormed.copy_written (hs : s.WellFormed) : s.written.copy = s.written := by
  rw [copy, hs.edges_written]
  rfl

theorem addMissing_of_named {d : Document} {id : String} (h : id ∈ d.nodes.map (·.id)) (kind : Kind) (t : Store) :
    d.addMissing id kind t = .ok t := by
  refine if_pos (List.any_eq_true.mpr ?_)
  obtain ⟨n, hn, rfl⟩ := List.mem_map.mp h
  exact ⟨n, hn, beq_self_eq_true _⟩

/-- **What is written of a store gives its nodes and edges.** -/
theorem WellFormed.store_spec (hs : s.WellFormed) (hi : s.Indexed) (hstart : startId ∈ s.ids)
    (hfinish : finishId ∈ s.ids) (hnamed : ∀ e ∈ s.links, e.Named) (formVersion : String)
    (formFields : List FormField) (objects : ObjectFields) :
    (s.spec formVersion formFields objects).store = .ok s.written := by
  have hwritten : ∀ {id}, id ∈ s.ids → id ∈ (s.spec formVersion formFields objects).nodes.map (·.id) := by
    intro id hid
    obtain ⟨n, hn, rfl⟩ := mem_ids.mp hid
    exact List.mem_map_of_mem (List.mem_map_of_mem hn)
  have hfilled : (s.spec formVersion formFields objects).nodes.foldlM Document.addSpec .empty =
      .ok { s.written with links := [], index := [] } := Document.foldlM_addSpec (s := .empty) hs.ids_nodup
  have hedges : (s.edges.map Edge.spec).foldlM (fun (t : Store) e => t.addEdge e.edge)
      { s.written with links := [], index := [] } = .ok s.written := by
    refine Document.foldlM_addEdge (s := { s.written with links := [], index := [] })
      (fun e he => s.ids_written.symm ▸ hs.ends_mem e (hs.mem_edges.mp he)) ?_ ?_
      fun e he => hnamed e (hs.mem_edges.mp he)
    · exact hs.edges_nodup
    · exact (hs.edges_perm.map _).nodup_iff.mpr hi.ids_nodup
  simp only [Document.store, addMissing_of_named (hwritten hstart), hfilled, addMissing_of_named (hwritten hfinish),
    bind, Except.bind]
  exact Document.ofStructure_eq_ok_iff.mpr hedges

/-- The check accepts a store if it accepts one that is alike. -/
theorem WellFormed.checkStructure_of_alike {t : Store} (hs : s.WellFormed) (ht : Alike t s)
    (hcheck : s.checkStructure = .ok ()) : t.checkStructure = .ok () := by
  have haccepted := (hs.checkStructure_eq_ok_iff_accepted.mp hcheck).of_alike hs ht
  exact ((ht.part hs).wellFormed hs).checkStructure_eq_ok_iff_accepted.mpr haccepted

/-- The check accepts what is written if it accepts the store: it does not look at the index. -/
theorem WellFormed.checkStructure_written (hs : s.WellFormed) (hcheck : s.checkStructure = .ok ()) :
    s.written.checkStructure = .ok () := by
  have hindexed : ({ s.written with index := s.index } : Store).checkStructure = .ok () :=
    hs.checkStructure_of_alike hs.alike_written hcheck
  exact hindexed

/-- Placing what is written gives every node its place back, if placing leaves the store as it is. -/
theorem WellFormed.recompute_written (hs : s.WellFormed) (h : s.Sound) (hfix : s.recompute = .ok s) :
    s.written.recompute = .ok s.relisted := by
  have hplaceable := hs.placeable h
  obtain ⟨placements, hassign, -, hholds⟩ := hs.exists_holds h hfix
  have hagain : Placement.assign s.written.nodes s.written.edges = .ok placements := by
    rw [hs.edges_written]
    refine hplaceable.assign_placed hassign (fun _ => rfl) (fun _ => rfl) fun n hn => ?_
    obtain ⟨p, hp, horder, -⟩ := hholds n hn
    exact ⟨p, hp, horder⟩
  rw [recompute_of_assign hagain]
  have hnodes : s.written.nodes.map (placedBy placements) = s.nodes := by
    show (s.nodes.map Node.reset).map (placedBy placements) = s.nodes
    rw [List.map_map]
    refine (List.map_congr_left fun n hn => ?_).trans (List.map_id _)
    obtain ⟨p, hp, horder, hlevel, hlabel, hdisplay⟩ := hholds n hn
    have hplaced : placedBy placements n.reset = p.apply n.reset := by
      rw [placedBy, show n.reset.id = n.id from rfl, hp]
    have hback : p.apply n.reset =
        ⟨n.id, n.position, n.config, some ↑p.order, some p.level, p.label, p.displayLabel⟩ := rfl
    rw [Function.comp_apply, hplaced, hback, ← horder, ← hlevel, ← hlabel, ← hdisplay]
    rfl
  rw [hnodes]
  rfl

/-- **What is written of a store opens with its nodes and edges**, if the check accepts the store and placing leaves it
as it is. -/
theorem WellFormed.openStore_spec (hs : s.WellFormed) (hi : s.Indexed) (hnamed : ∀ e ∈ s.links, e.Named)
    (hcheck : s.checkStructure = .ok ()) (hfix : s.recompute = .ok s) (formVersion : String)
    (formFields : List FormField) (objects : ObjectFields) :
    Editor.openStore (s.spec formVersion formFields objects) = .ok s.relisted := by
  have hsound := (checkStructure_eq_ok_iff.mp hcheck).1
  have hstore := hs.store_spec hi hsound.start_mem hsound.finish_mem hnamed formVersion formFields objects
  simp only [Editor.openStore, hstore, hs.checkStructure_written hcheck, hs.copy_written,
    hs.recompute_written hsound hfix]

end Store

namespace Document

/-! ## Documents that can be read -/

/-- What the readers of documents see to: the ids of nodes are filled, and no id is ambiguous. -/
structure Valid (d : Document) : Prop where
  ids_filled : ∀ n ∈ d.nodes, n.id ≠ ""
  unambiguous : d.idFault = none

open Checked (Yields)

theorem filled_of_read (v : Value) : (NodeSpec.read v).Yields fun n => n.id ≠ "" := by
  have hid : ∀ v, (Checked.filledText v).Yields fun id => id ≠ "" := by
    intro v
    unfold Checked.filledText
    split
    · split
      · exact nofun
      · next hne => exact .good hne
    · exact nofun
  cases v with
  | record ms =>
    refine Yields.closed ?_ _ _
    refine .seq (.seq (.seq (.seq (.mapped (fun id hid _ _ _ _ => hid) (.required hid)) _) _) _) _
  | null | bool _ | int _ | float _ | text _ | list _ => exact nofun

/-- **Documents that are read are valid.** -/
theorem valid_of_read {v : Value} {d : Document} (h : read v = .good d) : d.Valid := by
  have hnodes : ∀ ms, (readFields ms).Yields fun d => ∀ n ∈ d.nodes, n.id ≠ "" := by
    intro ms
    refine Yields.closed ?_ _ _
    refine .seq (.seq (.seq (.app (.map ?_ _) (.optional nofun (Yields.list filled_of_read))) _) _) _
    exact fun _ nodes hnodes _ _ _ => hnodes
  cases v with
  | record ms =>
    unfold read Checked.record at h
    dsimp only at h
    split at h
    · cases h
    · next d' hd =>
      split at h
      · cases h
      · next hfault =>
        cases h
        exact ⟨hnodes ms d hd, hfault⟩
  | null | bool _ | int _ | float _ | text _ | list _ => cases h

theorem firstRepeated_eq_none {seen ids : List String} (h : ids.Nodup) (hseen : ∀ id ∈ ids, id ∉ seen) :
    firstRepeated seen ids = none := by
  induction ids generalizing seen with
  | nil => rfl
  | cons id ids ih =>
    obtain ⟨hid, hids⟩ := List.nodup_cons.mp h
    have hnew : seen.contains id = false := by
      rw [← Bool.not_eq_true, List.contains_iff_mem]
      exact hseen id List.mem_cons_self
    simp only [firstRepeated, hnew]
    refine ih hids fun other hother hmem => ?_
    rcases List.mem_cons.mp hmem with rfl | hmem
    · exact hid hother
    · exact hseen other (List.mem_cons_of_mem _ hother) hmem

theorem repeated_eq_nil {ids : List String} (h : ids.Nodup) : repeated ids = [] := by
  have hfilter : (ids.filter fun id => 1 < ids.count id) = [] := by
    refine List.filter_eq_nil_iff.mpr fun id _ hmore => ?_
    have hcount := List.nodup_iff_count_le_one.mp h id
    simp only [decide_eq_true_eq] at hmore
    omega
  rw [repeated, hfilter, List.eraseDups_nil, List.mergeSort_nil]

/-- **What is written of a store is a document that can be read.** -/
theorem valid_spec {s : Store} (hs : s.WellFormed) (hi : s.Indexed) (hfilled : ∀ n ∈ s.nodes, n.id ≠ "")
    (hnamed : ∀ e ∈ s.links, e.Named) (formVersion : String) (formFields : List FormField) (objects : ObjectFields) :
    (s.spec formVersion formFields objects).Valid := by
  refine ⟨fun n hn => ?_, ?_⟩
  · obtain ⟨m, hm, rfl⟩ := List.mem_map.mp hn
    exact hfilled m hm
  · have hnodes : (s.spec formVersion formFields objects).nodes.map (·.id) = s.ids := by
      rw [Store.spec, Store.specWith, List.map_map]
      rfl
    have hedges : (s.spec formVersion formFields objects).edgeIds = s.edges.map (·.id) := by
      rw [edgeIds, Store.spec, Store.specWith, List.map_map]
      refine List.map_congr_left fun e he => ?_
      rw [Function.comp_apply, edge_spec (hnamed e (hs.mem_edges.mp he))]
    have hids : (s.edges.map (·.id)).Nodup := (hs.edges_perm.map _).nodup_iff.mpr hi.ids_nodup
    simp only [idFault, hnodes, firstRepeated_eq_none hs.ids_nodup (fun _ _ => List.not_mem_nil), hedges,
      repeated_eq_nil hids]

end Document

end FormFlow
