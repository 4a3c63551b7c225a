import FormFlow.Proofs.Operations
/-!
The index of edge ids.

Edges have distinct ids, and the index leads from each to the ends of its edge and from nothing else (`Indexed`). In
such a store the edge of an id is the edge that has it, and a removal finds every edge that it takes. The operations
keep the index exact, up to a removal that stops half-way.
-/

set_option autoImplicit false

namespace FormFlow.Store

variable {s t : Store} {id : String} {n : Node} {e : Edge}

/-- The index entry of an edge. -/
def entry (e : Edge) : String × String × String := (e.id, e.ends)

/-- The ids of the edges are distinct, and the index holds their ends. -/
structure Indexed (s : Store) : Prop where
  ids_nodup : (s.links.map (·.id)).Nodup
  index_perm : s.index.Perm (s.links.map entry)

/-! ## Looking up -/

namespace Indexed

theorem names_perm (h : s.Indexed) : (s.index.map (·.1)).Perm (s.links.map (·.id)) := by
  have := h.index_perm.map (·.1)
  rwa [List.map_map] at this

theorem names_nodup (h : s.Indexed) : (s.index.map (·.1)).Nodup := h.names_perm.nodup_iff.mpr h.ids_nodup

theorem link_unique (h : s.Indexed) {f : Edge} (he : e ∈ s.links) (hf : f ∈ s.links) (hid : e.id = f.id) : e = f :=
  List.inj_on_of_nodup_map h.ids_nodup he hf hid

/-- An id stands for the edge that has it. -/
theorem edge?_eq_some_iff (h : s.Indexed) (hs : s.WellFormed) : s.edge? id = some e ↔ e ∈ s.links ∧ e.id = id := by
  have hentry : ∀ {ends}, s.index.lookup id = some ends ↔ ∃ f ∈ s.links, f.id = id ∧ f.ends = ends := by
    intro ends
    rw [Table.lookup_eq_some_iff_mem h.names_nodup, h.index_perm.mem_iff, List.mem_map]
    simp only [entry, Prod.mk.injEq]
  have hbetween : ∀ {f}, f ∈ s.links → s.between? f.source f.target = some f := fun hf =>
    hs.between?_eq_some_iff.mpr ⟨hf, rfl, rfl⟩
  rw [edge?, Option.bind_eq_some_iff]
  constructor
  · rintro ⟨ends, hlookup, hfind⟩
    obtain ⟨f, hf, hid, rfl⟩ := hentry.mp hlookup
    obtain rfl := Option.some.inj ((hbetween hf).symm.trans hfind)
    exact ⟨hf, hid⟩
  · rintro ⟨he, hid⟩
    exact ⟨e.ends, hentry.mpr ⟨e, he, hid, rfl⟩, hbetween he⟩

theorem of_alike (h : s.Indexed) (ht : Alike t s) : t.Indexed where
  ids_nodup := (ht.links.map _).nodup_iff.mpr h.ids_nodup
  index_perm := (List.Perm.of_eq ht.index).trans (h.index_perm.trans (ht.links.map _).symm)

/-! ## Adding -/

theorem addNode (h : s.Indexed) (ht : s.addNode n = .ok t) : t.Indexed := by
  obtain ⟨-, rfl⟩ := addNode_eq_ok ht
  exact ⟨h.ids_nodup, h.index_perm⟩

theorem addEdge (h : s.Indexed) (ht : s.addEdge e = .ok t) : t.Indexed := by
  obtain ⟨-, -, hid, -, rfl⟩ := addEdge_eq_ok ht
  have hnew : e.id ∉ s.links.map (·.id) := fun hm => by
    have hname := h.names_perm.mem_iff.mpr hm
    obtain ⟨ends, hlookup⟩ := Table.exists_lookup_iff.mpr hname
    rw [hasEdge, hlookup] at hid
    cases hid
  refine ⟨?_, ?_⟩
  · rw [List.map_append, List.map_singleton, ← List.concat_eq_append]
    exact List.Nodup.concat hnew h.ids_nodup
  · rw [List.map_append, List.map_singleton]
    exact h.index_perm.append_right _

/-! ## Removing -/

/-- A removal that takes the same edges out of the edges and out of the index. -/
theorem filter (h : s.Indexed) (gone : List String) {q : Edge → Bool} (hlinks : t.links = s.links.filter q)
    (hindex : t.index = s.index.filter fun entry => entry.1 ∉ gone)
    (hq : ∀ f ∈ s.links, q f = true ↔ f.id ∉ gone) : t.Indexed := by
  have hkeep : t.links = s.links.filter fun f => f.id ∉ gone := by
    rw [hlinks]
    exact List.filter_congr fun f hf => by rw [Bool.eq_iff_iff, hq f hf, decide_eq_true_iff]
  refine ⟨?_, ?_⟩
  · rw [hlinks]
    exact h.ids_nodup.sublist (List.filter_sublist.map _)
  · rw [hindex, hkeep]
    refine (h.index_perm.filter _).trans (List.Perm.of_eq ?_)
    rw [List.filter_map]
    rfl

end Indexed

theorem dropIds_eq_ok {index dropped : List (String × String × String)} {ids : List String}
    (h : dropIds index ids = (.ok (), dropped)) : dropped = index.filter fun entry => entry.1 ∉ ids := by
  induction ids generalizing index with
  | nil =>
    cases h
    simp
  | cons id ids ih =>
    rw [dropIds] at h
    split at h
    · rw [ih h, List.filter_filter]
      exact List.filter_congr fun entry _ => by rw [Bool.eq_iff_iff]; simp [and_comm]
    · cases h

theorem dropIds_of_mem {ids : List String} (hids : ids.Nodup) :
    ∀ {index : List (String × String × String)}, (∀ id ∈ ids, id ∈ index.map (·.1)) →
      ∃ dropped, dropIds index ids = (.ok (), dropped) := by
  induction ids with
  | nil => exact fun {index} _ => ⟨index, rfl⟩
  | cons id ids ih =>
    intro index hmem
    obtain ⟨hid, hrest⟩ := List.nodup_cons.mp hids
    obtain ⟨ends, hlookup⟩ := Table.exists_lookup_iff.mpr (hmem id List.mem_cons_self)
    rw [dropIds, hlookup, Option.isSome_some, if_pos rfl]
    refine ih hrest ?_
    intro other hother
    have hne : other ≠ id := fun heq => hid (heq ▸ hother)
    obtain ⟨entry, hentry, rfl⟩ := List.mem_map.mp (hmem other (List.mem_cons_of_mem _ hother))
    exact List.mem_map_of_mem (List.mem_filter.mpr ⟨hentry, by simpa using hne⟩)

theorem removeNode_of_not_mem (hid : id ∉ s.ids) : s.removeNode id = (.error (.unknownNode id), s) := by
  have hnone : s.node? id = none := by
    refine Option.eq_none_iff_forall_ne_some.mpr fun m hm => hid ?_
    obtain ⟨hmem, rfl⟩ := mem_of_node? hm
    exact mem_ids_of_node hmem
  simp only [removeNode, node, hnone]

namespace Indexed

theorem withoutNode (h : s.Indexed) (ht : s.withoutNode id = .ok t) : t.Indexed := by
  obtain ⟨hid, -, hlinks, hdrop⟩ := withoutNode_eq_ok ht
  refine h.filter _ hlinks (dropIds_eq_ok hdrop) ?_
  intro f hf
  -- An edge is taken out of the index exactly if it touches the node, since its id is its own.
  have htouch : f.id ∈ (s.incoming id ++ s.outgoing id).map (·.id) ↔ f.target = id ∨ f.source = id := by
    rw [List.mem_map]
    constructor
    · rintro ⟨g, hg, hgf⟩
      rcases List.mem_append.mp hg with hg | hg
      · obtain ⟨hmem, htarget⟩ := (mem_incoming hid).mp hg
        exact Or.inl (h.link_unique hmem hf hgf ▸ htarget)
      · obtain ⟨hmem, hsource⟩ := (mem_outgoing hid).mp hg
        exact Or.inr (h.link_unique hmem hf hgf ▸ hsource)
    · rintro (htarget | hsource)
      · exact ⟨f, List.mem_append_left _ ((mem_incoming hid).mpr ⟨hf, htarget⟩), rfl⟩
      · exact ⟨f, List.mem_append_right _ ((mem_outgoing hid).mpr ⟨hf, hsource⟩), rfl⟩
  rw [htouch, Bool.and_eq_true, bne_iff_ne, bne_iff_ne, not_or]
  exact and_comm

theorem removeEdge (h : s.Indexed) (hs : s.WellFormed) (ht : s.removeEdge id = .ok (e, t)) : t.Indexed := by
  obtain ⟨he, rfl⟩ := Store.removeEdge_eq_ok ht
  obtain ⟨hmem, -⟩ := (h.edge?_eq_some_iff hs).mp he
  refine h.filter [e.id] rfl ?_ fun f hf => ?_
  · exact List.filter_congr fun entry _ => by rw [Bool.eq_iff_iff]; simp
  · rw [List.mem_singleton, Bool.not_eq_true', ← Bool.not_eq_true, Bool.and_eq_true, beq_iff_eq, beq_iff_eq]
    exact not_congr ⟨fun hends => congrArg Edge.id (hs.edge_unique hf hmem hends.1 hends.2),
      fun hid => h.link_unique hf hmem hid ▸ ⟨rfl, rfl⟩⟩

/-- Removing the edge of an id takes that edge and nothing else. -/
theorem removeEdge_eq_ok (h : s.Indexed) (hs : s.WellFormed) (ht : s.removeEdge id = .ok (e, t)) :
    e ∈ s.links ∧ e.id = id ∧ t.nodes = s.nodes ∧ ∀ f, f ∈ t.links ↔ f ∈ s.links ∧ f ≠ e := by
  obtain ⟨he, rfl⟩ := Store.removeEdge_eq_ok ht
  obtain ⟨hmem, hid⟩ := (h.edge?_eq_some_iff hs).mp he
  refine ⟨hmem, hid, rfl, fun f => ?_⟩
  rw [List.mem_filter, Bool.not_eq_true', ← Bool.not_eq_true, Bool.and_eq_true, beq_iff_eq, beq_iff_eq]
  refine and_congr_right fun hf => not_congr ⟨fun hends => hs.edge_unique hf hmem hends.1 hends.2, ?_⟩
  rintro rfl
  exact ⟨rfl, rfl⟩

/-- A node without an edge to itself can be removed. -/
theorem exists_withoutNode (h : s.Indexed) (hs : s.WellFormed) (hid : id ∈ s.ids)
    (hloop : ∀ f ∈ s.links, f.source = id → f.target ≠ id) : ∃ t, s.withoutNode id = .ok t := by
  obtain ⟨m, hm⟩ := exists_node? hid
  have hlinks : ∀ f ∈ s.incoming id ++ s.outgoing id, f ∈ s.links := fun f hf =>
    (List.mem_append.mp hf).elim (fun hin => ((mem_incoming hid).mp hin).1) fun hout => ((mem_outgoing hid).mp hout).1
  have htouching : (s.incoming id ++ s.outgoing id).Nodup := by
    rw [incoming_of_mem hid, outgoing_of_mem hid]
    refine List.nodup_append.mpr ⟨hs.links_nodup.filter _, hs.links_nodup.filter _, fun f hf g hg hfg => ?_⟩
    obtain rfl := hfg
    obtain ⟨hmem, htarget⟩ := List.mem_filter.mp hf
    exact hloop f hmem (beq_iff_eq.mp (List.mem_filter.mp hg).2) (beq_iff_eq.mp htarget)
  have hids : ((s.incoming id ++ s.outgoing id).map (·.id)).Nodup :=
    htouching.map_on fun f hf g hg hfg => h.link_unique (hlinks f hf) (hlinks g hg) hfg
  have hindexed : ∀ other ∈ (s.incoming id ++ s.outgoing id).map (·.id), other ∈ s.index.map (·.1) := by
    intro other hother
    obtain ⟨f, hf, rfl⟩ := List.mem_map.mp hother
    exact h.names_perm.mem_iff.mpr (List.mem_map_of_mem (hlinks f hf))
  obtain ⟨dropped, hdropped⟩ := dropIds_of_mem hids hindexed
  exact ⟨⟨s.nodes.filter fun n => n.id != id, s.links.filter fun e => e.source != id && e.target != id, dropped⟩, by
    simp only [Store.withoutNode, removeNode, node_eq_ok_iff.mpr hm, hdropped]⟩

/-- The removal of such a node gives the edges into it and those out of it. -/
theorem exists_removeNode (h : s.Indexed) (hs : s.WellFormed) (hid : id ∈ s.ids)
    (hloop : ∀ f ∈ s.links, f.source = id → f.target ≠ id) :
    ∃ t, s.removeNode id = (.ok (s.incoming id ++ s.outgoing id), t) ∧ s.withoutNode id = .ok t := by
  obtain ⟨t, ht⟩ := h.exists_withoutNode hs hid hloop
  obtain ⟨m, hm⟩ := exists_node? hid
  obtain ⟨-, hnodes, hlinks, hdrop⟩ := withoutNode_eq_ok ht
  refine ⟨t, ?_, ht⟩
  simp only [removeNode, node_eq_ok_iff.mpr hm, hdrop, ← hnodes, ← hlinks]

end Indexed

end FormFlow.Store
