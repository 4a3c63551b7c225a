import Mathlib.Data.List.Perm.Subperm
import FormFlow.Proofs.Store
import FormFlow.Proofs.Table
/-!
What each operation on a store does, and what all of them keep.

An operation that adds nothing leaves a part of the store (`Part`): some of its nodes with their kinds, some of its
edges, and with every edge both ends. A copy, a replaced or placed node and every removal give parts, so what parts
inherit is shown once. A copy, a replaced and a placed node even leave the store alike (`Alike`). Adding a node or an
edge is described by its result.
-/

set_option autoImplicit false

namespace FormFlow.Store

variable {s t u : Store} {id : String} {n : Node} {e : Edge}

/-! ## Parts -/

/-- A part of a store: nodes of it in their order, with their kinds, and edges of it, with both ends. -/
structure Part (t s : Store) : Prop where
  kinds : t.kinds.Sublist s.kinds
  links : t.links.Subperm s.links
  ends_mem : ∀ e ∈ t.links, e.source ∈ t.ids ∧ e.target ∈ t.ids

namespace Part

theorem ids_sublist (h : Part t s) : t.ids.Sublist s.ids := by
  rw [← kinds_names, ← kinds_names]
  exact h.kinds.map _

theorem mem_ids (h : Part t s) (hid : id ∈ t.ids) : id ∈ s.ids := h.ids_sublist.subset hid

theorem mem_links (h : Part t s) (he : e ∈ t.links) : e ∈ s.links := h.links.subset he

theorem wellFormed (h : Part t s) (hs : s.WellFormed) : t.WellFormed where
  ids_nodup := hs.ids_nodup.sublist h.ids_sublist
  ends_mem := h.ends_mem
  ends_nodup := by
    obtain ⟨links, hperm, hsub⟩ := h.links
    exact (hperm.map _).nodup_iff.mp (hs.ends_nodup.sublist (hsub.map _))

/-- The nodes that stay keep their kinds. -/
theorem kind?_eq (h : Part t s) (hs : s.WellFormed) (hid : id ∈ t.ids) : t.kind? id = s.kind? id := by
  obtain ⟨k, hk⟩ := exists_kind? hid
  have hnodup : (s.kinds.map (·.1)).Nodup := by rw [kinds_names]; exact hs.ids_nodup
  have hnodup' : (t.kinds.map (·.1)).Nodup := hnodup.sublist (h.kinds.map _)
  rw [hk]
  rw [kind?_eq_lookup] at hk ⊢
  exact ((Table.lookup_eq_some_iff_mem hnodup).mpr (h.kinds.subset ((Table.lookup_eq_some_iff_mem hnodup').mp hk))).symm

theorem kind?_of_kind? (h : Part t s) (hs : s.WellFormed) {k : Kind} (hk : t.kind? id = some k) :
    s.kind? id = some k :=
  (h.kind?_eq hs (mem_ids_of_kind? hk)).symm.trans hk

theorem length_outgoing_le (h : Part t s) (hid : id ∈ t.ids) : (t.outgoing id).length ≤ (s.outgoing id).length := by
  rw [outgoing_of_mem hid, outgoing_of_mem (h.mem_ids hid)]
  exact (h.links.filter _).length_le

theorem mem_outgoing (h : Part t s) (hid : id ∈ t.ids) (he : e ∈ t.outgoing id) : e ∈ s.outgoing id := by
  rw [Store.mem_outgoing hid] at he
  exact (Store.mem_outgoing (h.mem_ids hid)).mpr ⟨h.mem_links he.1, he.2⟩

/-- A node that keeps its only edge out keeps that one alone. -/
theorem outgoing_eq_singleton (h : Part t s) (honly : s.outgoing id = [e]) (he : e ∈ t.links) (hid : e.source = id) :
    t.outgoing id = [e] := by
  subst hid
  have hsource := (h.ends_mem e he).1
  have hle := h.length_outgoing_le hsource
  rw [honly] at hle
  have hin : e ∈ t.outgoing e.source := (Store.mem_outgoing hsource).mpr ⟨he, rfl⟩
  obtain ⟨f, hf⟩ := List.length_eq_one_iff.mp (Nat.le_antisymm hle (List.length_pos_of_mem hin))
  rw [hf] at hin ⊢
  rw [List.mem_singleton.mp hin]

theorem acyclic (h : Part t s) (hs : s.graph.Acyclic) : t.graph.Acyclic :=
  hs.mono fun a ha => by
    obtain ⟨e, he, hea⟩ := mem_arcs_graph.mp ha
    exact mem_arcs_graph.mpr ⟨e, h.mem_links he, hea⟩

end Part

/-- The stores have the same nodes, as far as ids and kinds go, the same edges in any order, and one index. -/
structure Alike (t s : Store) : Prop where
  kinds : t.kinds = s.kinds
  links : t.links.Perm s.links
  index : t.index = s.index

namespace Alike

theorem symm (h : Alike t s) : Alike s t := ⟨h.kinds.symm, h.links.symm, h.index.symm⟩

theorem trans (htu : Alike u t) (hst : Alike t s) : Alike u s :=
  ⟨htu.kinds.trans hst.kinds, htu.links.trans hst.links, htu.index.trans hst.index⟩

theorem ids_eq (h : Alike t s) : t.ids = s.ids := by rw [← kinds_names, ← kinds_names, h.kinds]

theorem kind?_eq (h : Alike t s) (id : String) : t.kind? id = s.kind? id := by
  rw [kind?_eq_lookup, kind?_eq_lookup, h.kinds]

theorem mem_links (h : Alike t s) : e ∈ t.links ↔ e ∈ s.links := h.links.mem_iff

theorem part (h : Alike t s) (hs : s.WellFormed) : Part t s where
  kinds := by rw [h.kinds]
  links := h.links.subperm
  ends_mem e he := h.ids_eq.symm ▸ hs.ends_mem e (h.mem_links.mp he)

end Alike

theorem kinds_map {nodes : List Node} {f : Node → Node} (h : ∀ n, (f n).id = n.id ∧ (f n).kind = n.kind) :
    ((nodes.map f).map fun n => (n.id, n.kind)) = nodes.map fun n => (n.id, n.kind) := by
  rw [List.map_map]
  exact List.map_congr_left fun n _ => Prod.ext (h n).1 (h n).2

/-! ## The operations -/

theorem addNode_eq_ok (h : s.addNode n = .ok t) : n.id ∉ s.ids ∧ t = { s with nodes := s.nodes ++ [n] } := by
  unfold addNode at h
  split at h
  · cases h
  · next hn => exact ⟨fun hid => hn (hasNode_eq_true_iff.mpr hid), by cases h; rfl⟩

theorem between?_eq_none (h : s.between? e.source e.target = none) : e.ends ∉ s.links.map Edge.ends := by
  intro hm
  obtain ⟨f, hf, hfe⟩ := List.mem_map.mp hm
  have hends := Prod.mk.inj hfe
  exact List.find?_eq_none.mp h f hf (by simp [hends.1, hends.2])

theorem addEdge_eq_ok (h : s.addEdge e = .ok t) :
    e.source ∈ s.ids ∧ e.target ∈ s.ids ∧ s.hasEdge e.id = false ∧ e.ends ∉ s.links.map Edge.ends ∧
      t = { s with links := s.links ++ [e], index := s.index ++ [(e.id, e.source, e.target)] } := by
  unfold addEdge at h
  cases hsource : s.node e.source with
  | error f => simp [hsource, bind, Except.bind] at h
  | ok m =>
    cases htarget : s.node e.target with
    | error f => simp [hsource, htarget, bind, Except.bind] at h
    | ok m' =>
      simp only [hsource, htarget, bind, Except.bind] at h
      split at h
      · cases h
      · next hid =>
        split at h
        · cases h
        · next hbetween =>
          obtain ⟨hm, rfl'⟩ := mem_of_node? (node_eq_ok_iff.mp hsource)
          obtain ⟨hm', rfl''⟩ := mem_of_node? (node_eq_ok_iff.mp htarget)
          refine ⟨rfl' ▸ mem_ids_of_node hm, rfl'' ▸ mem_ids_of_node hm', by simpa using hid, ?_, by cases h; rfl⟩
          exact between?_eq_none (by simpa using hbetween)

theorem replaceNode_eq_ok (h : s.replaceNode n = .ok t) : s.kind? n.id = some n.kind ∧ t = s.put n := by
  unfold replaceNode at h
  cases hn : s.node n.id with
  | error f => simp [hn, bind, Except.bind] at h
  | ok m =>
    simp only [hn, bind, Except.bind] at h
    split at h
    · cases h
    · next hkind =>
      exact ⟨kind?_eq_some_iff.mpr ⟨m, node_eq_ok_iff.mp hn, by simpa using hkind⟩, by cases h; rfl⟩

theorem removeEdge_eq_ok {removed : Edge} (h : s.removeEdge id = .ok (removed, t)) :
    s.edge? id = some removed ∧
      t = { s with
        links := s.links.filter fun f => !(f.source == removed.source && f.target == removed.target)
        index := s.index.filter fun (k, _) => k != removed.id } := by
  unfold removeEdge edge at h
  cases hid : s.edge? id with
  | none => simp [hid, bind, Except.bind] at h
  | some e =>
    simp only [hid, bind, Except.bind, pure, Except.pure] at h
    cases h
    exact ⟨rfl, rfl⟩

/-- A removal either leaves nodes and edges alone, or takes the node with all its edges. -/
theorem removeNode_cases (s : Store) (id : String) :
    ((s.removeNode id).2.nodes = s.nodes ∧ (s.removeNode id).2.links = s.links) ∨
    ((s.removeNode id).2.nodes = s.nodes.filter (fun n => n.id != id) ∧
      (s.removeNode id).2.links = s.links.filter fun e => e.source != id && e.target != id) := by
  unfold removeNode
  split
  · exact Or.inl ⟨rfl, rfl⟩
  · dsimp only
    split
    · exact Or.inl ⟨rfl, rfl⟩
    · exact Or.inr ⟨rfl, rfl⟩

theorem withoutNode_eq_ok (h : s.withoutNode id = .ok t) :
    id ∈ s.ids ∧ t.nodes = s.nodes.filter (fun n => n.id != id) ∧
      t.links = s.links.filter (fun e => e.source != id && e.target != id) ∧
      dropIds s.index ((s.incoming id ++ s.outgoing id).map (·.id)) = (.ok (), t.index) := by
  unfold withoutNode removeNode at h
  cases hn : s.node id with
  | error f => simp [hn] at h
  | ok m =>
    obtain ⟨hm, rfl⟩ := mem_of_node? (node_eq_ok_iff.mp hn)
    simp only [hn] at h
    split at h
    · next heq =>
      split at heq
      · cases heq
      · next hdrop =>
        cases heq
        cases h
        exact ⟨mem_ids_of_node hm, rfl, rfl, hdrop⟩
    · cases h

theorem recompute_eq_ok (h : s.recompute = .ok t) :
    ∃ placements, Placement.assign s.nodes s.edges = .ok placements ∧
      t = { s with nodes := s.nodes.map fun n =>
        match placements.lookup n.id with
        | some p => p.apply n
        | none => n } := by
  unfold recompute at h
  cases hassign : Placement.assign s.nodes s.edges with
  | error f => simp [hassign, bind, Except.bind] at h
  | ok placements =>
    simp only [hassign, bind, Except.bind, pure, Except.pure] at h
    cases h
    exact ⟨placements, rfl, rfl⟩

/-! ## Operations that give parts -/

theorem alike_recompute (h : s.recompute = .ok t) : Alike t s := by
  obtain ⟨placements, -, rfl⟩ := recompute_eq_ok h
  refine ⟨kinds_map fun n => ?_, List.Perm.refl _, rfl⟩
  split <;> exact ⟨rfl, rfl⟩

namespace WellFormed

theorem alike_copy (hs : s.WellFormed) : Alike s.copy s := ⟨rfl, hs.edges_perm, rfl⟩

theorem alike_put (hs : s.WellFormed) (hk : s.kind? n.id = some n.kind) : Alike (s.put n) s := by
  refine ⟨?_, List.Perm.refl _, rfl⟩
  rw [kinds, put, List.map_map]
  refine List.map_congr_left ?_
  intro m hm
  by_cases hid : m.id = n.id
  · have hkind : m.kind = n.kind := Option.some.inj ((hs.kind?_of_mem hm).symm.trans (hid ▸ hk))
    simp [hid, hkind]
  · simp [hid]

/-- A store without some of its nodes and the edges that touch them. -/
theorem part_of_filter (hs : s.WellFormed) (keep : String → Bool)
    (hnodes : t.nodes = s.nodes.filter fun n => keep n.id)
    (hlinks : t.links = s.links.filter fun e => keep e.source && keep e.target) : Part t s where
  kinds := by
    rw [kinds, kinds, hnodes]
    exact List.filter_sublist.map _
  links := by
    rw [hlinks]
    exact List.filter_sublist.subperm
  ends_mem e he := by
    rw [hlinks, List.mem_filter, Bool.and_eq_true] at he
    obtain ⟨hmem, hsource, htarget⟩ := he
    have stays : ∀ {id}, id ∈ s.ids → keep id = true → id ∈ t.ids := by
      intro id hid hkeep
      obtain ⟨n, hn, rfl⟩ := Store.mem_ids.mp hid
      exact mem_ids_of_node (hnodes ▸ List.mem_filter.mpr ⟨hn, hkeep⟩)
    exact ⟨stays (hs.ends_mem e hmem).1 hsource, stays (hs.ends_mem e hmem).2 htarget⟩

theorem part_removeNode (hs : s.WellFormed) (id : String) : Part (s.removeNode id).2 s := by
  rcases s.removeNode_cases id with ⟨hnodes, hlinks⟩ | ⟨hnodes, hlinks⟩
  · exact ⟨by rw [kinds, kinds, hnodes], by rw [hlinks], by rw [hlinks, ids, hnodes]; exact hs.ends_mem⟩
  · exact hs.part_of_filter (fun other => other != id) hnodes hlinks

theorem part_withoutNode (hs : s.WellFormed) (h : s.withoutNode id = .ok t) : Part t s :=
  have ⟨_, hnodes, hlinks, _⟩ := withoutNode_eq_ok h
  hs.part_of_filter (fun other => other != id) hnodes hlinks

theorem part_removeEdge (hs : s.WellFormed) (h : s.removeEdge id = .ok (e, t)) : Part t s := by
  obtain ⟨-, rfl⟩ := removeEdge_eq_ok h
  exact ⟨List.Sublist.refl _, List.filter_sublist.subperm, fun f hf => hs.ends_mem f (List.mem_filter.mp hf).1⟩

/-! ## Operations that add -/

theorem addNode (hs : s.WellFormed) (h : s.addNode n = .ok t) : t.WellFormed := by
  obtain ⟨hnew, rfl⟩ := addNode_eq_ok h
  refine ⟨?_, fun e he => ?_, hs.ends_nodup⟩
  · rw [ids, List.map_append, List.map_singleton, ← List.concat_eq_append]
    exact List.Nodup.concat hnew hs.ids_nodup
  · have := hs.ends_mem e he
    simp only [ids, List.map_append, List.mem_append]
    exact ⟨Or.inl this.1, Or.inl this.2⟩

theorem addEdge (hs : s.WellFormed) (h : s.addEdge e = .ok t) : t.WellFormed := by
  obtain ⟨hsource, htarget, -, hnew, rfl⟩ := addEdge_eq_ok h
  refine ⟨hs.ids_nodup, fun f hf => ?_, ?_⟩
  · rcases List.mem_append.mp hf with hf | hf
    · exact hs.ends_mem f hf
    · obtain rfl := List.mem_singleton.mp hf
      exact ⟨hsource, htarget⟩
  · rw [List.map_append, List.map_singleton, ← List.concat_eq_append]
    exact List.Nodup.concat hnew hs.ends_nodup

end WellFormed

/-! ## Built stores -/

/-- The stores that can be built: from the empty one by the operations, in any order and number. -/
inductive Built : Store → Prop where
  | empty : Built .empty
  | addNode {s t : Store} {n : Node} : Built s → s.addNode n = .ok t → Built t
  | replaceNode {s t : Store} {n : Node} : Built s → s.replaceNode n = .ok t → Built t
  /-- A removal that fails counts too: it may have cleared a part of the index. -/
  | removeNode {s : Store} (id : String) : Built s → Built (s.removeNode id).2
  | addEdge {s t : Store} {e : Edge} : Built s → s.addEdge e = .ok t → Built t
  | removeEdge {s t : Store} {id : String} {e : Edge} : Built s → s.removeEdge id = .ok (e, t) → Built t
  | copy {s : Store} : Built s → Built s.copy
  | recompute {s t : Store} : Built s → s.recompute = .ok t → Built t

/-- A store that is put together from nodes and edges is built. -/
theorem Built.of_lists {nodes : List Node} {edges : List Edge} (hs : nodes.foldlM Store.addNode .empty = .ok s)
    (ht : edges.foldlM Store.addEdge s = .ok t) : Built t :=
  Table.foldlM_induction .addEdge (Table.foldlM_induction .addNode .empty hs) ht

/-- **Every store that can be built is well-formed.** -/
theorem Built.wellFormed (h : Built s) : s.WellFormed := by
  induction h with
  | empty => exact ⟨.nil, nofun, .nil⟩
  | addNode _ h ih => exact ih.addNode h
  | replaceNode _ h ih =>
    obtain ⟨hkind, rfl⟩ := replaceNode_eq_ok h
    exact ((ih.alike_put hkind).part ih).wellFormed ih
  | removeNode id _ ih => exact (ih.part_removeNode id).wellFormed ih
  | addEdge _ h ih => exact ih.addEdge h
  | removeEdge _ h ih => exact (ih.part_removeEdge h).wellFormed ih
  | copy _ ih => exact (ih.alike_copy.part ih).wellFormed ih
  | recompute _ h ih => exact ((alike_recompute h).part ih).wellFormed ih

end FormFlow.Store
