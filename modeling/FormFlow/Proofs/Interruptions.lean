import FormFlow.Proofs.Index
/-!
Changes of a store that fail.

A change that is refused leaves the store as it was. The one exception is a removal that is under way when it fails:
it clears the index edge by edge, and comes to an edge from the node to itself a second time (`Interrupted`). In a
store that no such removal has touched before, every removal of a node with an edge to itself ends like this, and no
other change does (`sameView_alter_iff`).
-/

set_option autoImplicit false

namespace FormFlow.Store

/-- A change of a store, with its arguments. -/
inductive Alteration where
  | addNode (n : Node)
  | replaceNode (n : Node)
  | removeNode (id : String)
  | addEdge (e : Edge)
  | removeEdge (id : String)
  /-- Gives every node its placement. -/
  | recompute

/-- Why a change failed. -/
inductive Alteration.Fault where
  | graph (fault : StructureFault)
  | placement (fault : Digraph.PlacementFault)

/-- Takes up the removed edges and the store that a change gives, or stays with the old store. -/
def adopt {ε : Type} (s : Store) (fault : ε → Alteration.Fault) :
    Except ε (List Edge × Store) → Except Alteration.Fault (List Edge) × Store
  | .ok (removed, t) => (.ok removed, t)
  | .error f => (.error (fault f), s)

/-- What a change comes to: the edges that it removed or why it failed, and the store after it. A removal that fails
leaves the store as far as it came. -/
def alter (s : Store) : Alteration → Except Alteration.Fault (List Edge) × Store
  | .addNode n => s.adopt .graph ((s.addNode n).map ([], ·))
  | .replaceNode n => s.adopt .graph ((s.replaceNode n).map ([], ·))
  | .removeNode id =>
    match s.removeNode id with
    | (.ok removed, t) => (.ok removed, t)
    | (.error f, t) => (.error (.graph f), t)
  | .addEdge e => s.adopt .graph ((s.addEdge e).map ([], ·))
  | .removeEdge id => s.adopt .graph ((s.removeEdge id).map fun (e, t) => ([e], t))
  | .recompute => s.adopt .placement (s.recompute.map ([], ·))

/-- The two stores show the same nodes, edges, edge ids and counts. -/
structure SameView (t s : Store) : Prop where
  nodes : t.nodes = s.nodes
  edges : t.edges = s.edges
  hasEdge : ∀ id, t.hasEdge id = s.hasEdge id
  nodeCount : t.nodes.length = s.nodes.length
  edgeCount : t.links.length = s.links.length

/-- The change is a removal that gets under way: the node is there, and the first of its edges is in the index. -/
def Interrupted (s : Store) (a : Alteration) : Prop :=
  ∃ id e, a = .removeNode id ∧ id ∈ s.ids ∧ (s.incoming id ++ s.outgoing id).head? = some e ∧ s.hasEdge e.id = true

/-- The change is the removal of a node that has an edge to itself. -/
def Tears (s : Store) (a : Alteration) : Prop := ∃ e ∈ s.links, e.source = e.target ∧ a = .removeNode e.source

/-- The stores that are built from the empty one without removing a node that has an edge to itself. -/
inductive Intact : Store → Prop where
  | empty : Intact .empty
  | alter {s : Store} {a : Alteration} : Intact s → ¬ s.Tears a → Intact (s.alter a).2
  | copy {s : Store} : Intact s → Intact s.copy

variable {s t : Store} {id : String} {a : Alteration} {f : Alteration.Fault} {removed : List Edge}

/-! ## What a change comes to -/

section Adopt

variable {ε : Type} {fault : ε → Alteration.Fault} {result : Except ε (List Edge × Store)}

theorem adopt_of_error (h : (s.adopt fault result).1 = .error f) : (s.adopt fault result).2 = s := by
  cases result with
  | ok gives => cases h
  | error g => rfl

/-- What the store and all that a change can give have in common, the store after the change has too. -/
theorem adopt_induction {P : Store → Prop} (hs : P s) (hok : ∀ removed t, result = .ok (removed, t) → P t) :
    P (s.adopt fault result).2 := by
  cases result with
  | ok gives => exact hok _ _ rfl
  | error g => exact hs

end Adopt

theorem eq_ok_of_map {ε α β : Type} {g : α → β} {result : Except ε α} {b : β} (h : result.map g = .ok b) :
    ∃ a, result = .ok a ∧ g a = b := by
  cases result with
  | ok a => exact ⟨a, rfl, Except.ok.inj h⟩
  | error f => cases h

theorem alter_removeNode (s : Store) (id : String) :
    s.alter (.removeNode id) = ((s.removeNode id).1.mapError .graph, (s.removeNode id).2) := by
  rw [alter]
  split <;> next heq => rw [heq]; rfl

/-- A change that fails leaves the store as it was, unless it is a removal. -/
theorem alter_of_error (h : (s.alter a).1 = .error f) (ha : ∀ id, a ≠ .removeNode id) : (s.alter a).2 = s := by
  cases a with
  | removeNode id => exact absurd rfl (ha id)
  | addNode | replaceNode | addEdge | removeEdge | recompute => exact adopt_of_error h

theorem sameView_self (s : Store) : s.SameView s := ⟨rfl, rfl, fun _ => rfl, rfl, rfl⟩

/-! ## Intact stores -/

/-- Every change but the removal of a node with an edge to itself keeps the index exact. -/
theorem Indexed.alter (h : s.Indexed) (hs : s.WellFormed) (ha : ¬ s.Tears a) :
    (s.alter a).2.WellFormed ∧ (s.alter a).2.Indexed := by
  have of_alike : ∀ {t}, Alike t s → t.WellFormed ∧ t.Indexed := fun ht => ⟨(ht.part hs).wellFormed hs, h.of_alike ht⟩
  cases a with
  | addNode n =>
    refine adopt_induction (P := fun t => t.WellFormed ∧ t.Indexed) ⟨hs, h⟩ fun removed t ht => ?_
    obtain ⟨u, hu, ⟨⟩⟩ := eq_ok_of_map ht
    exact ⟨hs.addNode hu, h.addNode hu⟩
  | replaceNode n =>
    refine adopt_induction (P := fun t => t.WellFormed ∧ t.Indexed) ⟨hs, h⟩ fun removed t ht => ?_
    obtain ⟨u, hu, ⟨⟩⟩ := eq_ok_of_map ht
    obtain ⟨hkind, rfl⟩ := replaceNode_eq_ok hu
    exact of_alike (hs.alike_put hkind)
  | removeNode id =>
    have hloop : ∀ e ∈ s.links, e.source = id → e.target ≠ id := fun e he hsource htarget =>
      ha ⟨e, he, hsource.trans htarget.symm, by rw [hsource]⟩
    rw [alter_removeNode]
    by_cases hid : id ∈ s.ids
    · obtain ⟨t, hok, ht⟩ := h.exists_removeNode hs hid hloop
      rw [hok]
      exact ⟨(hs.part_withoutNode ht).wellFormed hs, h.withoutNode ht⟩
    · rw [removeNode_of_not_mem hid]
      exact ⟨hs, h⟩
  | addEdge e =>
    refine adopt_induction (P := fun t => t.WellFormed ∧ t.Indexed) ⟨hs, h⟩ fun removed t ht => ?_
    obtain ⟨u, hu, ⟨⟩⟩ := eq_ok_of_map ht
    exact ⟨hs.addEdge hu, h.addEdge hu⟩
  | removeEdge id =>
    refine adopt_induction (P := fun t => t.WellFormed ∧ t.Indexed) ⟨hs, h⟩ fun removed t ht => ?_
    obtain ⟨⟨e, u⟩, hu, ⟨⟩⟩ := eq_ok_of_map ht
    exact ⟨(hs.part_removeEdge hu).wellFormed hs, h.removeEdge hs hu⟩
  | recompute =>
    refine adopt_induction (P := fun t => t.WellFormed ∧ t.Indexed) ⟨hs, h⟩ fun removed t ht => ?_
    obtain ⟨u, hu, ⟨⟩⟩ := eq_ok_of_map ht
    exact of_alike (alike_recompute hu)

/-- **An intact store is well-formed and its index is exact.** -/
theorem Intact.indexed (h : s.Intact) : s.WellFormed ∧ s.Indexed := by
  induction h with
  | empty => exact ⟨⟨.nil, nofun, .nil⟩, ⟨.nil, .nil⟩⟩
  | alter _ ha ih => exact ih.2.alter ih.1 ha
  | copy _ ih =>
    have hcopy := ih.1.alike_copy
    exact ⟨(hcopy.part ih.1).wellFormed ih.1, ih.2.of_alike hcopy⟩

/-! ## Removals that fail -/

/-- The ids that are dropped are gone, and no others come in. -/
theorem dropIds_sublist (ids : List String) (index : List (String × String × String)) :
    (dropIds index ids).2.Sublist index := by
  induction ids generalizing index with
  | nil => exact List.Sublist.refl _
  | cons id ids ih =>
    rw [dropIds]
    split
    · exact (ih _).trans List.filter_sublist
    · exact List.Sublist.refl _

/-- An id that is in the index is taken out first, even if a later one is missing. -/
theorem not_mem_dropIds_cons {index : List (String × String × String)} (hid : (index.lookup id).isSome)
    (ids : List String) : id ∉ (dropIds index (id :: ids)).2.map (·.1) := by
  rw [dropIds, if_pos hid]
  intro hname
  obtain ⟨entry, hentry, hentryId⟩ := List.mem_map.mp hname
  have hkept := (List.mem_filter.mp ((dropIds_sublist ids _).subset hentry)).2
  exact bne_iff_ne.mp hkept hentryId

/-- What a removal that fails leaves: nodes and edges as they were, and the index as far as it was cleared. -/
theorem removeNode_of_error {f : StructureFault} (h : (s.removeNode id).1 = .error f) :
    (id ∉ s.ids ∧ (s.removeNode id).2 = s) ∨
      (id ∈ s.ids ∧ (s.removeNode id).2 =
        { s with index := (dropIds s.index ((s.incoming id ++ s.outgoing id).map (·.id))).2 }) := by
  by_cases hid : id ∈ s.ids
  · right
    obtain ⟨m, hm⟩ := exists_node? hid
    refine ⟨hid, ?_⟩
    unfold removeNode at h ⊢
    rw [node_eq_ok_iff.mpr hm] at h ⊢
    dsimp only at h ⊢
    cases hdrop : dropIds s.index ((s.incoming id ++ s.outgoing id).map (·.id)) with
    | mk outcome index =>
      cases outcome with
      | ok done =>
        rw [hdrop] at h
        cases h
      | error g => rfl
  · left
    exact ⟨hid, by rw [removeNode_of_not_mem hid]⟩

theorem hasEdge_eq_true_iff : s.hasEdge id = true ↔ id ∈ s.index.map (·.1) := by
  rw [hasEdge, Option.isSome_iff_exists, Table.exists_lookup_iff]

/-- A removal that fails leaves the store as it was exactly if it did not get under way. -/
theorem sameView_removeNode_iff {g : StructureFault} (h : (s.removeNode id).1 = .error g) :
    (s.removeNode id).2.SameView s ↔ ¬ s.Interrupted (.removeNode id) := by
  rcases removeNode_of_error h with ⟨hid, hsame⟩ | ⟨hid, hleft⟩
  · rw [hsame]
    refine iff_of_true s.sameView_self ?_
    rintro ⟨other, e, ⟨⟩, hmem, -⟩
    exact hid hmem
  · rw [hleft]
    cases htouching : s.incoming id ++ s.outgoing id with
    | nil =>
      refine iff_of_true ⟨rfl, rfl, fun _ => rfl, rfl, rfl⟩ ?_
      rintro ⟨other, e, ⟨⟩, -, hhead, -⟩
      rw [htouching] at hhead
      cases hhead
    | cons e rest =>
      by_cases hindexed : s.hasEdge e.id = true
      · -- The first edge is taken out of the index for good.
        refine iff_of_false (fun hview => ?_) (not_not_intro ⟨id, e, rfl, hid, by rw [htouching]; rfl, hindexed⟩)
        have hstill := (hview.hasEdge e.id).trans hindexed
        exact not_mem_dropIds_cons hindexed _ (hasEdge_eq_true_iff.mp hstill)
      · have hleft : dropIds s.index ((e :: rest).map (·.id)) = (.error (.unindexedEdge e.id), s.index) := by
          rw [List.map_cons, dropIds]
          exact if_neg hindexed
        rw [hleft]
        refine iff_of_true ⟨rfl, rfl, fun _ => rfl, rfl, rfl⟩ ?_
        rintro ⟨other, first, ⟨⟩, -, hhead, hfirst⟩
        rw [htouching] at hhead
        cases hhead
        exact hindexed hfirst

/-- In a store with an exact index, the removals that fail under way are those of nodes with an edge to themselves. -/
theorem Indexed.interrupted_iff (h : s.Indexed) (hs : s.WellFormed) {g : StructureFault}
    (hfail : (s.removeNode id).1 = .error g) : s.Interrupted (.removeNode id) ↔ s.Tears (.removeNode id) := by
  constructor
  · rintro ⟨other, first, ⟨⟩, hid, -⟩
    by_contra hspared
    have hloop : ∀ e ∈ s.links, e.source = id → e.target ≠ id := fun e he hsource htarget =>
      hspared ⟨e, he, hsource.trans htarget.symm, by rw [hsource]⟩
    obtain ⟨t, hok, -⟩ := h.exists_removeNode hs hid hloop
    rw [hok] at hfail
    cases hfail
  · rintro ⟨e, he, hends, ⟨⟩⟩
    have hid := (hs.ends_mem e he).1
    have hin : e ∈ s.incoming e.source := (mem_incoming hid).mpr ⟨he, hends.symm⟩
    obtain ⟨first, rest, hincoming⟩ := List.exists_cons_of_ne_nil (List.ne_nil_of_mem hin)
    have hfirst : first ∈ s.links := ((mem_incoming hid).mp (hincoming ▸ List.mem_cons_self)).1
    exact ⟨e.source, first, rfl, hid, by rw [hincoming]; rfl,
      hasEdge_eq_true_iff.mpr (h.names_perm.mem_iff.mpr (List.mem_map_of_mem hfirst))⟩

/-! ## Changes that fail -/

/-- **A change that fails leaves nodes, edges, edge ids and counts as they were, unless it is a removal that got under
way.** In an intact store that is the removal of a node with an edge to itself. -/
theorem sameView_alter_iff (h : (s.alter a).1 = .error f) :
    ((s.alter a).2.SameView s ↔ ¬ s.Interrupted a) ∧ (s.Intact → (s.Interrupted a ↔ s.Tears a)) := by
  by_cases ha : ∃ id, a = .removeNode id
  · obtain ⟨id, rfl⟩ := ha
    obtain ⟨g, hfail⟩ : ∃ g, (s.removeNode id).1 = .error g := by
      rw [alter] at h
      split at h
      · cases h
      · next g t heq => exact ⟨g, by rw [heq]⟩
    rw [alter_removeNode]
    exact ⟨sameView_removeNode_iff hfail, fun hintact => hintact.indexed.2.interrupted_iff hintact.indexed.1 hfail⟩
  · rw [not_exists] at ha
    have hinterrupted : ¬ s.Interrupted a := fun ⟨id, _, heq, _⟩ => ha id heq
    have htears : ¬ s.Tears a := fun ⟨e, _, _, heq⟩ => ha e.source heq
    rw [alter_of_error h ha]
    exact ⟨iff_of_true s.sameView_self hinterrupted, fun _ => iff_of_false hinterrupted htears⟩

/-- One node with an edge to itself. -/
def looped : Store :=
  ((Store.empty.alter (.addNode (.unplaced "a" (.default .find) .origin))).2.alter (.addEdge (.plain "a" "a"))).2

theorem intact_looped : looped.Intact := by
  refine .alter (.alter .empty ?_) ?_ <;> rintro ⟨e, -, -, ⟨⟩⟩

/-- The node cannot be removed, and the attempt takes the id of its edge. -/
theorem looped_torn :
    looped.Intact ∧ looped.hasEdge "ea-a" = true ∧
      (looped.alter (.removeNode "a")).1 = .error (.graph (.unindexedEdge "ea-a")) ∧
      (looped.alter (.removeNode "a")).2.edges = looped.edges ∧
      (looped.alter (.removeNode "a")).2.hasEdge "ea-a" = false ∧
      ¬ (looped.alter (.removeNode "a")).2.SameView looped :=
  ⟨intact_looped, rfl, rfl, rfl, rfl, fun hview => Bool.noConfusion (hview.hasEdge "ea-a")⟩

/-- The attempt to give the node an edge that it has fails and changes nothing, the attempt to remove it does. -/
theorem sameView_looped :
    (∃ f, (looped.alter (.addEdge (.plain "a" "a"))).1 = .error f ∧
      (looped.alter (.addEdge (.plain "a" "a"))).2.SameView looped) ∧
    ∃ f, (looped.alter (.removeNode "a")).1 = .error f ∧ looped.Interrupted (.removeNode "a") := by
  refine ⟨⟨_, rfl, (sameView_alter_iff rfl).1.mpr ?_⟩, ⟨_, rfl, ((sameView_alter_iff rfl).2 intact_looped).mpr ?_⟩⟩
  · rintro ⟨id, e, ⟨⟩, -⟩
  · exact ⟨.plain "a" "a", List.mem_cons_self, rfl, rfl⟩

end FormFlow.Store
