import FormFlow.Proofs.Severing
/-!
What becomes of the collections of Loops.

A Loop names a Find as its collection. The reference is valid if the Find comes before the Loop and hangs off the
start. A commit clears a reference exactly if it is not valid after the change and either its Find is gone or the same
reference was valid before (`CollectionLost`), and warns once about each that it clears (`Repairs`). So after a command
that succeeds no Loop names a node that is gone, and what was valid is still valid, cleared with a warning, replaced by
the command, or gone with its Loop.
-/

set_option autoImplicit false

namespace FormFlow

namespace Store

variable {s t u : Store} {before changed after : Store} {n : Node} {find : String}

/-- The collections of Loops are nodes that are there. -/
def NoDangling (s : Store) : Prop := ∀ n ∈ s.nodes, ∀ find, n.config.collection = some find → find ∈ s.ids

/-- The change from the first store to the second puts the collection of a Loop out of reach: the reference is not
valid any more, and its Find is gone or the Loop had the same valid reference before. -/
def CollectionLost (before changed : Store) (loop find : String) : Prop :=
  find ∉ changed.findsBefore loop ∧
    (find ∉ changed.ids ∨
      ∃ n ∈ before.nodes, n.id = loop ∧ n.config.collection = some find ∧ find ∈ before.findsBefore loop)

/-- References are repaired: the collections in the changed store that are lost are cleared, no other configuration
changes, and there is one warning for each that is cleared. -/
structure Repairs (before changed after : Store) (warnings : List Warning) : Prop where
  cleared : ∀ n ∈ changed.nodes, ∀ find, n.config.collection = some find → CollectionLost before changed n.id find →
    ∃ m, after.node? n.id = some m ∧ m.config = n.config.withoutCollection
  kept : ∀ n ∈ changed.nodes, (∀ find, n.config.collection = some find → ¬ CollectionLost before changed n.id find) →
    ∃ m, after.node? n.id = some m ∧ m.config = n.config
  warned : ∀ loop find, (loop, find) ∈ warnings.map (fun w => (w.loopId, w.find)) ↔
    ∃ n ∈ changed.nodes, n.id = loop ∧ n.config.collection = some find ∧ CollectionLost before changed loop find
  warned_once : (warnings.map Warning.loopId).Nodup

/-! ## Configurations -/

/-- The ids of the nodes with their configurations. -/
def configs (s : Store) : List (String × Config) := s.nodes.map fun n => (n.id, n.config)

theorem mem_configs {id : String} {c : Config} : (id, c) ∈ s.configs ↔ ∃ n ∈ s.nodes, n.id = id ∧ n.config = c := by
  simp only [configs, List.mem_map, Prod.mk.injEq]

theorem configs_recompute (h : s.recompute = .ok t) : t.configs = s.configs := by
  obtain ⟨placements, -, rfl⟩ := recompute_eq_ok h
  rw [configs, configs, List.map_map]
  refine List.map_congr_left fun n _ => ?_
  rw [Function.comp_apply]
  split <;> rfl

theorem links_recompute (h : s.recompute = .ok t) : t.links = s.links := by
  obtain ⟨placements, -, rfl⟩ := recompute_eq_ok h
  rfl

theorem withoutCollection_twice (c : Config) : c.withoutCollection.withoutCollection = c.withoutCollection := by
  cases c <;> rfl

theorem collection_withoutCollection (c : Config) : c.withoutCollection.collection = none := by
  cases c <;> rfl

/-- A node as a repair leaves it: it loses its collection if it is one of the given Loops. -/
def cleared (loops : List String) (n : Node) : Node :=
  { n with config := if n.id ∈ loops then n.config.withoutCollection else n.config }

/-- Clearing references one after the other clears the Loops that they are of. -/
theorem foldl_clearCollection (stale : List LoopReference) (s : Store) :
    stale.foldl (fun t r => t.clearCollection r.loop) s =
      { s with nodes := s.nodes.map (cleared (stale.map (·.loop))) } := by
  induction stale generalizing s with
  | nil =>
    have hnone : cleared [] = id := funext fun n => by simp [cleared]
    rw [List.map_nil, hnone, List.map_id]
    rfl
  | cons r stale ih =>
    rw [List.foldl_cons, ih, clearCollection, List.map_map]
    congr 1
    refine List.map_congr_left fun n _ => ?_
    by_cases hid : n.id = r.loop
    · by_cases hlater : n.id ∈ stale.map (·.loop) <;> simp [cleared, hid, withoutCollection_twice]
    · simp [cleared, hid]

theorem repair_fst (s : Store) (before : List LoopReference) :
    (s.repair before).1 = { s with nodes := s.nodes.map (cleared ((s.staleReferences before).map (·.loop))) } :=
  foldl_clearCollection _ s

theorem edges_repair (s : Store) (before : List LoopReference) : (s.repair before).1.edges = s.edges := by
  rw [repair_fst]
  exact edges_map fun _ => rfl

/-! ## Validity -/

/-- A Find comes before a node if it reaches the node and is reached from the start. -/
theorem mem_findsBefore {id : String} :
    find ∈ s.findsBefore id ↔ find ≠ id ∧ s.graph.Reaches find id ∧
      (find = startId ∨ s.graph.Reaches startId find) ∧ s.kind? find = some .find := by
  have hstart : find ∈ startId :: s.descendants startId ↔ find = startId ∨ s.graph.Reaches startId find := by
    rw [List.mem_cons, descendants, Digraph.mem_descendants]
    by_cases h : find = startId
    · simp [h]
    · simp [h]
  rw [findsBefore, nodesBefore, List.mem_filter, List.mem_filter, List.contains_iff_mem, hstart, ancestors,
    Digraph.mem_ancestors, beq_iff_eq, and_assoc, and_assoc]

theorem findsBefore_nodup (s : Store) (id : String) : (s.findsBefore id).Nodup :=
  ((s.graph.ancestors_nodup id).filter _).filter _

/-- Validity looks at ids, kinds and edges only. -/
theorem findsBefore_congr (hkinds : t.kinds = s.kinds) (hlinks : t.links = s.links) (id : String) :
    t.findsBefore id = s.findsBefore id := by
  have hids : t.nodes.map (·.id) = s.nodes.map (·.id) := by
    show t.ids = s.ids
    rw [← kinds_names, ← kinds_names, hkinds]
  have hgraph : t.graph = s.graph := by rw [graph, graph, graphOf, graphOf, hids, hlinks]
  have hkind : t.kind? = s.kind? := by
    funext other
    rw [kind?_eq_lookup, kind?_eq_lookup, hkinds]
  unfold findsBefore nodesBefore ancestors descendants
  rw [hgraph, hkind]

theorem mem_ids_of_findsBefore {id : String} (h : find ∈ s.findsBefore id) : find ∈ s.ids :=
  mem_ids_of_kind? (beq_iff_eq.mp (List.mem_filter.mp h).2)

theorem mem_loopReferences {r : LoopReference} :
    r ∈ s.loopReferences ↔ (∃ n ∈ s.nodes, n.id = r.loop ∧ n.config.collection = some r.find) ∧
      r.isValid = (s.findsBefore r.loop).contains r.find := by
  obtain ⟨loop, find, isValid⟩ := r
  simp only [loopReferences, List.mem_filterMap, Option.map_eq_some_iff, LoopReference.mk.injEq]
  constructor
  · rintro ⟨n, hn, _, hc, rfl, rfl, rfl⟩
    exact ⟨⟨n, hn, rfl, hc⟩, rfl⟩
  · rintro ⟨⟨n, hn, rfl, hc⟩, hvalid⟩
    exact ⟨n, hn, find, hc, rfl, rfl, hvalid.symm⟩

/-- A Loop has one reference at most, and the references are in the order of the nodes. -/
theorem loops_sublist (s : Store) : (s.loopReferences.map LoopReference.loop).Sublist s.ids := by
  unfold loopReferences ids
  induction s.nodes with
  | nil => exact .slnil
  | cons n nodes ih =>
    rw [List.filterMap_cons, List.map_cons]
    cases n.config.collection with
    | none => exact ih.cons _
    | some find => exact ih.cons_cons _

/-- A reference is stale exactly if the change put its collection out of reach. -/
theorem mem_staleReferences {r : LoopReference} :
    r ∈ changed.staleReferences before.loopReferences ↔
      (∃ n ∈ changed.nodes, n.id = r.loop ∧ n.config.collection = some r.find) ∧ r.isValid = false ∧
        CollectionLost before changed r.loop r.find := by
  have hgone : changed.hasNode r.find = false ↔ r.find ∉ changed.ids := by
    rw [← Bool.not_eq_true, hasNode_eq_true_iff]
  have hbefore : (before.loopReferences.contains { r with isValid := true }) = true ↔
      ∃ n ∈ before.nodes, n.id = r.loop ∧ n.config.collection = some r.find ∧ r.find ∈ before.findsBefore r.loop := by
    rw [List.contains_iff_mem, mem_loopReferences]
    constructor
    · rintro ⟨⟨n, hn, hid, hc⟩, hvalid⟩
      exact ⟨n, hn, hid, hc, List.contains_iff_mem.mp hvalid.symm⟩
    · rintro ⟨n, hn, hid, hc, hvalid⟩
      exact ⟨⟨n, hn, hid, hc⟩, (List.contains_iff_mem.mpr hvalid).symm⟩
  have hstale : changed.isStale before.loopReferences r = true ↔ r.isValid = false ∧ (r.find ∉ changed.ids ∨
      ∃ n ∈ before.nodes, n.id = r.loop ∧ n.config.collection = some r.find ∧ r.find ∈ before.findsBefore r.loop) := by
    rw [isStale, Bool.and_eq_true, Bool.or_eq_true, Bool.not_eq_true', Bool.not_eq_true', hgone, hbefore]
  rw [staleReferences, List.mem_filter, hstale, mem_loopReferences, CollectionLost]
  constructor
  · rintro ⟨⟨hloop, hvalid⟩, hnot, hwhy⟩
    refine ⟨hloop, hnot, fun hmem => ?_, hwhy⟩
    rw [← List.contains_iff_mem, ← hvalid, hnot] at hmem
    cases hmem
  · rintro ⟨hloop, hnot, hmem, hwhy⟩
    refine ⟨⟨hloop, ?_⟩, hnot, hwhy⟩
    rw [hnot, eq_comm, ← Bool.not_eq_true, List.contains_iff_mem]
    exact hmem

/-! ## Repairing -/

/-- The Loops with stale references are those whose collection is lost. -/
theorem WellFormed.mem_stale_iff (hwell : changed.WellFormed) (hn : n ∈ changed.nodes)
    (hc : n.config.collection = some find) :
    n.id ∈ (changed.staleReferences before.loopReferences).map (·.loop) ↔ CollectionLost before changed n.id find := by
  rw [List.mem_map]
  constructor
  · rintro ⟨r, hr, hid⟩
    obtain ⟨⟨m, hm, hmid, hmc⟩, -, hlost⟩ := mem_staleReferences.mp hr
    have hsame : m = n := List.inj_on_of_nodup_map hwell.ids_nodup hm hn (hmid.trans hid)
    rw [hsame, hc] at hmc
    rw [← hid, Option.some.inj hmc]
    exact hlost
  · intro hlost
    exact ⟨⟨n.id, find, false⟩, mem_staleReferences.mpr ⟨⟨n, hn, rfl, hc⟩, rfl, hlost⟩, rfl⟩

variable (hplaced : (changed.repair before.loopReferences).1.recompute = .ok after)
include hplaced

/-- A commit clears the collections of the Loops with stale references and changes no other configuration. -/
theorem configs_of_repair :
    after.configs = changed.configs.map fun (id, c) =>
      (id, if id ∈ (changed.staleReferences before.loopReferences).map (·.loop) then c.withoutCollection else c) := by
  rw [configs_recompute hplaced, repair_fst, configs, configs, List.map_map, List.map_map]
  rfl

theorem findsBefore_of_repair (id : String) : after.findsBefore id = changed.findsBefore id := by
  refine findsBefore_congr (alike_of_repair hplaced).kinds ?_ id
  rw [links_recompute hplaced, repair_fst]

/-- **A commit repairs the references.** -/
theorem WellFormed.repairs (hwell : changed.WellFormed) :
    Repairs before changed after (changed.repair before.loopReferences).2 := by
  have hwell' : after.WellFormed := ((alike_of_repair hplaced).part hwell).wellFormed hwell
  have hfound : ∀ n ∈ changed.nodes, ∃ m, after.node? n.id = some m ∧ m.config =
      if n.id ∈ (changed.staleReferences before.loopReferences).map (·.loop) then n.config.withoutCollection
      else n.config := by
    intro n hn
    have hmem : (n.id, n.config) ∈ changed.configs := mem_configs.mpr ⟨n, hn, rfl, rfl⟩
    have hmapped : (n.id, _) ∈ after.configs := configs_of_repair hplaced ▸ List.mem_map.mpr ⟨_, hmem, rfl⟩
    obtain ⟨m, hm, hid, hconfig⟩ := mem_configs.mp hmapped
    exact ⟨m, hwell'.node?_eq_some_iff.mpr ⟨hm, hid⟩, hconfig⟩
  refine ⟨fun n hn find hc hlost => ?_, fun n hn hkept => ?_, fun loop find => ?_, ?_⟩
  · obtain ⟨m, hm, hconfig⟩ := hfound n hn
    rw [if_pos ((hwell.mem_stale_iff hn hc).mpr hlost)] at hconfig
    exact ⟨m, hm, hconfig⟩
  · obtain ⟨m, hm, hconfig⟩ := hfound n hn
    have hfresh : n.id ∉ (changed.staleReferences before.loopReferences).map (·.loop) := by
      intro hstale
      cases hc : n.config.collection with
      | some find => exact hkept find hc ((hwell.mem_stale_iff hn hc).mp hstale)
      | none =>
        obtain ⟨r, hr, hid⟩ := List.mem_map.mp hstale
        obtain ⟨⟨k, hk, hkid, hkc⟩, -⟩ := mem_staleReferences.mp hr
        have hsame : k = n := List.inj_on_of_nodup_map hwell.ids_nodup hk hn (hkid.trans hid)
        rw [hsame, hc] at hkc
        cases hkc
    rw [if_neg hfresh] at hconfig
    exact ⟨m, hm, hconfig⟩
  · simp only [repair, List.map_map, List.mem_map, Function.comp_apply, warningOf, Prod.mk.injEq]
    constructor
    · rintro ⟨r, hr, rfl, rfl⟩
      obtain ⟨⟨n, hn, hid, hc⟩, -, hlost⟩ := mem_staleReferences.mp hr
      exact ⟨n, hn, hid, hc, hlost⟩
    · rintro ⟨n, hn, hid, hc, hlost⟩
      exact ⟨⟨loop, find, false⟩, mem_staleReferences.mpr ⟨⟨n, hn, hid, hc⟩, rfl, hlost⟩, rfl, rfl⟩
  · show (((changed.staleReferences before.loopReferences).map changed.warningOf).map Warning.loopId).Nodup
    rw [List.map_map]
    exact hwell.ids_nodup.sublist ((List.filter_sublist.map _).trans (loops_sublist changed))

omit hplaced

/-- After a repair no Loop names a node that is gone. -/
theorem Repairs.noDangling {warnings : List Warning} (h : Repairs before changed after warnings)
    (hids : after.ids = changed.ids) (hwell : after.WellFormed) : after.NoDangling := by
  intro m hm find hc
  obtain ⟨n, hn, hid⟩ := mem_ids.mp (hids ▸ mem_ids_of_node hm)
  have hsame : ∀ {k}, after.node? n.id = some k → k = m := fun hk =>
    List.inj_on_of_nodup_map hwell.ids_nodup (mem_of_node? hk).1 hm ((mem_of_node? hk).2.trans hid)
  by_cases hlost : ∃ other, n.config.collection = some other ∧ CollectionLost before changed n.id other
  · obtain ⟨other, hother, hlost⟩ := hlost
    obtain ⟨k, hk, hconfig⟩ := h.cleared n hn other hother hlost
    rw [← hsame hk, hconfig, collection_withoutCollection] at hc
    cases hc
  · obtain ⟨k, hk, hconfig⟩ := h.kept n hn fun other hother hlost' => hlost ⟨other, hother, hlost'⟩
    rw [← hsame hk, hconfig] at hc
    by_contra hgone
    rw [hids] at hgone
    exact hlost ⟨find, hc, fun hmem => hgone (mem_ids_of_findsBefore hmem), Or.inl hgone⟩

/-- Nothing is lost by changing nothing. -/
theorem NoDangling.not_lost (h : s.NoDangling) (hn : n ∈ s.nodes) (hc : n.config.collection = some find) :
    ¬ CollectionLost s s n.id find := by
  rintro ⟨hmem, hgone | ⟨-, -, -, -, hbefore⟩⟩
  · exact hgone (h n hn find hc)
  · exact hmem hbefore

theorem NoDangling.repairs_self (h : s.NoDangling) (hwell : s.WellFormed) : Repairs s s s [] := by
  refine ⟨fun n hn find hc hlost => absurd hlost (h.not_lost hn hc), fun n hn _ => ?_, fun loop find => ?_, .nil⟩
  · exact ⟨n, hwell.node?_eq_some_iff.mpr ⟨hn, rfl⟩, rfl⟩
  · refine iff_of_false (by simp) ?_
    rintro ⟨n, hn, rfl, hc, hlost⟩
    exact h.not_lost hn hc hlost

/-! ## Changes -/

theorem nodes_withoutNode {id : String} (h : s.withoutNode id = .ok t) : t.nodes ⊆ s.nodes := by
  obtain ⟨-, hnodes, -⟩ := withoutNode_eq_ok h
  exact hnodes ▸ List.filter_subset_self _

theorem nodes_disconnected {e : Edge} (h : s.disconnected e = .ok t) : t.nodes ⊆ s.nodes := by
  rcases disconnected_eq_ok h with ⟨removed, hremoved⟩ | ⟨_, first, _, -, -, hremoved⟩
  · obtain ⟨-, rfl⟩ := removeEdge_eq_ok hremoved
    exact fun _ hn => hn
  · exact nodes_withoutNode hremoved

theorem nodes_deleted (h : s.deleted n = .ok t) : t.nodes ⊆ s.nodes := by
  have hremoved := EditFault.ofStructure_eq_ok_iff.mp h
  refine Table.foldlM_induction (P := fun u => u.nodes ⊆ s.nodes) ?_ (fun _ hm => hm) hremoved
  exact fun hu ht _ hm => hu (nodes_withoutNode ht hm)

theorem nodes_apply {plan : ConnectionPlan} (h : plan.apply s = .ok t) : s.nodes ⊆ t.nodes := by
  obtain ⟨edges, guard⟩ := plan
  have hadded : ∀ {u : Store}, edges.foldlM addEdge u = .ok t → u.nodes ⊆ t.nodes := by
    intro u hedges
    refine Table.foldlM_induction (P := fun v => u.nodes ⊆ v.nodes) ?_ (fun _ hn => hn) hedges
    exact fun hv ht _ hn => nodes_addEdge ht ▸ hv hn
  cases guard with
  | none => exact hadded h
  | some g =>
    obtain ⟨u, hu, hedges⟩ := Table.bind_eq_ok.mp h
    exact fun n hn => hadded hedges ((mem_nodes_addNode hu).mpr (Or.inl hn))

end Store

/-- The warning that is announced, if it is one. -/
def Event.warning? : Event → Option Warning
  | warned w => some w
  | changed .. => none

namespace Session

open Store (NoDangling Repairs CollectionLost)

variable {σ : Type} {s : Session σ} {c : Command} {changed : Store} {n : Node} {find : String}

/-- The command puts another collection in the place of a Loop's. -/
def Command.Replaces (loop find : String) : Command → Prop
  | .updateConfig node overlay => node = loop ∧ ∃ v, ("loop_collection", v) ∈ overlay ∧ v ≠ .text find
  | _ => False

/-- The graph right after a command that succeeds, before it is repaired and placed. A repeat of the last connection is
ignored and leaves the graph as it is. -/
def Makes (s : Session σ) (c : Command) (changed : Store) : Prop :=
  s.Changes c changed ∨ s.Repeats c ∧ changed = s.editor.store

/-- A command repairs the references of Loops and warns about those that it clears. No Loop is left that names a node
that is not there, and of a reference that was valid it is known what became of it. -/
structure RepairsReferences (s : Session σ) (c : Command) (changed : Store) (warnings : List Warning) : Prop where
  makes : s.Makes c changed
  repairs : Repairs s.editor.store changed (s.perform c).editor.store warnings
  warns : (s.perform c).editor.warnings = s.editor.warnings ++ warnings
  announces : ∃ events, (s.perform c).events = s.events ++ events ∧
    events.filterMap Event.warning? = if s.isHeard then warnings else []
  noDangling : (s.perform c).editor.store.NoDangling
  /-- What was valid is gone with its Loop, or still valid, or cleared with a warning, or replaced by the command. -/
  valid_before : ∀ n ∈ s.editor.store.nodes, ∀ find, n.config.collection = some find →
    find ∈ s.editor.store.findsBefore n.id →
      n.id ∉ (s.perform c).editor.store.ids ∨
      (∃ m, (s.perform c).editor.store.node? n.id = some m ∧ m.config.collection = some find ∧
        find ∈ (s.perform c).editor.store.findsBefore n.id) ∨
      (∃ m, (s.perform c).editor.store.node? n.id = some m ∧ m.config.collection = none ∧
        ∃ w ∈ warnings, w.loopId = n.id ∧ w.find = find) ∨
      c.Replaces n.id find

/-! ## One command -/

theorem reconciled_loop (s : Session σ) (l : LoopConfig) : s.reconciled (.loop l) = .loop l := if_pos rfl

/-- A change takes a Loop away, leaves it its collection, or puts another one in its place. -/
theorem Changes.collection (h : s.Changes c changed) (hwell : s.editor.store.WellFormed) (hn : n ∈ s.editor.store.nodes)
    (hc : n.config.collection = some find) :
    n.id ∉ changed.ids ∨ (∃ m ∈ changed.nodes, m.id = n.id ∧ m.config.collection = some find) ∨
      c.Replaces n.id find := by
  have hless : changed.nodes ⊆ s.editor.store.nodes → n.id ∉ changed.ids ∨
      (∃ m ∈ changed.nodes, m.id = n.id ∧ m.config.collection = some find) ∨ c.Replaces n.id find := by
    intro hsub
    by_cases hid : n.id ∈ changed.ids
    · obtain ⟨m, hm, hmid⟩ := Store.mem_ids.mp hid
      have hsame : m = n := List.inj_on_of_nodup_map hwell.ids_nodup (hsub hm) hn hmid
      exact Or.inr (Or.inl ⟨m, hm, hmid, hsame ▸ hc⟩)
    · exact Or.inl hid
  cases h with
  | addNode _ _ _ hadd => exact Or.inr (Or.inl ⟨n, (Store.mem_nodes_addNode hadd).mpr (Or.inl hn), rfl, hc⟩)
  | connect _ _ happly => exact Or.inr (Or.inl ⟨n, Store.nodes_apply happly hn, rfl, hc⟩)
  | disconnect _ hremoved => exact hless (Store.nodes_disconnected (s := s.editor.store.copy) hremoved)
  | deleteNode _ _ hdeleted => exact hless (Store.nodes_deleted (s := s.editor.store.copy) hdeleted)
  | @updateConfig id overlay k d fetched _ hk hmerge _ hreconfigured =>
    obtain ⟨m, hm, hreplaced⟩ := Table.bind_eq_ok.mp (EditFault.ofStructure_eq_ok_iff.mp hreconfigured)
    obtain ⟨-, rfl⟩ := Store.replaceNode_eq_ok hreplaced
    obtain ⟨hkmem, rfl⟩ := Store.mem_of_node? hk
    obtain ⟨hmmem, hmid⟩ := Store.mem_of_node? (Store.node_eq_ok_iff.mp hm)
    by_cases hid : n.id = k.id
    · have hsame : k = n := List.inj_on_of_nodup_map hwell.ids_nodup hkmem hn hid.symm
      subst hsame
      by_cases hoverlay : ∀ v, ("loop_collection", v) ∈ overlay → v = .text find
      · have hd := Config.collection_merge hmerge hc hoverlay
        obtain ⟨l, rfl, -⟩ := Config.collection_eq_some hd
        refine Or.inr (Or.inl ⟨{ m with config := fetched.reconciled (.loop l) }, ?_, hmid, ?_⟩)
        · exact List.mem_map.mpr ⟨m, hmmem, if_pos rfl⟩
        · rw [reconciled_loop]
          exact hd
      · push Not at hoverlay
        exact Or.inr (Or.inr ⟨rfl, hoverlay⟩)
    · refine Or.inr (Or.inl ⟨n, List.mem_map.mpr ⟨n, hn, if_neg ?_⟩, rfl, hc⟩)
      exact fun heq => hid (heq.trans hmid)

/-- What was valid before, and is a collection after the command's own change, stays or is lost. -/
theorem Changes.valid_before {after : Session σ} {kind : Change} {last : Option Connection}
    (h : s.Changes c changed) (hwell : s.editor.store.WellFormed)
    (hadopts : s.Adopts kind last changed after) {warnings : List Warning}
    (hrepairs : Repairs s.editor.store changed after.editor.store warnings) (hn : n ∈ s.editor.store.nodes)
    (hc : n.config.collection = some find) (hvalid : find ∈ s.editor.store.findsBefore n.id) :
    n.id ∉ after.editor.store.ids ∨
      (∃ m, after.editor.store.node? n.id = some m ∧ m.config.collection = some find ∧
        find ∈ after.editor.store.findsBefore n.id) ∨
      (∃ m, after.editor.store.node? n.id = some m ∧ m.config.collection = none ∧
        ∃ w ∈ warnings, w.loopId = n.id ∧ w.find = find) ∨
      c.Replaces n.id find := by
  rw [(Store.alike_of_repair hadopts.placed).ids_eq, Store.findsBefore_of_repair hadopts.placed]
  rcases h.collection hwell hn hc with hgone | ⟨m, hm, hid, hmc⟩ | hreplaces
  · exact Or.inl hgone
  · by_cases hlost : CollectionLost s.editor.store changed n.id find
    · obtain ⟨k, hk, hconfig⟩ := hrepairs.cleared m hm find hmc (hid ▸ hlost)
      obtain ⟨w, hw, heq⟩ := List.mem_map.mp ((hrepairs.warned n.id find).mpr ⟨m, hm, hid, hmc, hlost⟩)
      have hcleared : k.config.collection = none := hconfig ▸ Store.collection_withoutCollection _
      exact Or.inr (Or.inr (Or.inl ⟨k, hid ▸ hk, hcleared, w, hw, Prod.mk.inj heq⟩))
    · have hkept : ∀ other, m.config.collection = some other →
          ¬ CollectionLost s.editor.store changed m.id other := by
        intro other hother
        rw [hmc] at hother
        exact Option.some.inj hother ▸ hid.symm ▸ hlost
      obtain ⟨k, hk, hconfig⟩ := hrepairs.kept m hm hkept
      refine Or.inr (Or.inl ⟨k, hid ▸ hk, hconfig ▸ hmc, ?_⟩)
      by_contra hnot
      exact hlost ⟨hnot, Or.inr ⟨n, hn, rfl, hc, hvalid⟩⟩
  · exact Or.inr (Or.inr (Or.inr hreplaces))

/-- **A command that succeeds repairs the references.** A repeat is ignored, and after the connection that it repeats
there is nothing to repair. -/
theorem Succeeds.repairsReferences (hc : s.Succeeds c) (h : s.editor.store.Grounded)
    (hrepeat : s.editor.lastConnect.isSome → s.editor.store.NoDangling) :
    ∃ changed warnings, s.RepairsReferences c changed warnings := by
  have hattempt := s.attempt_snd c
  cases s.attempt_outcome c with
  | fails f hfail _ _ =>
    rw [Succeeds, hfail] at hc
    cases hc
  | ignored hrepeats _ heditor hevents =>
    rw [hattempt] at heditor hevents
    have hno : s.editor.store.NoDangling := by
      obtain ⟨htrue⟩ := hrepeats
      unfold Editor.isRepeat at htrue
      split at htrue
      · next last hlast => exact hrepeat (hlast ▸ rfl)
      · cases htrue
    refine ⟨s.editor.store, [], Or.inr ⟨hrepeats, rfl⟩, ?_, ?_, ⟨[], ?_, ?_⟩, ?_, fun n hn find hc hvalid => ?_⟩
    · exact heditor ▸ hno.repairs_self h.wellFormed
    · rw [heditor, List.append_nil]
    · rw [hevents, List.append_nil]
    · simp
    · exact heditor ▸ hno
    · refine Or.inr (Or.inl ⟨n, ?_, hc, heditor ▸ hvalid⟩)
      rw [heditor]
      exact h.wellFormed.node?_eq_some_iff.mpr ⟨hn, rfl⟩
  | adopted changed hchanges _ hadopts =>
    rw [hattempt] at hadopts
    have hwell := (hchanges.edits.grounded h).wellFormed
    have halike := Store.alike_of_repair hadopts.placed
    have hrepairs := hwell.repairs hadopts.placed
    obtain ⟨ids, hevents⟩ := hadopts.events
    refine ⟨changed, _, Or.inl hchanges, hrepairs, hadopts.warnings, ⟨_, hevents, ?_⟩, ?_, ?_⟩
    · unfold heard
      split
      · simp [List.filterMap_map, Event.warning?, Function.comp_def]
      · rfl
    · exact hrepairs.noDangling halike.ids_eq ((halike.part hwell).wellFormed hwell)
    · exact fun n hn find hc hvalid => hchanges.valid_before h.wellFormed hadopts hrepairs hn hc hvalid

/-! ## Runs -/

/-- Once a connection was accepted, every turn leaves no Loop that names a node that is gone. -/
theorem noDangling_turn (s : Session σ) (turn : Turn σ)
    (h : s.editor.store.Grounded ∧ (s.editor.lastConnect.isSome → s.editor.store.NoDangling)) :
    (s.turn turn).editor.store.Grounded ∧
      ((s.turn turn).editor.lastConnect.isSome → (s.turn turn).editor.store.NoDangling) := by
  refine ⟨s.grounded_turn turn h.1, ?_⟩
  rcases s.turn_cases turn with hsame | ⟨c, changed, rfl, -, hsucceeds, -⟩
  · exact hsame.symm ▸ h.2
  · obtain ⟨_, _, hrepairs⟩ := hsucceeds.repairsReferences h.1 h.2
    exact fun _ => hrepairs.noDangling

theorem noDangling_run (turns : List (Turn σ)) (s : Session σ) (h : s.editor.store.Grounded)
    (hlast : s.editor.lastConnect.isSome → s.editor.store.NoDangling) :
    (s.run turns).editor.lastConnect.isSome → (s.run turns).editor.store.NoDangling :=
  (run_induction (P := fun e => e.store.Grounded ∧ (e.lastConnect.isSome → e.store.NoDangling)) noDangling_turn turns s
    ⟨h, hlast⟩).2

end Session

namespace Editor

/-- Editors as they are made: fresh, or opened on a document that keeps the rules. -/
def Made (e : Editor) : Prop :=
  (∃ form window, fresh form window = .ok e) ∨ ∃ d window sourceGiven, openOn d window sourceGiven = .ok e

theorem Made.grounded {e : Editor} (h : e.Made) : e.store.Grounded ∧ e.lastConnect = none := by
  rcases h with ⟨form, window, he⟩ | ⟨d, window, sourceGiven, he⟩
  · obtain ⟨f, hf, hcommitted, -⟩ := Session.exists_fresh form window
    rw [he] at hf
    cases hf
    refine ⟨hcommitted.regular.grounded, ?_⟩
    unfold fresh at he
    split at he
    · cases he
      rfl
    · cases he
  · refine ⟨(sound_of_openOn he).2, ?_⟩
    obtain ⟨s, -, rfl⟩ := openOn_eq_ok he
    rfl

end Editor

/-- A Loop over a Find. -/
def Document.iterating (p : Point) : Document where
  formVersion := ""
  nodes := [
    ⟨startId, .start, p, [], none⟩,
    ⟨"people", .find, p, [], none⟩,
    ⟨"each", .loop, p, [("loop_collection", .text "people")], none⟩,
    ⟨finishId, .finish, p, [], none⟩]
  edges := [⟨none, startId, "people", none⟩, ⟨none, "people", "each", none⟩, ⟨none, "each", finishId, none⟩]
  formFields := []
  objects := []

/-- The store of that document. -/
def Store.iterating (p : Point) : Store where
  nodes := [
    .unplaced startId (.default .start) p,
    .unplaced "people" (.default .find) p,
    .unplaced "each" (.loop ⟨some "people", "item", none, false, false, .empty, ""⟩) p,
    .unplaced finishId (.default .finish) p]
  links := [.plain startId "people", .plain "people" "each", .plain "each" finishId]
  index := [("estart-people", startId, "people"), ("epeople-each", "people", "each"), ("eeach-end", "each", finishId)]

theorem Document.store_iterating (p : Point) : (Document.iterating p).store = .ok (Store.iterating p) := by
  cbv

theorem Store.checkStructure_iterating (p : Point) : (Store.iterating p).checkStructure = .ok () := by
  cbv

/-- The Find can be deleted. -/
theorem Store.deleted_iterating (p : Point) (place : String → Seating) :
    ∃ n t, ((Store.iterating p).copy.placedAs place).node? "people" = some n ∧ n.kind = .find ∧
      ((Store.iterating p).copy.placedAs place).copy.deleted n = .ok t := by
  refine ⟨_, _, by cbv, by cbv, by cbv⟩

namespace Session

variable {σ : Type}

/-- The Find of that document can be deleted. -/
theorem exists_deleteNode_iterating :
    ∃ e place, Editor.openOn (.iterating .origin) .zero false = .ok e ∧
      e.store = (Store.iterating .origin).copy.placedAs place ∧ (alone e).Succeeds (.deleteNode "people") := by
  obtain ⟨e, he, place, hplaced⟩ := Editor.exists_openOn (Document.store_iterating .origin)
    (Store.checkStructure_iterating .origin) .zero false
  refine ⟨e, place, he, hplaced, ?_⟩
  obtain ⟨n, t, hn, hkind, ht⟩ := Store.deleted_iterating .origin place
  rw [← hplaced] at hn ht
  have hordinary : n.kind.isSentinel = false := hkind ▸ rfl
  have hgrounded := (Editor.sound_of_openOn he).2
  have hmem := (Store.mem_of_node? hn).1
  obtain ⟨s', hcommit, -⟩ := (alone e).commit_of_grounded .deleteNode ["people"] (fun draft => draft.deleted n) ht
    (hgrounded.copy.deleted hmem hordinary ht).2
  show ((alone e).deleteNode "people").1 = .ok ()
  have hnode : (alone e).editor.store.node "people" = .ok n := Store.node_eq_ok_iff.mpr hn
  simp only [deleteNode, hnode, hordinary, hcommit]
  rfl

/-- **Loop references are repaired exactly when they are stale.** Whatever editor is made, in every state that a run
reaches, in whatever session and with whatever tokens, each command that succeeds repairs the references of Loops. -/
theorem run_repairsReferences {e : Editor} (he : e.Made) (desk : Desk σ) (clock : Clock) (tokens : TokenSupply)
    (isHeard : Bool) (events : List Event) (turns : List (Turn σ)) (c : Command)
    (hc : (run ⟨e, desk, clock, tokens, isHeard, events⟩ turns).Succeeds c) :
    ∃ changed warnings, (run ⟨e, desk, clock, tokens, isHeard, events⟩ turns).RepairsReferences c changed warnings := by
  obtain ⟨hgrounded, hlast⟩ := he.grounded
  refine hc.repairsReferences (grounded_run turns _ hgrounded) (noDangling_run turns _ hgrounded fun hsome => ?_)
  rw [hlast] at hsome
  cases hsome

/-- The Find that the Loop runs over can be deleted, and the reference is repaired. -/
theorem repairsReferences_iterating :
    ∃ e, Editor.openOn (.iterating .origin) .zero false = .ok e ∧ (alone e).Succeeds (.deleteNode "people") ∧
      ∃ changed warnings, (alone e).RepairsReferences (.deleteNode "people") changed warnings := by
  obtain ⟨e, _, he, -, hsucceeds⟩ := exists_deleteNode_iterating
  exact ⟨e, he, hsucceeds, run_repairsReferences (Or.inr ⟨_, _, _, he⟩) _ _ _ _ _ [] _ hsucceeds⟩

end Session

end FormFlow
