import FormFlow.Proofs.Reconfigurations
/-!
Removals touch nothing else.

A node is deleted together with guards, which are gathered before anything is taken away (`GoesWith`), and with the
edges of all that goes; an edge outside all branches is removed by itself. The nodes and edges that are left are those
of before, in their order and as they were (`Remains`), but for the collections of Loops that a commit clears. This is
shown for taking nodes and edges out of the lists (`Trims`), and carries over to the store that is committed, since
copies, repairs and placements keep both orders (`Trims.remains`).
-/

set_option autoImplicit false

namespace FormFlow

namespace Store

variable {s t u : Store} {before after changed : Store} {id : String} {n m : Node} {e f : Edge}

/-! ## What is left -/

/-- A node keeps its id, kind and position, and its configuration too unless its collection is cleared. -/
structure Retains (m n : Node) : Prop where
  id : m.id = n.id
  kind : m.kind = n.kind
  position : m.position = n.position
  config : m.config = n.config ∨ n.config.collection ≠ none ∧ m.config = n.config.withoutCollection

/-- Some nodes and edges remain, and no others: each in its place among those that remain, and as it was. -/
structure Remains (before after : Store) (stays : String → Prop) (keeps : Edge → Prop) [DecidablePred stays]
    [DecidablePred keeps] : Prop where
  nodes : List.Forall₂ Retains after.nodes (before.nodes.filter fun n => stays n.id)
  edges : after.edges = before.edges.filter fun e => keeps e

/-- Nodes and edges are taken out of the lists of a store, and with every node the edges out of it. -/
structure Trims (s t : Store) (stays : String → Prop) (keeps : Edge → Prop) [DecidablePred stays]
    [DecidablePred keeps] : Prop where
  nodes : t.nodes = s.nodes.filter fun n => stays n.id
  links : t.links = s.links.filter fun e => keeps e
  source_stays : ∀ e, keeps e → stays e.source

variable {stays : String → Prop} {keeps : Edge → Prop} [DecidablePred stays] [DecidablePred keeps]

/-- The edges that are left are listed in the order of before. -/
theorem Trims.edges_eq (h : s.Trims t stays keeps) : t.edges = s.edges.filter fun e => keeps e := by
  rw [edges, edges, h.nodes, h.links, List.filter_flatMap]
  induction s.nodes with
  | nil => rfl
  | cons n nodes ih =>
    have hrow : (s.links.filter fun e => e.source == n.id).filter (fun e => keeps e) =
        (s.links.filter fun e => keeps e).filter fun e => e.source == n.id := List.filter_comm _ _ _
    rw [List.flatMap_cons, hrow]
    by_cases hn : stays n.id
    · rw [List.filter_cons_of_pos (by simpa using hn), List.flatMap_cons, ih]
    · have hnone : ((s.links.filter fun e => keeps e).filter fun e => e.source == n.id) = [] := by
        rw [List.filter_filter, List.filter_eq_nil_iff]
        intro e _ he
        obtain ⟨hsource, hkeeps⟩ := Bool.and_eq_true_iff.mp he
        exact hn (beq_iff_eq.mp hsource ▸ h.source_stays e (decide_eq_true_iff.mp hkeeps))
      rw [List.filter_cons_of_neg (by simpa using hn), hnone, List.nil_append, ih]

/-! ## Repairing and placing -/

/-- A reference that is stale is that of a Loop with a collection. -/
theorem WellFormed.collection_of_stale {references : List LoopReference} (h : t.WellFormed) (hn : n ∈ t.nodes)
    (hstale : n.id ∈ (t.staleReferences references).map (·.loop)) : n.config.collection ≠ none := by
  obtain ⟨r, hr, hid⟩ := List.mem_map.mp hstale
  obtain ⟨⟨m, hm, hmid, hcollection⟩, -⟩ := mem_loopReferences.mp (List.mem_filter.mp hr).1
  rw [← List.inj_on_of_nodup_map h.ids_nodup hm hn (hmid.trans hid), hcollection]
  exact Option.some_ne_none _

/-- Repairing and placing keeps nodes and edges as they are, in their order. -/
theorem WellFormed.retains_of_repair {references : List LoopReference} (h : t.WellFormed)
    (hu : (t.repair references).1.recompute = .ok u) : List.Forall₂ Retains u.nodes t.nodes ∧ u.edges = t.edges := by
  refine ⟨?_, by rw [edges_recompute hu, edges_repair]⟩
  rw [repair_fst] at hu
  obtain ⟨placements, -, rfl⟩ := recompute_eq_ok hu
  show List.Forall₂ Retains ((t.nodes.map (cleared _)).map (placedBy placements)) t.nodes
  rw [List.map_map, List.forall₂_map_left_iff, List.forall₂_same]
  intro n hn
  rw [Function.comp_apply]
  have hposition : ∀ m, (placedBy placements m).position = m.position := fun m => by
    unfold placedBy
    split <;> rfl
  have hconfig : (placedBy placements (cleared ((t.staleReferences references).map (·.loop)) n)).config =
      (cleared ((t.staleReferences references).map (·.loop)) n).config := placedBy_config _
  by_cases hstale : n.id ∈ (t.staleReferences references).map (·.loop)
  · have hcleared := hconfig.trans (if_pos hstale)
    exact ⟨placedBy_id _, (congrArg Config.kind hcleared).trans (withoutCollection_kind _), hposition _,
      Or.inr ⟨h.collection_of_stale hn hstale, hcleared⟩⟩
  · have hkept := hconfig.trans (if_neg hstale)
    exact ⟨placedBy_id _, congrArg Config.kind hkept, hposition _, Or.inl hkept⟩

/-- **What a change leaves of a copy remains in the store that is committed.** -/
theorem Trims.remains {references : List LoopReference} (h : s.copy.Trims t stays keeps) (hs : s.WellFormed)
    (ht : t.WellFormed) (hu : (t.repair references).1.recompute = .ok u) : s.Remains u stays keeps := by
  obtain ⟨hnodes, hedges⟩ := ht.retains_of_repair hu
  refine ⟨?_, ?_⟩
  · rw [h.nodes] at hnodes
    exact hnodes
  · rw [hedges, h.edges_eq, hs.edges_copy]

/-! ## Taking nodes away -/

/-- A node that is taken away is taken out of the lists, with the edges that touch it. -/
theorem trims_of_withoutNode (h : s.withoutNode id = .ok t) :
    s.Trims t (· ≠ id) fun e => e.source ≠ id ∧ e.target ≠ id := by
  obtain ⟨-, hnodes, hlinks, -⟩ := withoutNode_eq_ok h
  refine ⟨hnodes.trans (List.filter_congr fun n _ => ?_), hlinks.trans (List.filter_congr fun e _ => ?_),
    fun e he => he.1⟩
  · rw [bne, decide_not, beq_eq_decide]
  · rw [Bool.eq_iff_iff, Bool.and_eq_true, bne_iff_ne, bne_iff_ne, decide_eq_true_iff]

/-- Nodes that are taken away one after the other are taken out of the lists, with the edges that touch them. -/
theorem trims_of_foldlM {ids : List String} (h : ids.foldlM withoutNode s = .ok t) :
    s.Trims t (· ∉ ids) fun e => e.source ∉ ids ∧ e.target ∉ ids := by
  induction ids generalizing s with
  | nil =>
    cases h
    exact ⟨by simp, by simp, fun e he => he.1⟩
  | cons id ids ih =>
    obtain ⟨v, hv, hrest⟩ := Table.bind_eq_ok.mp (List.foldlM_cons.symm.trans h)
    have hfirst := trims_of_withoutNode hv
    have htrims := ih hrest
    refine ⟨?_, ?_, fun e he => he.1⟩
    · rw [htrims.nodes, hfirst.nodes, List.filter_filter]
      exact List.filter_congr fun n _ => by grind
    · rw [htrims.links, hfirst.links, List.filter_filter]
      exact List.filter_congr fun e _ => by grind

/-- A guard is tied to a node: it guards a branch of it, if it is a Path, or it is a Condition from which a branch leads
to it. -/
def TiedTo (s : Store) (n : Node) (id : String) : Prop :=
  (n.kind = .path ∧ ∃ first ∈ s.edges, first.source = n.id ∧ first.target = id ∧ first.group ≠ none ∧
    ∃ second ∈ s.edges, second.source = id ∧ second.group = first.group) ∨
  (s.kind? id = some .condition ∧ ∃ e ∈ s.edges, e.source = id ∧ e.target = n.id ∧ e.group ≠ none)

/-- What goes when a node is deleted: the node, and the guards that are tied to it. -/
def GoesWith (s : Store) (n : Node) (id : String) : Prop := id = n.id ∨ s.TiedTo n id

instance (s : Store) (n : Node) : DecidablePred (s.TiedTo n) := fun _ => inferInstanceAs (Decidable (_ ∨ _))

instance (s : Store) (n : Node) : DecidablePred (s.GoesWith n) := fun _ => inferInstanceAs (Decidable (_ ∨ _))

/-- The guards of a Path's branches, read off the edges. -/
theorem WellFormed.mem_guards_iff (hs : s.WellFormed) (hn : n ∈ s.nodes) :
    id ∈ (s.pathBranches n.id).map (fun branch => branch.1.target) ↔
      ∃ first ∈ s.edges, first.source = n.id ∧ first.target = id ∧ first.group ≠ none ∧
        ∃ second ∈ s.edges, second.source = id ∧ second.group = first.group := by
  have hid := mem_ids_of_node hn
  simp only [hs.mem_edges]
  constructor
  · intro hmem
    obtain ⟨⟨first, onward⟩, hbranch, rfl⟩ := List.mem_map.mp hmem
    obtain ⟨hout, group, hgroup, second, hsecond, hsame⟩ := mem_pathBranches.mp ⟨onward, hbranch⟩
    obtain ⟨hfirst, hsource⟩ := (mem_outgoing hid).mp hout
    obtain ⟨hsecond, hguard⟩ := (mem_outgoing (hs.ends_mem first hfirst).2).mp hsecond
    exact ⟨first, hfirst, hsource, rfl, Option.ne_none_iff_exists'.mpr ⟨group, hgroup⟩, second, hsecond, hguard,
      hsame.trans hgroup.symm⟩
  · rintro ⟨first, hfirst, hsource, rfl, hgrouped, second, hsecond, hguard, hsame⟩
    obtain ⟨group, hgroup⟩ := Option.ne_none_iff_exists'.mp hgrouped
    have honward := (mem_outgoing (hs.ends_mem first hfirst).2).mpr ⟨hsecond, hguard⟩
    obtain ⟨onward, hbranch⟩ := mem_pathBranches.mpr
      ⟨(mem_outgoing hid).mpr ⟨hfirst, hsource⟩, group, hgroup, second, honward, hsame.trans hgroup⟩
    exact List.mem_map_of_mem (f := fun branch => branch.1.target) hbranch

/-- The guards that go with a node are those that are tied to it. -/
theorem WellFormed.mem_guardsOf_iff (hs : s.WellFormed) (hn : n ∈ s.nodes) :
    id ∈ s.guardsOf n ↔ s.TiedTo n id := by
  have hown : id ∈ (if n.kind = .path then (s.pathBranches n.id).map (fun branch => branch.1.target) else []) ↔
      n.kind = .path ∧ ∃ first ∈ s.edges, first.source = n.id ∧ first.target = id ∧ first.group ≠ none ∧
        ∃ second ∈ s.edges, second.source = id ∧ second.group = first.group := by
    by_cases hpath : n.kind = .path
    · rw [if_pos hpath, hs.mem_guards_iff hn, and_iff_right hpath]
    · rw [if_neg hpath]
      exact iff_of_false List.not_mem_nil fun h => hpath h.1
  have hleading : id ∈ ((s.incoming n.id).filter fun e => e.group.isSome && s.kind? e.source == some .condition).map
      (·.source) ↔ s.kind? id = some .condition ∧ ∃ e ∈ s.edges, e.source = id ∧ e.target = n.id ∧ e.group ≠ none := by
    simp only [List.mem_map, List.mem_filter, mem_incoming (mem_ids_of_node hn), hs.mem_edges, Bool.and_eq_true,
      beq_iff_eq, Option.isSome_iff_ne_none]
    constructor
    · rintro ⟨e, ⟨⟨he, htarget⟩, hgroup, hkind⟩, rfl⟩
      exact ⟨hkind, e, he, rfl, htarget, hgroup⟩
    · rintro ⟨hkind, e, he, rfl, htarget, hgroup⟩
      exact ⟨e, ⟨⟨he, htarget⟩, hgroup, hkind⟩, rfl⟩
  rw [guardsOf, List.mem_eraseDups, List.mem_append, hown, hleading, TiedTo]

theorem WellFormed.mem_taken_iff (hs : s.WellFormed) (hn : n ∈ s.nodes) :
    id ∈ s.guardsOf n ++ [n.id] ↔ s.GoesWith n id := by
  rw [List.mem_append, List.mem_singleton, hs.mem_guardsOf_iff hn, GoesWith, or_comm]

theorem WellFormed.goesWith_copy (hs : s.WellFormed) (n : Node) (id : String) :
    s.copy.GoesWith n id ↔ s.GoesWith n id := by
  rw [GoesWith, TiedTo, hs.edges_copy]
  rfl

/-- Guards are tied to other nodes, since no edge leads from a node to itself. -/
theorem Grounded.not_tiedTo_self (h : s.Grounded) (n : Node) : ¬ s.TiedTo n n.id := by
  rintro (⟨-, first, hfirst, hsource, htarget, -⟩ | ⟨-, e, he, hsource, htarget, -⟩)
  · exact h.ne_of_link (h.wellFormed.mem_edges.mp hfirst) (hsource.trans htarget.symm)
  · exact h.ne_of_link (h.wellFormed.mem_edges.mp he) (hsource.trans htarget.symm)

/-- A node of a grounded store can be deleted. -/
theorem Grounded.exists_deleted (h : s.Grounded) (hn : n ∈ s.nodes) : ∃ t, s.deleted n = .ok t := by
  have hnodup : (s.guardsOf n ++ [n.id]).Nodup := by
    refine List.nodup_append.mpr ⟨Table.eraseDups_nodup _, by simp, fun id hid other hother heq => ?_⟩
    rw [heq, List.mem_singleton.mp hother] at hid
    exact h.not_tiedTo_self n ((h.wellFormed.mem_guardsOf_iff hn).mp hid)
  have hmem : ∀ id ∈ s.guardsOf n ++ [n.id], id ∈ s.ids := by
    intro id hid
    rcases (h.wellFormed.mem_taken_iff hn).mp hid with rfl | ⟨-, first, hfirst, -, rfl, -⟩ | ⟨hkind, -⟩
    · exact mem_ids_of_node hn
    · exact (h.wellFormed.ends_mem first (h.wellFormed.mem_edges.mp hfirst)).2
    · exact mem_ids_of_kind? hkind
  obtain ⟨t, ht⟩ := exists_foldlM_withoutNode hnodup hmem h.wellFormed h.indexed fun f hf => h.ne_of_link hf
  exact ⟨t, EditFault.ofStructure_eq_ok_iff.mpr ht⟩

/-- Deleting a node takes away what goes with it. -/
theorem WellFormed.trims_deleted (hs : s.WellFormed) (hn : n ∈ s.nodes) (ht : s.deleted n = .ok t) :
    s.Trims t (fun id => ¬ s.GoesWith n id) fun e => ¬ s.GoesWith n e.source ∧ ¬ s.GoesWith n e.target := by
  have htrims := trims_of_foldlM (EditFault.ofStructure_eq_ok_iff.mp ht)
  refine ⟨htrims.nodes.trans (List.filter_congr fun m _ => ?_), htrims.links.trans (List.filter_congr fun e _ => ?_),
    fun e he => he.1⟩
  · simp only [hs.mem_taken_iff hn]
  · simp only [hs.mem_taken_iff hn]

/-! ## Taking an edge away -/

/-- The removal of an edge takes it out of the list. -/
theorem Grounded.trims_removeEdge (h : s.Grounded) (ht : s.removeEdge id = .ok (e, t)) :
    s.Trims t (fun _ => True) (· ≠ e) := by
  obtain ⟨hmem, -⟩ := h.indexed.removeEdge_eq_ok h.wellFormed ht
  obtain ⟨-, rfl⟩ := removeEdge_eq_ok ht
  refine ⟨by simp, List.filter_congr fun f hf => ?_, fun _ _ => trivial⟩
  rw [Bool.eq_iff_iff, Bool.not_eq_true', ← Bool.not_eq_true, Bool.and_eq_true, beq_iff_eq, beq_iff_eq,
    decide_eq_true_iff]
  refine not_congr ⟨fun hends => h.wellFormed.edge_unique hf hmem hends.1 hends.2, ?_⟩
  rintro rfl
  exact ⟨rfl, rfl⟩

/-- An edge outside all branches can be disconnected, which removes it. -/
theorem Grounded.exists_disconnected (h : s.Grounded) (he : s.edge? e.id = some e) (hgroup : e.group = none) :
    ∃ t, s.disconnected e = .ok t ∧ s.Trims t (fun _ => True) (· ≠ e) := by
  obtain ⟨t, ht⟩ : ∃ t, s.removeEdge e.id = .ok (e, t) := by
    simp only [removeEdge, edge_eq_ok_iff.mpr he, bind, Except.bind, pure, Except.pure]
    exact ⟨_, rfl⟩
  refine ⟨t, ?_, h.trims_removeEdge ht⟩
  rw [Store.disconnected, hgroup]
  simp only [ht, Except.map, EditFault.ofStructure]

end Store

namespace Session

open Store (Grounded)

variable {σ : Type} {s : Session σ} {t : Store}

/-! ## Commands -/

/-- **Deleting a node takes away what goes with it**, and touches nothing else. -/
theorem remains_deleteNode (h : s.editor.store.Grounded) {id : String} {n : Node}
    (hn : s.editor.store.node? id = some n) (hk : n.kind.isSentinel = false) :
    ∃ s', s.deleteNode id = (.ok (), s') ∧ s.editor.store.Remains s'.editor.store
      (fun other => ¬ s.editor.store.GoesWith n other)
      (fun e => ¬ s.editor.store.GoesWith n e.source ∧ ¬ s.editor.store.GoesWith n e.target) := by
  have hmem : n ∈ s.editor.store.copy.nodes := (Store.mem_of_node? hn).1
  obtain ⟨t, ht⟩ := h.copy.exists_deleted hmem
  have hgrounded := (h.copy.deleted hmem hk ht).2
  obtain ⟨s', hcommit, hu⟩ := s.commit_of_grounded .deleteNode [id] (fun draft => draft.deleted n) ht hgrounded
  have htrims := h.copy.wellFormed.trims_deleted hmem ht
  simp only [h.wellFormed.goesWith_copy] at htrims
  refine ⟨s'.note (.debug "node_deleted" [("node_id", .text id), ("kind", .text n.kind.code)]), ?_,
    htrims.remains h.wellFormed hgrounded.wellFormed hu⟩
  simp only [deleteNode, Store.node_eq_ok_iff.mpr hn, hk, Bool.false_eq_true, ↓reduceIte, hcommit]

/-- **Disconnecting an edge outside all branches removes that edge**, and touches nothing else. -/
theorem remains_disconnect (h : s.editor.store.Grounded) {id : String} {e : Edge}
    (he : s.editor.store.edge? id = some e) (hgroup : e.group = none) :
    ∃ s', s.disconnect id = (.ok (), s') ∧ s.editor.store.Remains s'.editor.store (fun _ => True) (· ≠ e) := by
  obtain ⟨hmem, -⟩ := (h.indexed.edge?_eq_some_iff h.wellFormed).mp he
  have hcopied := (h.copy.indexed.edge?_eq_some_iff h.copy.wellFormed).mpr ⟨h.wellFormed.mem_edges.mpr hmem, rfl⟩
  obtain ⟨t, ht, htrims⟩ := h.copy.exists_disconnected hcopied hgroup
  have hgrounded := h.copy.disconnected ht
  obtain ⟨s', hcommit, hu⟩ := s.commit_of_grounded .disconnectEdge [e.source, e.target]
    (fun draft => draft.disconnected e) ht hgrounded
  refine ⟨s', ?_, htrims.remains h.wellFormed hgrounded.wellFormed hu⟩
  simp only [disconnect, Store.edge_eq_ok_iff.mpr he, hcommit]

/-- **Removals touch nothing else.** Whatever editor is made, in every state that a run reaches, in whatever session and
with whatever tokens, every node but the sentinels can be deleted, and every edge outside all branches can be
disconnected. The first takes away what goes with the node and the edges that touch it, the second takes away the edge.
What remains is as it was and in its order, but for collections of Loops that are cleared. -/
theorem run_removals {e : Editor} (he : e.Made) (desk : Desk σ) (clock : Clock) (tokens : TokenSupply)
    (isHeard : Bool) (events : List Event) (turns : List (Turn σ)) {s : Session σ}
    (hs : s = run ⟨e, desk, clock, tokens, isHeard, events⟩ turns) :
    (∀ id n, s.editor.store.node? id = some n → n.kind.isSentinel = false →
      ∃ after, s.deleteNode id = (.ok (), after) ∧ s.editor.store.Remains after.editor.store
        (fun other => ¬ s.editor.store.GoesWith n other)
        (fun edge => ¬ s.editor.store.GoesWith n edge.source ∧ ¬ s.editor.store.GoesWith n edge.target)) ∧
    ∀ id edge, s.editor.store.edge? id = some edge → edge.group = none →
      ∃ after, s.disconnect id = (.ok (), after) ∧
        s.editor.store.Remains after.editor.store (fun _ => True) (· ≠ edge) := by
  obtain ⟨hgrounded, -⟩ := he.grounded
  have h : s.editor.store.Grounded := hs ▸ grounded_run turns _ hgrounded
  exact ⟨fun _ _ hn hk => remains_deleteNode h hn hk, fun _ _ hedge hgroup => remains_disconnect h hedge hgroup⟩

end Session

/-- A Path that leads to a Find through a guard. -/
def Document.branching (p : Point) : Document where
  formVersion := ""
  nodes := [
    ⟨startId, .start, p, [], none⟩,
    ⟨"choice", .path, p, [], none⟩,
    ⟨"guard", .condition, p, [], none⟩,
    ⟨"people", .find, p, [], none⟩,
    ⟨finishId, .finish, p, [], none⟩]
  edges := [
    ⟨none, startId, "choice", none⟩,
    ⟨none, "choice", "guard", some "branch"⟩,
    ⟨none, "guard", "people", some "branch"⟩,
    ⟨none, "people", finishId, none⟩]
  formFields := []
  objects := []

/-- The store of that document. -/
def Store.branching (p : Point) : Store where
  nodes := [
    .unplaced startId (.default .start) p,
    .unplaced "choice" (.default .path) p,
    .unplaced "guard" (.default .condition) p,
    .unplaced "people" (.default .find) p,
    .unplaced finishId (.default .finish) p]
  links := [
    .plain startId "choice",
    ⟨"echoice-guard", "choice", "guard", some "branch"⟩,
    ⟨"eguard-people", "guard", "people", some "branch"⟩,
    .plain "people" finishId]
  index := [("estart-choice", startId, "choice"), ("echoice-guard", "choice", "guard"),
    ("eguard-people", "guard", "people"), ("epeople-end", "people", finishId)]

theorem Document.store_branching (p : Point) : (Document.branching p).store = .ok (Store.branching p) := by
  cbv

theorem Store.checkStructure_branching (p : Point) : (Store.branching p).checkStructure = .ok () := by
  cbv

theorem Store.exists_node_branching (p : Point) (place : String → Seating) :
    ∃ n, ((Store.branching p).copy.placedAs place).node? "choice" = some n ∧ n.kind.isSentinel = false := by
  refine ⟨_, by cbv, by cbv⟩

theorem Store.edge_branching (p : Point) (place : String → Seating) :
    ((Store.branching p).copy.placedAs place).edge? "epeople-end" = some (.plain "people" finishId) := by
  cbv

example (p : Point) : (Store.branching p).ids.filter
    ((Store.branching p).GoesWith (.unplaced "people" (.default .find) p)) = ["guard", "people"] := by
  cbv

namespace Session

/-- The Path of that document can be deleted, and the edge behind its branch disconnected. -/
theorem removals_branching :
    ∃ e n edge, Editor.openOn (.branching .origin) .zero false = .ok e ∧
      (e.store.node? "choice" = some n ∧ n.kind.isSentinel = false ∧
        ∃ after, (alone e).deleteNode "choice" = (.ok (), after) ∧ e.store.Remains after.editor.store
          (fun other => ¬ e.store.GoesWith n other)
          (fun edge => ¬ e.store.GoesWith n edge.source ∧ ¬ e.store.GoesWith n edge.target)) ∧
      (e.store.edge? "epeople-end" = some edge ∧ edge.group = none ∧
        ∃ after, (alone e).disconnect "epeople-end" = (.ok (), after) ∧
          e.store.Remains after.editor.store (fun _ => True) (· ≠ edge)) := by
  obtain ⟨e, he, place, hplaced⟩ := Editor.exists_openOn (Document.store_branching .origin)
    (Store.checkStructure_branching .origin) .zero false
  obtain ⟨n, hn, hk⟩ := Store.exists_node_branching .origin place
  have hedge := Store.edge_branching .origin place
  rw [← hplaced] at hn hedge
  obtain ⟨hdeletes, hdisconnects⟩ := run_removals (Or.inr ⟨_, _, _, he⟩) (alone e).desk (alone e).clock
    (alone e).tokens false [] [] (s := alone e) rfl
  exact ⟨e, n, .plain "people" finishId, he, ⟨hn, hk, hdeletes "choice" n hn hk⟩, hedge, rfl,
    hdisconnects "epeople-end" _ hedge rfl⟩

end Session

end FormFlow
