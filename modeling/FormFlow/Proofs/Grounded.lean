import FormFlow.Proofs.Run
/-!
What every editor keeps, also one that was opened on a document.

A document may carry groups that no Path opens, so the graph of an editor that was opened on one need not be regular,
and a removal may even take its end away. What stays in every state is that the start is there, that nothing enters the
start or leaves the end, that there is no cycle and that the index is exact (`Grounded`, `grounded_run`). This is
enough for every change to be placed (`Grounded.exists_recompute`).
-/

set_option autoImplicit false

namespace FormFlow

namespace Store

variable {s t u : Store} {id source target : String} {n : Node} {e : Edge}

/-- The start is there and nothing enters it, nothing leaves the end, there is no cycle, and the index is exact. -/
structure Grounded (s : Store) : Prop where
  wellFormed : s.WellFormed
  indexed : s.Indexed
  start_kind : s.kind? startId = some .start
  target_ne_start : ∀ e ∈ s.links, e.target ≠ startId
  source_ne_finish : ∀ e ∈ s.links, e.source ≠ finishId
  acyclic : s.graph.Acyclic

theorem Sound.grounded (h : s.Sound) (hs : s.WellFormed) (hi : s.Indexed) : s.Grounded :=
  ⟨hs, hi, h.start_kind, fun _ => h.target_ne_start, fun _ => h.source_ne_finish, h.acyclic⟩

theorem Regular.grounded (h : s.Regular) : s.Grounded := h.sound.grounded h.wellFormed h.indexed

/-- The id that a guard is planned under is not that of the end. -/
theorem planned_ne_finish {guard : Node} {suffix : String} (hguard : guard.id = source ++ "_cond_" ++ suffix) :
    guard.id ≠ finishId := by
  intro heq
  have hmem : '_' ∈ (source ++ "_cond_" ++ suffix).toList := by simp [String.toList_append]
  rw [← hguard, heq] at hmem
  exact absurd hmem (by decide)

/-- What goes with a node is between two edges, or a Condition. -/
theorem guardsOf_cases (hs : s.WellFormed) (hn : n ∈ s.nodes) (hid : id ∈ s.guardsOf n) :
    (∃ first ∈ s.links, ∃ second ∈ s.links, first.target = id ∧ second.source = id) ∨
      s.kind? id = some .condition := by
  rw [guardsOf, List.mem_eraseDups, List.mem_append] at hid
  rcases hid with hown | hleading
  · split at hown
    · obtain ⟨⟨first, onward⟩, hbranch, rfl⟩ := List.mem_map.mp hown
      obtain ⟨hout, group, -, second, hsecond, -⟩ := mem_pathBranches.mp ⟨onward, hbranch⟩
      obtain ⟨hmem, -⟩ := (mem_outgoing (mem_ids_of_node hn)).mp hout
      obtain ⟨hmem', hsource⟩ := (mem_outgoing (hs.ends_mem first hmem).2).mp hsecond
      exact Or.inl ⟨first, hmem, second, hmem', rfl, hsource⟩
    · cases hown
  · obtain ⟨e, he, rfl⟩ := List.mem_map.mp hleading
    have hkind := (Bool.and_eq_true_iff.mp (List.mem_filter.mp he).2).2
    exact Or.inr (beq_iff_eq.mp hkind)

namespace Grounded

theorem start_mem (h : s.Grounded) : startId ∈ s.ids := mem_ids_of_kind? h.start_kind

theorem ne_of_link (h : s.Grounded) (he : e ∈ s.links) : e.source ≠ e.target := h.acyclic.ne_of_arc (arc_of_link he)

theorem ne_start (h : s.Grounded) {k : Kind} (hk : s.kind? id = some k) (hordinary : k ≠ .start) : id ≠ startId := by
  rintro rfl
  exact hordinary (Option.some.inj (hk.symm.trans h.start_kind))

/-! ## Placing -/

/-- A grounded graph opens with the start. -/
theorem rooted (h : s.Grounded) : (graphOf s.nodes s.edges).Rooted startId finishId := by
  have harcs : ∀ {a}, a ∈ (graphOf s.nodes s.edges).arcs → ∃ e ∈ s.links, e.ends = a := by
    intro a ha
    obtain ⟨e, he, hea⟩ := mem_arcs_graphOf.mp ha
    exact ⟨e, h.wellFormed.mem_edges.mp he, hea⟩
  have hnodes : (graphOf s.nodes s.edges).nodes = s.ids :=
    nodes_graphOf h.wellFormed.ids_nodup fun e he => h.wellFormed.ends_mem e (h.wellFormed.mem_edges.mp he)
  refine ⟨h.acyclic.mono fun a ha => mem_arcs_graph.mpr (harcs ha), hnodes ▸ h.start_mem, Sound.start_ne_finish,
    List.eq_nil_iff_forall_not_mem.mpr fun p hp => ?_, List.eq_nil_iff_forall_not_mem.mpr fun c hc => ?_⟩
  · obtain ⟨e, he, hea⟩ := harcs (Digraph.mem_parents.mp hp)
    exact h.target_ne_start e he (Prod.mk.inj hea).2
  · obtain ⟨e, he, hea⟩ := harcs (Digraph.mem_children.mp hc)
    exact h.source_ne_finish e he (Prod.mk.inj hea).1

/-- A grounded store can be placed. -/
theorem exists_recompute (h : s.Grounded) : ∃ t, s.recompute = .ok t := by
  have hnodes : (graphOf s.nodes s.edges).nodes = s.nodes.map (·.id) :=
    nodes_graphOf h.wellFormed.ids_nodup fun e he => h.wellFormed.ends_mem e (h.wellFormed.mem_edges.mp he)
  obtain ⟨_, _, -, hassign, -⟩ := Placement.exists_assign_of_rooted h.wellFormed.ids_nodup hnodes h.rooted
  exact ⟨_, recompute_of_assign hassign⟩

/-! ## Operations -/

/-- A part that keeps the start is grounded. -/
theorem of_part (h : s.Grounded) (ht : Part t s) (hi : t.Indexed) (hstart : startId ∈ t.ids) : t.Grounded :=
  ⟨ht.wellFormed h.wellFormed, hi, (ht.kind?_eq h.wellFormed hstart).trans h.start_kind,
    fun e he => h.target_ne_start e (ht.mem_links he), fun e he => h.source_ne_finish e (ht.mem_links he),
    ht.acyclic h.acyclic⟩

theorem of_alike (h : s.Grounded) (ht : Alike t s) : t.Grounded :=
  h.of_part (ht.part h.wellFormed) (h.indexed.of_alike ht) (ht.ids_eq ▸ h.start_mem)

theorem copy (h : s.Grounded) : s.copy.Grounded := h.of_alike h.wellFormed.alike_copy

theorem addNode (h : s.Grounded) (ht : s.addNode n = .ok t) : t.Grounded := by
  have hlinks := links_addNode ht
  refine ⟨h.wellFormed.addNode ht, h.indexed.addNode ht, (kind?_addNode ht h.start_mem).trans h.start_kind,
    hlinks ▸ h.target_ne_start, hlinks ▸ h.source_ne_finish, h.acyclic.mono fun a ha => ?_⟩
  obtain ⟨e, he, hea⟩ := mem_arcs_graph.mp ha
  exact mem_arcs_graph.mpr ⟨e, hlinks ▸ he, hea⟩

theorem addEdge (h : s.Grounded) (he : s.Fits e) (ht : s.addEdge e = .ok t) : t.Grounded := by
  refine ⟨h.wellFormed.addEdge ht, h.indexed.addEdge ht, (kind?_addEdge ht _).trans h.start_kind, fun f hf => ?_,
    fun f hf => ?_, he.acyclic h.acyclic ht⟩
  · rcases (mem_links_addEdge ht).mp hf with hf | rfl
    · exact h.target_ne_start f hf
    · exact he.target_ne_start
  · rcases (mem_links_addEdge ht).mp hf with hf | rfl
    · exact h.source_ne_finish f hf
    · exact he.source_ne_finish

theorem apply_plan {tokens rest : TokenSupply} {plan : ConnectionPlan} (h : s.Grounded)
    (hplan : s.planConnection source target tokens = .ok (plan, rest)) (hu : Alike u s) (ht : plan.apply u = .ok t) :
    t.Grounded := by
  obtain ⟨hrejection, hcases⟩ := planConnection_cases hplan
  have hc := (Connectable.of_rejection? h.wellFormed hrejection).of_alike h.wellFormed hu
  have hgrounded := h.of_alike hu
  rcases hcases with ⟨hkind, rfl⟩ | ⟨hpath, path, goal, rfl, rfl, hbranch⟩
  · exact hgrounded.addEdge (hc.fits_plain (hu.kind?_eq _ ▸ hkind)) (apply_plain ht)
  · obtain ⟨guard, group, suffix, hguard, hname, -, -, -, rfl⟩ := planBranch_eq_some hbranch
    obtain ⟨v, w, hnode, hfirst, hsecond⟩ := apply_branch ht
    have hpath' := (hu.kind?_eq _).trans hpath
    have hto : v.Fits ⟨Edge.idFor path.id guard.id, path.id, guard.id, some group⟩ :=
      hc.fits_to_guard hgrounded.wellFormed hgrounded.start_mem hpath' hguard hnode rfl nofun
    have hfrom : w.Fits ⟨Edge.idFor guard.id goal.id, guard.id, goal.id, some group⟩ :=
      hc.fits_from_guard hgrounded.wellFormed hpath' hguard (planned_ne_finish hname) hnode hfirst ⟨rfl, rfl⟩
        ⟨rfl, rfl⟩
    exact ((hgrounded.addNode hnode).addEdge hto hfirst).addEdge hfrom hsecond

theorem withoutNode (h : s.Grounded) (hid : id ≠ startId) (ht : s.withoutNode id = .ok t) : t.Grounded := by
  have hstays := (without_of_withoutNode ht).mem_ids.mpr ⟨h.start_mem, fun hm => hid (List.mem_singleton.mp hm).symm⟩
  exact h.of_part (h.wellFormed.part_withoutNode ht) (h.indexed.withoutNode ht) hstays

/-- Disconnecting keeps a store grounded: no edge enters the start, so it is not taken for a guard. -/
theorem disconnected (h : s.Grounded) (ht : s.disconnected e = .ok t) : t.Grounded := by
  rcases disconnected_eq_ok ht with ⟨removed, hremoved⟩ | ⟨group, first, second, -, hedges, hremoved⟩
  · obtain ⟨-, -, hnodes, -⟩ := h.indexed.removeEdge_eq_ok h.wellFormed hremoved
    refine h.of_part (h.wellFormed.part_removeEdge hremoved) (h.indexed.removeEdge h.wellFormed hremoved) ?_
    rw [ids, hnodes]
    exact h.start_mem
  · obtain ⟨hmem, -⟩ := (mem_branchEdges h.wellFormed).mp (hedges ▸ List.mem_cons_self)
    exact h.withoutNode (h.target_ne_start first hmem) hremoved

/-- The start does not go with another node. -/
theorem start_not_mem_guardsOf (h : s.Grounded) (hn : n ∈ s.nodes) : startId ∉ s.guardsOf n := by
  intro hid
  rcases guardsOf_cases h.wellFormed hn hid with ⟨first, hfirst, -, -, htarget, -⟩ | hkind
  · exact h.target_ne_start first hfirst htarget
  · exact h.ne_start hkind nofun rfl

theorem deleted (h : s.Grounded) (hn : n ∈ s.nodes) (hk : n.kind.isSentinel = false) (ht : s.deleted n = .ok t) :
    Without t s (s.guardsOf n ++ [n.id]) ∧ t.Grounded := by
  have hremoved := EditFault.ofStructure_eq_ok_iff.mp ht
  obtain ⟨hwithout, hindexed⟩ := without_of_foldlM hremoved h.wellFormed h.indexed
  refine ⟨hwithout, h.of_part (hwithout.part h.wellFormed) hindexed (hwithout.mem_ids.mpr ⟨h.start_mem, fun hm => ?_⟩)⟩
  rcases List.mem_append.mp hm with hguard | hself
  · exact h.start_not_mem_guardsOf hn hguard
  · have hkind := h.wellFormed.kind?_of_mem hn
    refine h.ne_start hkind (fun heq => ?_) (List.mem_singleton.mp hself).symm
    rw [heq] at hk
    cases hk

end Grounded

/-- **Every command keeps the store grounded.** -/
theorem Edits.grounded (h : Edits s t) (hs : s.Grounded) : t.Grounded := by
  cases h with
  | addNode _ hadd => exact hs.copy.addNode hadd
  | connect hplan happly => exact hs.apply_plan hplan hs.wellFormed.alike_copy happly
  | disconnect _ hremoved => exact hs.copy.disconnected hremoved
  | deleteNode hn hk hdeleted => exact (hs.copy.deleted hn hk hdeleted).2
  | updateConfig hreconfigured => exact hs.copy.of_alike (alike_reconfigured hs.copy.wellFormed hreconfigured)

end Store

namespace Document

variable {d : Document} {s t : Store}

/-! ## Opened documents -/

theorem ofStructure_eq_ok_iff {α : Type} {r : Except StructureFault α} {a : α} :
    ofStructure r = .ok a ↔ r = .ok a := by
  cases r with
  | error f => simp [ofStructure]
  | ok b => simp [ofStructure]

theorem addSpec_eq_ok {n : NodeSpec} (h : addSpec s n = .ok t) : ∃ m, nodeOf n = .ok m ∧ s.addNode m = .ok t := by
  obtain ⟨m, hm, ht⟩ := Table.bind_eq_ok.mp h
  exact ⟨m, hm, ofStructure_eq_ok_iff.mp ht⟩

/-- A document's store is made of its nodes, the sentinels that it does not name, and its edges. -/
theorem store_eq_ok (h : d.store = .ok s) :
    ∃ opened filled closed, d.addMissing startId .start .empty = .ok opened ∧
      d.nodes.foldlM addSpec opened = .ok filled ∧ d.addMissing finishId .finish filled = .ok closed ∧
      d.edges.foldlM (fun s e => s.addEdge e.edge) closed = .ok s := by
  obtain ⟨opened, hopened, h⟩ := Table.bind_eq_ok.mp h
  obtain ⟨filled, hfilled, h⟩ := Table.bind_eq_ok.mp h
  obtain ⟨closed, hclosed, h⟩ := Table.bind_eq_ok.mp h
  exact ⟨opened, filled, closed, hopened, hfilled, hclosed, ofStructure_eq_ok_iff.mp h⟩

/-- What the empty store has and what adding nodes and edges keeps, the store of a document has. -/
theorem store_induction {P : Store → Prop} (hempty : P .empty)
    (hnode : ∀ {s n t}, P s → s.addNode n = .ok t → P t) (hedge : ∀ {s e t}, P s → s.addEdge e = .ok t → P t)
    (h : d.store = .ok s) : P s := by
  have hmissing : ∀ {id kind s t}, P s → d.addMissing id kind s = .ok t → P t := by
    intro id kind s t hs ht
    unfold addMissing at ht
    split at ht
    · cases ht
      exact hs
    · exact hnode hs (ofStructure_eq_ok_iff.mp ht)
  have hspec : ∀ {s n t}, P s → addSpec s n = .ok t → P t := by
    intro s n t hs ht
    obtain ⟨m, -, ht⟩ := addSpec_eq_ok ht
    exact hnode hs ht
  obtain ⟨opened, filled, closed, hopened, hfilled, hclosed, hedges⟩ := store_eq_ok h
  exact Table.foldlM_induction hedge (hmissing (Table.foldlM_induction hspec (hmissing hempty hopened) hfilled) hclosed)
    hedges

theorem wellFormed_of_store (h : d.store = .ok s) : s.WellFormed ∧ s.Indexed := by
  refine store_induction (P := fun s => s.WellFormed ∧ s.Indexed) ⟨⟨.nil, nofun, .nil⟩, ⟨.nil, .nil⟩⟩ ?_ ?_ h
  · exact fun hs ht => ⟨hs.1.addNode ht, hs.2.addNode ht⟩
  · exact fun hs ht => ⟨hs.1.addEdge ht, hs.2.addEdge ht⟩

end Document

namespace Editor

variable {d : Document} {s : Store} {e : Editor} {window : Seconds} {sourceGiven : Bool}

/-- A document is opened if its store can be made and the check accepts it: the store is copied and placed. -/
theorem openStore_eq_ok (h : openStore d = .ok s) :
    ∃ t, d.store = .ok t ∧ t.checkStructure = .ok () ∧ t.copy.recompute = .ok s := by
  unfold openStore at h
  split at h
  · cases h
  · next t ht =>
    split at h
    · cases h
    · next hcheck =>
      split at h
      · cases h
      · next u hu =>
        cases h
        exact ⟨t, ht, hcheck, hu⟩

theorem openOn_eq_ok (h : openOn d window sourceGiven = .ok e) :
    ∃ s, openStore d = .ok s ∧ e = { onStore s d.formFields window with
      objects := d.objects
      hasSource := sourceGiven || !d.objects.isEmpty } := by
  unfold openOn at h
  cases hs : openStore d with
  | error f => rw [hs] at h; cases h
  | ok s =>
    rw [hs] at h
    cases h
    exact ⟨s, rfl, rfl⟩

/-- The store of an editor that was opened is alike the one of the document. -/
theorem alike_of_openOn (h : openOn d window sourceGiven = .ok e) :
    ∃ t, d.store = .ok t ∧ t.checkStructure = .ok () ∧ t.WellFormed ∧ t.Indexed ∧ Store.Alike e.store t := by
  obtain ⟨s, hs, rfl⟩ := openOn_eq_ok h
  obtain ⟨t, ht, hcheck, hu⟩ := openStore_eq_ok hs
  obtain ⟨hwell, hindexed⟩ := Document.wellFormed_of_store ht
  exact ⟨t, ht, hcheck, hwell, hindexed, (Store.alike_recompute hu).trans hwell.alike_copy⟩

/-- **Every document that is opened gives a grounded store with both sentinels.** -/
theorem sound_of_openOn (h : openOn d window sourceGiven = .ok e) : e.store.Sound ∧ e.store.Grounded := by
  obtain ⟨t, -, hcheck, hwell, hindexed, halike⟩ := alike_of_openOn h
  have hsound := (Store.checkStructure_eq_ok_iff.mp hcheck).1
  exact ⟨halike.sound hwell hsound, (hsound.grounded hwell hindexed).of_alike halike⟩

/-- A document is opened if its store can be made and the check accepts it, and the editor holds that store, its nodes
placed in some way. -/
theorem exists_openOn {t : Store} (ht : d.store = .ok t) (hcheck : t.checkStructure = .ok ()) (window : Seconds)
    (sourceGiven : Bool) : ∃ e, openOn d window sourceGiven = .ok e ∧ ∃ place, e.store = t.copy.placedAs place := by
  obtain ⟨hwell, -⟩ := Document.wellFormed_of_store ht
  have hcopy := hwell.alike_copy
  have hwell' := (hcopy.part hwell).wellFormed hwell
  have hsound := hcopy.sound hwell (Store.checkStructure_eq_ok_iff.mp hcheck).1
  obtain ⟨u, hu, -⟩ := hwell'.exists_recompute hsound
  obtain ⟨place, rfl⟩ := hwell'.exists_placedAs hsound hu
  refine ⟨{ onStore (t.copy.placedAs place) d.formFields window with
    objects := d.objects
    hasSource := sourceGiven || !d.objects.isEmpty }, ?_, place, rfl⟩
  simp only [openOn, openStore, ht, hcheck, hu, Except.map]

end Editor

namespace Session

variable {σ : Type}

/-! ## Commands -/

/-- A commit succeeds if its change gives a grounded store, which is then repaired and placed. -/
theorem commit_of_grounded (s : Session σ) (kind : Change) (ids : List String) {t : Store}
    (change : Store → Except EditFault Store) (hchange : change s.editor.store.copy = .ok t) (ht : t.Grounded) :
    ∃ s', s.commit kind ids change = (.ok (), s') ∧
      (t.repair s.editor.store.loopReferences).1.recompute = .ok s'.editor.store := by
  obtain ⟨u, hu⟩ := (ht.of_alike (Store.alike_repair t s.editor.store.loopReferences)).exists_recompute
  obtain ⟨s', hcommit, rfl⟩ := s.exists_commit kind ids hchange hu
  exact ⟨s', hcommit, hu⟩

/-! ## Runs -/

/-- Every turn keeps the store grounded. -/
theorem grounded_turn (s : Session σ) (turn : Turn σ) (h : s.editor.store.Grounded) :
    (s.turn turn).editor.store.Grounded := by
  rcases s.turn_cases turn with hsame | ⟨c, t, -, hchanges, -, hadopts⟩
  · exact hsame.symm ▸ h
  · exact (hchanges.edits.grounded h).of_alike (Store.alike_of_repair hadopts.placed)

/-- **A run keeps the store grounded.** -/
theorem grounded_run (turns : List (Turn σ)) (s : Session σ) (h : s.editor.store.Grounded) :
    (s.run turns).editor.store.Grounded :=
  run_induction (P := fun e => e.store.Grounded) grounded_turn turns s h

end Session

end FormFlow
