import FormFlow.Proofs.Branches
import FormFlow.Proofs.Reach
import FormFlow.Proofs.Tokens
/-!
What the rules for a new connection promise.

A planned connection is added node by node and edge by edge, and every one of these steps keeps the store regular: the
guard comes without edges, the edge to it ends in a node that leads nowhere, and the edge on from it closes no cycle
because none leads from its target back to the Path (`Regular.apply_plan`).
-/

set_option autoImplicit false

namespace FormFlow.Store

variable {s t u : Store} {id source target : String} {n : Node} {e f : Edge}

/-! ## Adding a node -/

theorem mem_ids_addNode (ht : s.addNode n = .ok t) : id ∈ t.ids ↔ id ∈ s.ids ∨ id = n.id := by
  obtain ⟨-, rfl⟩ := addNode_eq_ok ht
  rw [ids, List.map_append, List.mem_append, List.map_singleton, List.mem_singleton]
  rfl

theorem links_addNode (ht : s.addNode n = .ok t) : t.links = s.links := by
  obtain ⟨-, rfl⟩ := addNode_eq_ok ht
  rfl

/-- The kinds of the nodes that were there stay. -/
theorem kind?_addNode (ht : s.addNode n = .ok t) (hid : id ∈ s.ids) : t.kind? id = s.kind? id := by
  obtain ⟨-, rfl⟩ := addNode_eq_ok ht
  obtain ⟨m, hm⟩ := exists_node? hid
  rw [kind?, kind?, node?, List.find?_append, ← node?, hm]
  rfl

theorem kind?_addNode_self (ht : s.addNode n = .ok t) : t.kind? n.id = some n.kind := by
  obtain ⟨hnew, rfl⟩ := addNode_eq_ok ht
  have hnone : s.node? n.id = none := List.find?_eq_none.mpr fun m hm hmid =>
    hnew (beq_iff_eq.mp hmid ▸ mem_ids_of_node hm)
  rw [kind?, node?, List.find?_append, ← node?, hnone]
  simp

theorem mem_nodes_addNode {m : Node} (ht : s.addNode n = .ok t) : m ∈ t.nodes ↔ m ∈ s.nodes ∨ m = n := by
  obtain ⟨-, rfl⟩ := addNode_eq_ok ht
  rw [List.mem_append, List.mem_singleton]

theorem outgoing_addNode (ht : s.addNode n = .ok t) (hid : id ∈ s.ids) : t.outgoing id = s.outgoing id := by
  rw [outgoing_of_mem ((mem_ids_addNode ht).mpr (Or.inl hid)), outgoing_of_mem hid, links_addNode ht]

/-- The node that was added has no edges. -/
theorem not_touching_addNode (hs : s.WellFormed) (ht : s.addNode n = .ok t) (he : e ∈ t.links) :
    e.source ≠ n.id ∧ e.target ≠ n.id := by
  rw [links_addNode ht] at he
  obtain ⟨hnew, -⟩ := addNode_eq_ok ht
  exact ⟨fun heq => hnew (heq ▸ (hs.ends_mem e he).1), fun heq => hnew (heq ▸ (hs.ends_mem e he).2)⟩

theorem outgoing_addNode_self (hs : s.WellFormed) (ht : s.addNode n = .ok t) : t.outgoing n.id = [] := by
  refine List.eq_nil_iff_forall_not_mem.mpr ?_
  intro e he
  obtain ⟨hmem, hsource⟩ := (mem_outgoing ((mem_ids_addNode ht).mpr (Or.inr rfl))).mp he
  exact (not_touching_addNode hs ht hmem).1 hsource

theorem Sound.addNode (h : s.Sound) (hs : s.WellFormed) (hk : n.kind.isSentinel = false) (ht : s.addNode n = .ok t) :
    t.Sound := by
  have hlinks := links_addNode ht
  have hstart := (mem_ids_addNode ht).mpr (Or.inl h.start_mem)
  have hfinish := (mem_ids_addNode ht).mpr (Or.inl h.finish_mem)
  refine ⟨(kind?_addNode ht h.start_mem).trans h.start_kind, (kind?_addNode ht h.finish_mem).trans h.finish_kind,
    fun m hm hsentinel => ?_, List.eq_nil_iff_forall_not_mem.mpr fun e he => ?_,
    List.eq_nil_iff_forall_not_mem.mpr fun e he => ?_, h.acyclic.mono fun a ha => ?_, fun m hm hmk => ?_,
    fun m hm hmk => ?_⟩
  · rcases (mem_nodes_addNode ht).mp hm with hm | rfl
    · exact h.ordinary m hm hsentinel
    · rw [hk] at hsentinel
      cases hsentinel
  · obtain ⟨hmem, htarget⟩ := (mem_incoming hstart).mp he
    exact h.target_ne_start (hlinks ▸ hmem) htarget
  · obtain ⟨hmem, hsource⟩ := (mem_outgoing hfinish).mp he
    exact h.source_ne_finish (hlinks ▸ hmem) hsource
  · obtain ⟨e, he, hea⟩ := mem_arcs_graph.mp ha
    exact mem_arcs_graph.mpr ⟨e, hlinks ▸ he, hea⟩
  · rcases (mem_nodes_addNode ht).mp hm with hm | rfl
    · rw [outgoing_addNode ht (mem_ids_of_node hm)]
      exact h.single m hm hmk
    · simp [outgoing_addNode_self hs ht]
  · rcases (mem_nodes_addNode ht).mp hm with hm | rfl
    · rw [outgoing_addNode ht (mem_ids_of_node hm)]
      exact h.branching m hm hmk
    · simp [outgoing_addNode_self hs ht]

theorem Opens.addNode {group : String} (h : s.Opens group e) (hs : s.WellFormed) (ht : s.addNode n = .ok t) :
    t.Opens group e :=
  ⟨links_addNode ht ▸ h.mem, h.group_eq, (kind?_addNode ht (hs.ends_mem e h.mem).1).trans h.path,
    (kind?_addNode ht (hs.ends_mem e h.mem).2).trans h.guard⟩

/-- A node that is no sentinel can be added. -/
theorem Regular.addNode (h : s.Regular) (hk : n.kind.isSentinel = false) (ht : s.addNode n = .ok t) : t.Regular := by
  have hlinks := links_addNode ht
  have hwell := h.wellFormed.addNode ht
  refine ⟨hwell, h.indexed.addNode ht, h.sound.addNode h.wellFormed hk ht, fun e he group hgroup => ?_⟩
  rcases h.branched e (hlinks ▸ he) group hgroup with hfirst | ⟨first, hfirst, hguard⟩
  · exact Or.inl (hfirst.addNode h.wellFormed ht)
  · exact Or.inr ⟨first, hfirst.addNode h.wellFormed ht, hguard⟩

/-! ## Adding an edge -/

theorem mem_links_addEdge (ht : s.addEdge e = .ok t) : f ∈ t.links ↔ f ∈ s.links ∨ f = e := by
  obtain ⟨-, -, -, -, rfl⟩ := addEdge_eq_ok ht
  rw [List.mem_append, List.mem_singleton]

theorem nodes_addEdge (ht : s.addEdge e = .ok t) : t.nodes = s.nodes := by
  obtain ⟨-, -, -, -, rfl⟩ := addEdge_eq_ok ht
  rfl

theorem ids_addEdge (ht : s.addEdge e = .ok t) : t.ids = s.ids := by rw [ids, nodes_addEdge ht, ids]

theorem kind?_addEdge (ht : s.addEdge e = .ok t) (id : String) : t.kind? id = s.kind? id := by
  rw [kind?, node?, nodes_addEdge ht, kind?, node?]

theorem outgoing_addEdge (ht : s.addEdge e = .ok t) (hid : id ∈ s.ids) :
    t.outgoing id = s.outgoing id ++ if e.source = id then [e] else [] := by
  have hid' : id ∈ t.ids := ids_addEdge ht ▸ hid
  obtain ⟨-, -, -, -, rfl⟩ := addEdge_eq_ok ht
  rw [outgoing_of_mem hid', outgoing_of_mem hid, List.filter_append]
  by_cases hsource : e.source = id <;> simp [hsource]

/-- The edge may be added: it leaves the bounds alone, closes no cycle, fits what its source may have, and belongs to a
branch as edges do. -/
structure Fits (s : Store) (e : Edge) : Prop where
  target_ne_start : e.target ≠ startId
  source_ne_finish : e.source ≠ finishId
  source_ne_target : e.source ≠ e.target
  no_way_back : ¬ s.graph.Reaches e.target e.source
  single : s.kind? e.source ≠ some .path → s.outgoing e.source = []
  branching : s.kind? e.source = some .path → (s.outgoing e.source).length < 2 ∧ e.group ≠ none
  branched : ∀ group, e.group = some group →
    (s.kind? e.source = some .path ∧ s.kind? e.target = some .condition) ∨
    ∃ first, s.Opens group first ∧ first.target = e.source

namespace Fits

theorem acyclic (he : s.Fits e) (h : s.graph.Acyclic) (ht : s.addEdge e = .ok t) : t.graph.Acyclic := by
  obtain ⟨rank, hrank, hlt⟩ := h.exists_rank_lt he.source_ne_target he.no_way_back
  refine Digraph.acyclic_of_rank rank ?_
  intro a ha
  obtain ⟨f, hf, rfl⟩ := mem_arcs_graph.mp ha
  rcases (mem_links_addEdge ht).mp hf with hf | rfl
  · exact hrank _ (arc_of_link hf)
  · exact hlt

theorem single_addEdge (he : s.Fits e) (h : s.Sound) (hs : s.WellFormed) (ht : s.addEdge e = .ok t)
    (hn : n ∈ s.nodes) (hk : n.kind ≠ .path) : (t.outgoing n.id).length ≤ 1 := by
  rw [outgoing_addEdge ht (mem_ids_of_node hn)]
  by_cases hsource : e.source = n.id
  · have hkind : s.kind? e.source ≠ some .path := by
      rw [hsource, hs.kind?_of_mem hn]
      exact fun heq => hk (Option.some.inj heq)
    rw [← hsource, he.single hkind, if_pos rfl]
    exact Nat.le_refl 1
  · rw [if_neg hsource, List.append_nil]
    exact h.single n hn hk

theorem branching_addEdge (he : s.Fits e) (h : s.Sound) (hs : s.WellFormed) (ht : s.addEdge e = .ok t)
    (hn : n ∈ s.nodes) (hk : n.kind = .path) :
    (t.outgoing n.id).length ≤ 2 ∧ ∀ f ∈ t.outgoing n.id, f.group ≠ none := by
  obtain ⟨hlimit, hgroups⟩ := h.branching n hn hk
  rw [outgoing_addEdge ht (mem_ids_of_node hn)]
  by_cases hsource : e.source = n.id
  · obtain ⟨hroom, hgroup⟩ := he.branching (by rw [hsource, hs.kind?_of_mem hn, hk])
    rw [hsource] at hroom
    rw [if_pos hsource]
    refine ⟨by rw [List.length_append]; exact hroom, fun f hf => ?_⟩
    rcases List.mem_append.mp hf with hf | hf
    · exact hgroups f hf
    · rw [List.mem_singleton.mp hf]
      exact hgroup
  · rw [if_neg hsource, List.append_nil]
    exact ⟨hlimit, hgroups⟩

end Fits

theorem Sound.addEdge (h : s.Sound) (hs : s.WellFormed) (he : s.Fits e) (ht : s.addEdge e = .ok t) : t.Sound := by
  have hids := ids_addEdge ht
  have hnodes := nodes_addEdge ht
  refine ⟨(kind?_addEdge ht _).trans h.start_kind, (kind?_addEdge ht _).trans h.finish_kind,
    hnodes ▸ h.ordinary, List.eq_nil_iff_forall_not_mem.mpr fun f hf => ?_,
    List.eq_nil_iff_forall_not_mem.mpr fun f hf => ?_, he.acyclic h.acyclic ht,
    fun n hn => he.single_addEdge h hs ht (hnodes ▸ hn), fun n hn => he.branching_addEdge h hs ht (hnodes ▸ hn)⟩
  · obtain ⟨hmem, htarget⟩ := (mem_incoming (hids ▸ h.start_mem)).mp hf
    rcases (mem_links_addEdge ht).mp hmem with hmem | rfl
    · exact h.target_ne_start hmem htarget
    · exact he.target_ne_start htarget
  · obtain ⟨hmem, hsource⟩ := (mem_outgoing (hids ▸ h.finish_mem)).mp hf
    rcases (mem_links_addEdge ht).mp hmem with hmem | rfl
    · exact h.source_ne_finish hmem hsource
    · exact he.source_ne_finish hsource

theorem Opens.addEdge {group : String} (h : s.Opens group f) (ht : s.addEdge e = .ok t) : t.Opens group f :=
  ⟨(mem_links_addEdge ht).mpr (Or.inl h.mem), h.group_eq, (kind?_addEdge ht _).trans h.path,
    (kind?_addEdge ht _).trans h.guard⟩

/-- An edge that fits can be added. -/
theorem Regular.addEdge (h : s.Regular) (he : s.Fits e) (ht : s.addEdge e = .ok t) : t.Regular := by
  refine ⟨h.wellFormed.addEdge ht, h.indexed.addEdge ht, h.sound.addEdge h.wellFormed he ht, fun f hf group hg => ?_⟩
  rcases (mem_links_addEdge ht).mp hf with hmem | rfl
  · rcases h.branched f hmem group hg with hfirst | ⟨first, hfirst, hguard⟩
    · exact Or.inl (hfirst.addEdge ht)
    · exact Or.inr ⟨first, hfirst.addEdge ht, hguard⟩
  · rcases he.branched group hg with ⟨hpath, hguard⟩ | ⟨first, hfirst, hguard⟩
    · exact Or.inl ⟨hf, hg, (kind?_addEdge ht _).trans hpath, (kind?_addEdge ht _).trans hguard⟩
    · exact Or.inr ⟨first, hfirst.addEdge ht, hguard⟩

/-! ## Planning -/

/-- What the rules make sure of before a connection is planned. -/
structure Connectable (s : Store) (source target : String) : Prop where
  source_mem : source ∈ s.ids
  target_mem : target ∈ s.ids
  source_ne_target : source ≠ target
  target_ne_start : target ≠ startId
  source_ne_finish : source ≠ finishId
  no_way_back : ¬ s.graph.Reaches target source
  single : s.kind? source ≠ some .path → s.outgoing source = []
  branching : s.kind? source = some .path → (s.outgoing source).length < 2

theorem ite_some_eq_none_iff {α : Type} {bad : Prop} [Decidable bad] {a : α} {rest : Option α} :
    (if bad then some a else rest) = none ↔ ¬ bad ∧ rest = none := by
  split <;> simp [*]

/-- No rule forbids a connection only if all of them allow it. -/
theorem Connectable.of_rejection? (hs : s.WellFormed) (h : s.rejection? source target = none) :
    s.Connectable source target := by
  simp only [rejection?, ite_some_eq_none_iff, Bool.not_eq_true', Bool.not_eq_false, hasNode_eq_true_iff] at h
  obtain ⟨hsource, htarget, hne, hstart, hfinish, hclose, hout⟩ := h
  refine ⟨hsource, htarget, hne, hstart, hfinish, fun hback => hclose ?_, fun hkind => ?_, fun hkind => ?_⟩
  · exact (Digraph.wouldClose_eq_true_iff (hs.nodes_graph ▸ hsource) (hs.nodes_graph ▸ htarget)).mpr (Or.inr hback)
  · rw [if_pos hkind] at hout
    split at hout
    · next hempty => exact List.isEmpty_iff.mp hempty
    · cases hout
  · rw [if_neg (not_not_intro hkind), ite_some_eq_none_iff, ite_some_eq_none_iff] at hout
    exact Nat.lt_of_not_le hout.2.1

/-- The name that a supply gives is not taken. -/
theorem freshName_not_mem {build : String → String} {taken : List String} {tokens rest : TokenSupply} {name : String}
    (h : tokens.freshName build taken = some (name, rest)) : name ∉ taken := by
  have hsearch : ∀ (limit : Nat) (tokens : TokenSupply) (token : String),
      TokenSupply.search (fun token => !taken.contains (build token)) limit tokens = some (token, rest) →
        build token ∉ taken := by
    intro limit
    induction limit with
    | zero => exact nofun
    | succ limit ih =>
      intro tokens token hfound
      rcases hdraw : tokens.draw with ⟨drawn, later⟩
      simp only [TokenSupply.search, hdraw] at hfound
      split at hfound
      · next hwanted =>
        cases hfound
        simpa using hwanted
      · exact ih _ _ hfound
  unfold TokenSupply.freshName at h
  obtain ⟨⟨token, rest'⟩, hfound, heq⟩ := Option.map_eq_some_iff.mp h
  cases heq
  exact hsearch _ _ _ hfound

/-- The name that a supply gives is built from a token. -/
theorem freshName_eq_build {build : String → String} {taken : List String} {tokens rest : TokenSupply} {name : String}
    (h : tokens.freshName build taken = some (name, rest)) : ∃ token, name = build token := by
  obtain ⟨⟨token, rest'⟩, -, heq⟩ := Option.map_eq_some_iff.mp h
  cases heq
  exact ⟨token, rfl⟩

/-- What a branch between two nodes adds: its guard, and an edge to it and one on from it. -/
def branchPlan (source target : String) (guard : Node) (group : String) : ConnectionPlan :=
  ⟨[⟨Edge.idFor source guard.id, source, guard.id, some group⟩,
    ⟨Edge.idFor guard.id target, guard.id, target, some group⟩], some guard⟩

/-- A branch is planned under an id and a group that are filled and not taken. -/
theorem planBranch_eq_some {tokens rest : TokenSupply} {plan : ConnectionPlan} {path goal : Node}
    (h : s.planBranch path goal tokens = some (plan, rest)) :
    ∃ guard group suffix, guard.kind = .condition ∧ guard.id = path.id ++ "_cond_" ++ suffix ∧ guard.id ∉ s.ids ∧
      group ∉ s.groups ∧ group ≠ "" ∧ plan = branchPlan path.id goal.id guard group := by
  unfold planBranch at h
  obtain ⟨⟨guardId, tokens'⟩, hguard, h⟩ := Option.bind_eq_some_iff.mp h
  obtain ⟨⟨group, tokens''⟩, hgroup, h⟩ := Option.bind_eq_some_iff.mp h
  cases h
  obtain ⟨token, rfl⟩ := freshName_eq_build hguard
  obtain ⟨mark, rfl⟩ := freshName_eq_build hgroup
  refine ⟨.unplaced _ (.condition ⟨.rules, "", .empty, some path.id, some goal.id⟩)
    (path.position.midpoint goal.position), _, toString ((s.pathBranches path.id).length + 1) ++ "_" ++ token, rfl, ?_,
    freshName_not_mem hguard, freshName_not_mem hgroup, by simp, rfl⟩
  simp only [Node.unplaced, String.append_assoc]

/-- A plan that no rule forbids is that of a single edge, or for a Path that of a branch. -/
theorem planConnection_cases {tokens rest : TokenSupply} {plan : ConnectionPlan}
    (h : s.planConnection source target tokens = .ok (plan, rest)) :
    s.rejection? source target = none ∧
    ((s.kind? source ≠ some .path ∧ plan = ⟨[Edge.plain source target], none⟩) ∨
      s.kind? source = some .path ∧ ∃ path goal, path.id = source ∧ goal.id = target ∧
        s.planBranch path goal tokens = some (plan, rest)) := by
  unfold planConnection at h
  split at h
  · cases h
  · next path goal hrejection hsource htarget =>
    obtain ⟨-, rfl⟩ := mem_of_node? hsource
    obtain ⟨-, rfl⟩ := mem_of_node? htarget
    refine ⟨hrejection, ?_⟩
    by_cases hpath : path.kind = .path
    · rw [if_pos hpath] at h
      refine Or.inr ⟨kind?_eq_some_iff.mpr ⟨path, hsource, hpath⟩, path, goal, rfl, rfl, ?_⟩
      split at h
      · next planned hplan =>
        obtain rfl := Except.ok.inj h
        exact hplan
      · cases h
    · rw [if_neg hpath] at h
      cases h
      refine Or.inl ⟨fun heq => hpath ?_, rfl⟩
      rw [kind?, hsource] at heq
      exact Option.some.inj heq
  · cases h

/-- A plan is that of a single edge, or that of a branch under an id and a group that are not taken. -/
theorem planConnection_eq_ok {tokens rest : TokenSupply} {plan : ConnectionPlan}
    (h : s.planConnection source target tokens = .ok (plan, rest)) :
    s.rejection? source target = none ∧
    ((s.kind? source ≠ some .path ∧ plan = ⟨[Edge.plain source target], none⟩) ∨
      s.kind? source = some .path ∧ ∃ guard group, guard.kind = .condition ∧ guard.id ∉ s.ids ∧ group ∉ s.groups ∧
        plan = branchPlan source target guard group) := by
  obtain ⟨hrejection, hcases⟩ := planConnection_cases h
  refine ⟨hrejection, hcases.imp id fun ⟨hpath, path, goal, hsource, htarget, hplan⟩ => ⟨hpath, ?_⟩⟩
  subst hsource htarget
  obtain ⟨guard, group, -, hkind, -, hnew, hgroup, -, rfl⟩ := planBranch_eq_some hplan
  exact ⟨guard, group, hkind, hnew, hgroup, rfl⟩

/-- A supply that never repeats a token still does not after planning. -/
theorem unrepeating_of_planConnection {tokens rest : TokenSupply} {plan : ConnectionPlan}
    (h : s.planConnection source target tokens = .ok (plan, rest)) (ht : tokens.Unrepeating) : rest.Unrepeating := by
  unfold planConnection at h
  split at h
  · cases h
  · split at h
    · split at h
      · next planned hplan =>
        obtain rfl := Except.ok.inj h
        unfold planBranch at hplan
        obtain ⟨⟨guardId, later⟩, hguard, hplan⟩ := Option.bind_eq_some_iff.mp hplan
        obtain ⟨⟨group, left⟩, hgroup, hplan⟩ := Option.bind_eq_some_iff.mp hplan
        cases hplan
        exact (ht.freshName hguard).freshName hgroup
      · cases h
    · cases h
      exact ht
  · cases h

/-! ## Plans that can be made -/

/-- A Path and a node that keep all the rules may be connected. -/
theorem rejection?_of_path (hsource : s.hasNode source = true) (htarget : s.hasNode target = true)
    (hne : source ≠ target) (hstart : target ≠ startId) (hfinish : source ≠ finishId)
    (hcycle : s.graph.wouldClose source target = false) (hpath : s.kind? source = some .path)
    (hnew : ((s.pathBranches source).any fun (_, second) => second.target == target) = false)
    (hlimit : (s.outgoing source).length < branchLimit) : s.rejection? source target = none := by
  rw [rejection?, hsource, htarget, if_neg (by decide), if_neg (by decide), if_neg hne, if_neg hstart,
    if_neg hfinish, hcycle, if_neg (by decide), if_neg (not_not.mpr hpath), hnew, if_neg (by decide),
    if_neg (Nat.not_le.mpr hlimit)]

/-- A node that is no Path and has no edge yet may be connected to a node if the two keep the other rules. -/
theorem rejection?_of_plain (hsource : s.hasNode source = true) (htarget : s.hasNode target = true)
    (hne : source ≠ target) (hstart : target ≠ startId) (hfinish : source ≠ finishId)
    (hcycle : s.graph.wouldClose source target = false) (hkind : s.kind? source ≠ some .path)
    (hout : (s.outgoing source).isEmpty = true) : s.rejection? source target = none := by
  rw [rejection?, hsource, htarget, if_neg (by decide), if_neg (by decide), if_neg hne, if_neg hstart,
    if_neg hfinish, hcycle, if_neg (by decide), if_pos hkind, if_pos hout]

/-- The edge that is planned for a node that is no Path. -/
theorem planConnection_of_plain (hrejection : s.rejection? source target = none) (hsource : s.hasNode source = true)
    (htarget : s.hasNode target = true) (hkind : s.kind? source ≠ some .path) (tokens : TokenSupply) :
    s.planConnection source target tokens = .ok (⟨[.plain source target], none⟩, tokens) := by
  obtain ⟨n, hn⟩ := exists_node? (hasNode_eq_true_iff.mp hsource)
  obtain ⟨m, hm⟩ := exists_node? (hasNode_eq_true_iff.mp htarget)
  have hplain : n.kind ≠ .path := fun heq => hkind (kind?_eq_some_iff.mpr ⟨n, hn, heq⟩)
  simp only [planConnection, hrejection, hn, hm, if_neg hplain]

/-- The branch that is planned for a Path, somewhere on the canvas. -/
theorem planConnection_of_path (hrejection : s.rejection? source target = none)
    (hpath : s.kind? source = some .path) (htarget : s.hasNode target = true) {count : Nat}
    (hcount : (s.pathBranches source).length = count) {guard group : String} {tokens later rest : TokenSupply}
    (hguard : tokens.freshName (fun t => source ++ "_cond_" ++ toString (count + 1) ++ "_" ++ t) s.ids =
      some (guard, later))
    (hgroup : later.freshName (fun t => "branch_" ++ t) s.groups = some (group, rest)) :
    ∃ position, s.planConnection source target tokens =
      .ok (⟨[⟨Edge.idFor source guard, source, guard, some group⟩,
          ⟨Edge.idFor guard target, guard, target, some group⟩],
        some (.unplaced guard (.condition ⟨.rules, "", .empty, some source, some target⟩) position)⟩, rest) := by
  obtain ⟨path, hfound, hkind⟩ := kind?_eq_some_iff.mp hpath
  obtain ⟨goal, hgoal⟩ := exists_node? (hasNode_eq_true_iff.mp htarget)
  obtain ⟨-, rfl⟩ := mem_of_node? hfound
  obtain ⟨-, rfl⟩ := mem_of_node? hgoal
  refine ⟨path.position.midpoint goal.position, ?_⟩
  simp only [planConnection, hrejection, hfound, hgoal, hkind, planBranch, hcount, hguard, hgroup, if_true,
    Option.bind_eq_bind, Option.bind_some]
  rfl

theorem addNode_of_new (h : s.hasNode n.id = false) : s.addNode n = .ok { s with nodes := s.nodes ++ [n] } := by
  rw [addNode, h]
  rfl

theorem addEdge_of_new (hsource : s.hasNode e.source = true) (htarget : s.hasNode e.target = true)
    (hid : s.hasEdge e.id = false) (hnew : s.between? e.source e.target = none) :
    s.addEdge e = .ok { s with links := s.links ++ [e], index := s.index ++ [(e.id, e.source, e.target)] } := by
  obtain ⟨a, ha⟩ := exists_node? (hasNode_eq_true_iff.mp hsource)
  obtain ⟨b, hb⟩ := exists_node? (hasNode_eq_true_iff.mp htarget)
  simp only [addEdge, node_eq_ok_iff.mpr ha, node_eq_ok_iff.mpr hb, hid, hnew]
  rfl

theorem apply_branch_of_ok {first second : Edge} {v : Store} (hn : s.addNode n = .ok u)
    (hfirst : u.addEdge first = .ok v) (hsecond : v.addEdge second = .ok t) :
    ConnectionPlan.apply ⟨[first, second], some n⟩ s = .ok t := by
  simp only [ConnectionPlan.apply, List.foldlM_cons, List.foldlM_nil, hn, hfirst, hsecond, bind, Except.bind, pure,
    Except.pure]

/-! ## Connecting -/

theorem Connectable.of_alike (h : s.Connectable source target) (hs : s.WellFormed) (ht : Alike t s) :
    t.Connectable source target := by
  have hsource : source ∈ t.ids := ht.ids_eq ▸ h.source_mem
  have hlength := (ht.part hs).length_outgoing_le hsource
  refine ⟨hsource, ht.ids_eq ▸ h.target_mem, h.source_ne_target, h.target_ne_start, h.source_ne_finish,
    fun hback => h.no_way_back (hback.mono fun a ha => ?_), fun hkind => ?_, fun hkind => ?_⟩
  · obtain ⟨e, he, hea⟩ := mem_arcs_graph.mp ha
    exact mem_arcs_graph.mpr ⟨e, ht.mem_links.mp he, hea⟩
  · rw [h.single (ht.kind?_eq source ▸ hkind)] at hlength
    exact List.eq_nil_of_length_eq_zero (Nat.le_zero.mp hlength)
  · exact Nat.lt_of_le_of_lt hlength (h.branching (ht.kind?_eq source ▸ hkind))

namespace Connectable

/-- An edge of its own fits between two nodes that may be connected. -/
theorem fits_plain (hc : s.Connectable source target) (hkind : s.kind? source ≠ some .path) :
    s.Fits (.plain source target) :=
  ⟨hc.target_ne_start, hc.source_ne_finish, hc.source_ne_target, hc.no_way_back, hc.single,
    fun hpath => absurd hpath hkind, fun _ hgroup => by cases hgroup⟩

/-- The edge to a new guard fits: the guard has no edges. -/
theorem fits_to_guard (hc : s.Connectable source target) (hs : s.WellFormed) (hstart : startId ∈ s.ids)
    (hpath : s.kind? source = some .path) {guard : Node} (hguard : guard.kind = .condition)
    (hn : s.addNode guard = .ok t) (he : e.ends = (source, guard.id)) (hgroup : e.group ≠ none) : t.Fits e := by
  obtain ⟨rfl, htarget⟩ := Prod.mk.inj he
  have hne : ∀ {id}, id ∈ s.ids → id ≠ guard.id := fun hid heq => (addNode_eq_ok hn).1 (heq ▸ hid)
  have hpath' : t.kind? e.source = some .path := (kind?_addNode hn hc.source_mem).trans hpath
  have hguard' : t.kind? e.target = some .condition := by rw [htarget, kind?_addNode_self hn, hguard]
  refine ⟨htarget ▸ (hne hstart).symm, hc.source_ne_finish, htarget ▸ hne hc.source_mem, ?_,
    fun hk => absurd hpath' hk, fun _ => ⟨?_, hgroup⟩, fun _ _ => Or.inl ⟨hpath', hguard'⟩⟩
  · rw [htarget]
    refine Digraph.not_reaches_of_leaf ?_
    intro a ha
    obtain ⟨f, hf, rfl⟩ := mem_arcs_graph.mp ha
    exact (not_touching_addNode hs hn hf).1
  · rw [outgoing_addNode hn hc.source_mem]
    exact hc.branching hpath

/-- The edge on from a new guard fits once the edge to it is there. -/
theorem fits_from_guard (hc : s.Connectable source target) (hs : s.WellFormed)
    (hpath : s.kind? source = some .path) {guard : Node} {first second : Edge} {group : String}
    (hguard : guard.kind = .condition) (hfinish : guard.id ≠ finishId) (hn : s.addNode guard = .ok t)
    (ht : t.addEdge first = .ok u) (hfirst : first.ends = (source, guard.id) ∧ first.group = some group)
    (hsecond : second.ends = (guard.id, target) ∧ second.group = some group) : u.Fits second := by
  obtain ⟨hfirst, hfirstGroup⟩ := hfirst
  obtain ⟨hsecond, hsecondGroup⟩ := hsecond
  obtain ⟨rfl, htarget⟩ := Prod.mk.inj hfirst
  obtain ⟨hsource, rfl⟩ := Prod.mk.inj hsecond
  have hne : ∀ {id}, id ∈ s.ids → id ≠ guard.id := fun hid heq => (addNode_eq_ok hn).1 (heq ▸ hid)
  have hmem : guard.id ∈ t.ids := (mem_ids_addNode hn).mpr (Or.inr rfl)
  have hkind : ∀ id, u.kind? id = t.kind? id := kind?_addEdge ht
  have hguard' : t.kind? guard.id = some .condition := by rw [kind?_addNode_self hn, hguard]
  refine ⟨hc.target_ne_start, hsource ▸ hfinish, hsource ▸ (hne hc.target_mem).symm,
    fun hback => ?_, fun _ => ?_, fun hk => ?_, fun g hg => Or.inr ⟨first, ?_, ?_⟩⟩
  · -- The guard is reached through the Path only, and the target does not lead back to it.
    have hleaf : ∀ a ∈ t.graph.arcs, a.1 ≠ guard.id ∧ a.2 ≠ guard.id := by
      intro a ha
      obtain ⟨f, hf, rfl⟩ := mem_arcs_graph.mp ha
      exact not_touching_addNode hs hn hf
    have harcs : ∀ a ∈ u.graph.arcs, a ∈ t.graph.arcs ∨ a = (first.source, guard.id) := by
      intro a ha
      obtain ⟨f, hf, rfl⟩ := mem_arcs_graph.mp ha
      rcases (mem_links_addEdge ht).mp hf with hf | rfl
      · exact Or.inl (arc_of_link hf)
      · exact Or.inr hfirst
    rcases Digraph.Reaches.of_added_leaf harcs hleaf (hne hc.source_mem) (hsource ▸ hback) with heq | hreach
    · exact hc.source_ne_target heq.symm
    · refine hc.no_way_back (hreach.mono fun a ha => ?_)
      obtain ⟨f, hf, rfl⟩ := mem_arcs_graph.mp ha
      exact arc_of_link (links_addNode hn ▸ hf)
  · rw [hsource, outgoing_addEdge ht hmem, outgoing_addNode_self hs hn, if_neg (hne hc.source_mem),
      List.append_nil]
  · rw [hsource, hkind, hguard'] at hk
    cases hk
  · obtain rfl := Option.some.inj (hsecondGroup.symm.trans hg)
    refine ⟨(mem_links_addEdge ht).mpr (Or.inr rfl), hfirstGroup, ?_, ?_⟩
    · rw [hkind, kind?_addNode hn hc.source_mem, hpath]
    · rw [hkind, htarget, hguard']
  · exact htarget.trans hsource.symm

end Connectable

namespace Regular

/-- An edge of its own between two nodes that may be connected keeps the store regular. -/
theorem connectPlain (h : s.Regular) (hc : s.Connectable source target) (hkind : s.kind? source ≠ some .path)
    (ht : s.addEdge (.plain source target) = .ok t) : t.Regular :=
  h.addEdge (hc.fits_plain hkind) ht

/-- A branch between two nodes that may be connected keeps the store regular. -/
theorem connectBranch (h : s.Regular) (hc : s.Connectable source target) (hpath : s.kind? source = some .path)
    {guard : Node} {first second : Edge} {group : String} (hguard : guard.kind = .condition)
    (hfirst : first.ends = (source, guard.id) ∧ first.group = some group)
    (hsecond : second.ends = (guard.id, target) ∧ second.group = some group)
    (hs : s.addNode guard = .ok t) (ht : t.addEdge first = .ok u) {v : Store} (hu : u.addEdge second = .ok v) :
    v.Regular := by
  have hordinary : guard.kind.isSentinel = false := by rw [hguard]; rfl
  have hgrouped : first.group ≠ none := by rw [hfirst.2]; nofun
  have hfinish : guard.id ≠ finishId := fun heq => (addNode_eq_ok hs).1 (heq ▸ h.sound.finish_mem)
  have hto := hc.fits_to_guard h.wellFormed h.sound.start_mem hpath hguard hs hfirst.1 hgrouped
  have hregular := (h.addNode hordinary hs).addEdge hto ht
  exact hregular.addEdge (hc.fits_from_guard h.wellFormed hpath hguard hfinish hs ht hfirst hsecond) hu

end Regular

theorem apply_plain (h : ConnectionPlan.apply ⟨[e], none⟩ s = .ok t) : s.addEdge e = .ok t := by
  simp only [ConnectionPlan.apply, List.foldlM_cons, List.foldlM_nil] at h
  cases hadd : s.addEdge e with
  | error fault => simp [hadd, bind, Except.bind, pure, Except.pure] at h
  | ok u => simpa [hadd, bind, Except.bind, pure, Except.pure] using h

theorem apply_plain_of_ok (h : s.addEdge e = .ok t) : ConnectionPlan.apply ⟨[e], none⟩ s = .ok t := by
  simp only [ConnectionPlan.apply, List.foldlM_cons, List.foldlM_nil, h, bind, Except.bind, pure, Except.pure]

theorem apply_branch {first second : Edge} (h : ConnectionPlan.apply ⟨[first, second], some n⟩ s = .ok t) :
    ∃ u v, s.addNode n = .ok u ∧ u.addEdge first = .ok v ∧ v.addEdge second = .ok t := by
  simp only [ConnectionPlan.apply, List.foldlM_cons, List.foldlM_nil] at h
  cases hn : s.addNode n with
  | error fault => simp [hn, bind, Except.bind] at h
  | ok u =>
    cases hfirst : u.addEdge first with
    | error fault => simp [hn, hfirst, bind, Except.bind] at h
    | ok v =>
      refine ⟨u, v, rfl, hfirst, ?_⟩
      cases hsecond : v.addEdge second with
      | error fault => simp [hn, hfirst, hsecond, bind, Except.bind] at h
      | ok w => simpa [hn, hfirst, hsecond, bind, Except.bind, pure, Except.pure] using h

/-- **A planned connection keeps the store regular**, also when it is added to a copy. -/
theorem Regular.apply_plan {tokens rest : TokenSupply} {plan : ConnectionPlan} (h : s.Regular)
    (hplan : s.planConnection source target tokens = .ok (plan, rest)) (hu : Alike u s) (ht : plan.apply u = .ok t) :
    t.Regular := by
  obtain ⟨hrejection, hcases⟩ := planConnection_eq_ok hplan
  have hc := (Connectable.of_rejection? h.wellFormed hrejection).of_alike h.wellFormed hu
  rcases hcases with ⟨hkind, rfl⟩ | ⟨hpath, guard, group, hguard, -, -, rfl⟩
  · exact (h.of_alike hu).connectPlain hc (hu.kind?_eq source ▸ hkind) (apply_plain ht)
  · obtain ⟨v, w, hnode, hfirst, hsecond⟩ := apply_branch ht
    exact (h.of_alike hu).connectBranch hc ((hu.kind?_eq source).trans hpath) hguard ⟨rfl, rfl⟩ ⟨rfl, rfl⟩ hnode hfirst
      hsecond

end FormFlow.Store
