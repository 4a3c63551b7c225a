import FormFlow.Editor.Session
import FormFlow.Proofs.Index
import FormFlow.Proofs.Structure
/-!
The branches of a workflow under removals.

The edges of a group are those of one branch or what is left of it: an edge that opens the branch, from a Path to a
Condition, and an edge on from such a Condition (`Branched`). A node is removed together with the guards that go with
it, so a Path never goes without the guards of its branches, and what is left keeps all this (`Regular.without`).
-/

set_option autoImplicit false

namespace FormFlow.Store

variable {s t u : Store} {id group : String} {n : Node} {e first second : Edge}

/-! ## Taking nodes away -/

/-- What is left of a store without the nodes of a list and the edges that touch them. -/
structure Without (t s : Store) (gone : List String) : Prop where
  kinds : t.kinds = s.kinds.filter fun entry => entry.1 ∉ gone
  links : t.links.Perm (s.links.filter fun e => e.source ∉ gone ∧ e.target ∉ gone)

namespace Without

variable {gone : List String}

theorem mem_ids (h : Without t s gone) : id ∈ t.ids ↔ id ∈ s.ids ∧ id ∉ gone := by
  rw [← kinds_names t, h.kinds, ← kinds_names s]
  simp only [List.mem_map, List.mem_filter, decide_eq_true_iff]
  constructor
  · rintro ⟨entry, ⟨hmem, hgone⟩, rfl⟩
    exact ⟨⟨entry, hmem, rfl⟩, hgone⟩
  · rintro ⟨⟨entry, hmem, rfl⟩, hgone⟩
    exact ⟨entry, ⟨hmem, hgone⟩, rfl⟩

theorem mem_links (h : Without t s gone) : e ∈ t.links ↔ e ∈ s.links ∧ e.source ∉ gone ∧ e.target ∉ gone := by
  rw [h.links.mem_iff, List.mem_filter, decide_eq_true_iff]

theorem part (h : Without t s gone) (hs : s.WellFormed) : Part t s where
  kinds := h.kinds ▸ List.filter_sublist
  links := h.links.subperm_right.mpr List.filter_sublist.subperm
  ends_mem e he := by
    obtain ⟨hmem, hsource, htarget⟩ := h.mem_links.mp he
    exact ⟨h.mem_ids.mpr ⟨(hs.ends_mem e hmem).1, hsource⟩, h.mem_ids.mpr ⟨(hs.ends_mem e hmem).2, htarget⟩⟩

theorem of_alike (h : Without t s gone) (hut : Alike u t) : Without u s gone :=
  ⟨hut.kinds.trans h.kinds, hut.links.trans h.links⟩

/-- The list may be taken from a store that is alike. -/
theorem to_alike (h : Without t s gone) (hsu : Alike s u) : Without t u gone :=
  ⟨hsu.kinds ▸ h.kinds, h.links.trans (hsu.links.filter _)⟩

theorem congr (h : Without t s gone) {gone' : List String} (hgone : ∀ id, id ∈ gone ↔ id ∈ gone') :
    Without t s gone' := by
  refine ⟨h.kinds.trans (List.filter_congr fun entry _ => ?_), h.links.trans (List.Perm.of_eq ?_)⟩
  · simp only [hgone]
  · exact List.filter_congr fun e _ => by simp only [hgone]

theorem trans (hut : Without u t gone) (hts : Without t s [id]) : Without u s (id :: gone) := by
  refine ⟨?_, ?_⟩
  · rw [hut.kinds, hts.kinds, List.filter_filter]
    exact List.filter_congr fun entry _ => by grind
  · refine hut.links.trans ((hts.links.filter _).trans (List.Perm.of_eq ?_))
    rw [List.filter_filter]
    exact List.filter_congr fun e _ => by grind

end Without

theorem without_of_withoutNode (h : s.withoutNode id = .ok t) : Without t s [id] := by
  obtain ⟨-, hnodes, hlinks, -⟩ := withoutNode_eq_ok h
  refine ⟨?_, List.Perm.of_eq ?_⟩
  · rw [kinds, kinds, hnodes, List.filter_map]
    exact congrArg _ (List.filter_congr fun n _ => by grind)
  · rw [hlinks]
    exact List.filter_congr fun e _ => by grind

/-- Taking nodes away one after the other takes them away together. -/
theorem without_of_foldlM {ids : List String} (h : ids.foldlM withoutNode s = .ok t) (hs : s.WellFormed)
    (hindexed : s.Indexed) : Without t s ids ∧ t.Indexed := by
  induction ids generalizing s with
  | nil =>
    cases h
    refine ⟨⟨?_, List.Perm.of_eq ?_⟩, hindexed⟩ <;> simp
  | cons id ids ih =>
    rw [List.foldlM_cons] at h
    cases hfirst : s.withoutNode id with
    | error f => rw [hfirst] at h; cases h
    | ok u =>
      rw [hfirst] at h
      obtain ⟨hwithout, hindexed'⟩ := ih h ((hs.part_withoutNode hfirst).wellFormed hs) (hindexed.withoutNode hfirst)
      exact ⟨hwithout.trans (without_of_withoutNode hfirst), hindexed'⟩

/-- Nodes of a store without edges from a node to itself can be taken away. -/
theorem exists_foldlM_withoutNode {ids : List String} (hids : ids.Nodup) (hmem : ∀ id ∈ ids, id ∈ s.ids)
    (hs : s.WellFormed) (hindexed : s.Indexed) (hloop : ∀ f ∈ s.links, f.source ≠ f.target) :
    ∃ t, ids.foldlM withoutNode s = .ok t := by
  induction ids generalizing s with
  | nil => exact ⟨s, rfl⟩
  | cons id ids ih =>
    obtain ⟨hnew, hrest⟩ := List.nodup_cons.mp hids
    obtain ⟨u, hu⟩ := hindexed.exists_withoutNode hs (hmem id List.mem_cons_self) fun f hf hsource htarget =>
      hloop f hf (hsource.trans htarget.symm)
    have hwithout := without_of_withoutNode hu
    rw [List.foldlM_cons, hu]
    refine ih hrest (fun other hother => hwithout.mem_ids.mpr ⟨hmem other (List.mem_cons_of_mem _ hother), ?_⟩)
      ((hs.part_withoutNode hu).wellFormed hs) (hindexed.withoutNode hu)
      fun f hf => hloop f (hwithout.mem_links.mp hf).1
    exact fun heq => hnew (List.mem_singleton.mp heq ▸ hother)

/-! ## Branches -/

/-- The edge opens the branch of a group: it leads from a Path to a Condition. -/
structure Opens (s : Store) (group : String) (e : Edge) : Prop where
  mem : e ∈ s.links
  group_eq : e.group = some group
  path : s.kind? e.source = some .path
  guard : s.kind? e.target = some .condition

/-- Every edge of a group opens its branch, or goes on from where an edge of the group opens it. -/
def Branched (s : Store) : Prop :=
  ∀ e ∈ s.links, ∀ group, e.group = some group →
    s.Opens group e ∨ ∃ first, s.Opens group first ∧ first.target = e.source

/-- What every store of an editor keeps. -/
structure Regular (s : Store) : Prop where
  wellFormed : s.WellFormed
  indexed : s.Indexed
  sound : s.Sound
  branched : s.Branched

/-- No Path is taken away without the guards of its branches. -/
def TakesGuards (s : Store) (gone : List String) : Prop :=
  ∀ group first second, s.Opens group first → second ∈ s.links → second.group = some group →
    second.source = first.target → first.source ∈ gone → first.target ∈ gone

namespace Opens

theorem of_alike (h : s.Opens group e) (ht : Alike t s) : t.Opens group e :=
  ⟨ht.mem_links.mpr h.mem, h.group_eq, (ht.kind?_eq _).trans h.path, (ht.kind?_eq _).trans h.guard⟩

/-- An edge that is not from a Condition opens its branch. -/
theorem of_path (hs : s.Branched) (he : e ∈ s.links) (hgroup : e.group = some group)
    (hpath : s.kind? e.source = some .path) : s.Opens group e := by
  rcases hs e he group hgroup with h | ⟨first, hfirst, htarget⟩
  · exact h
  · have := hfirst.guard
    rw [htarget, hpath] at this
    cases this

theorem of_without {gone : List String} (h : s.Opens group e) (hs : s.WellFormed) (ht : Without t s gone)
    (hsource : e.source ∉ gone) (htarget : e.target ∉ gone) : t.Opens group e := by
  have hmem := ht.mem_links.mpr ⟨h.mem, hsource, htarget⟩
  have hpart := ht.part hs
  exact ⟨hmem, h.group_eq, (hpart.kind?_eq hs (hpart.ends_mem e hmem).1).trans h.path,
    (hpart.kind?_eq hs (hpart.ends_mem e hmem).2).trans h.guard⟩

end Opens

namespace Regular

theorem of_alike (h : s.Regular) (ht : Alike t s) : t.Regular where
  wellFormed := (ht.part h.wellFormed).wellFormed h.wellFormed
  indexed := h.indexed.of_alike ht
  sound := ht.sound h.wellFormed h.sound
  branched e he group hgroup := by
    rcases h.branched e (ht.mem_links.mp he) group hgroup with hopens | ⟨first, hfirst, htarget⟩
    · exact Or.inl (hopens.of_alike ht)
    · exact Or.inr ⟨first, hfirst.of_alike ht, htarget⟩

/-- **What is left is regular** if the sentinels stay and every Path takes its guards along. -/
theorem without {gone : List String} (h : s.Regular) (ht : Without t s gone) (hindexed : t.Indexed)
    (hstart : startId ∉ gone) (hfinish : finishId ∉ gone) (hguards : s.TakesGuards gone) : t.Regular where
  wellFormed := (ht.part h.wellFormed).wellFormed h.wellFormed
  indexed := hindexed
  sound := (ht.part h.wellFormed).sound h.wellFormed h.sound (ht.mem_ids.mpr ⟨h.sound.start_mem, hstart⟩)
    (ht.mem_ids.mpr ⟨h.sound.finish_mem, hfinish⟩)
  branched e he group hgroup := by
    obtain ⟨hmem, hsource, htarget⟩ := ht.mem_links.mp he
    rcases h.branched e hmem group hgroup with hopens | ⟨first, hfirst, hguard⟩
    · exact Or.inl (hopens.of_without h.wellFormed ht hsource htarget)
    · -- The guard stays with this edge, so its Path was not taken away.
      have hstays : first.target ∉ gone := hguard ▸ hsource
      have hpath : first.source ∉ gone := fun hgone =>
        hstays (hguards group first e hfirst hmem hgroup hguard.symm hgone)
      exact Or.inr ⟨first, hfirst.of_without h.wellFormed ht hpath hstays, hguard⟩

end Regular

/-! ## Removing an edge or a branch -/

theorem Sound.ne_sentinels (h : s.Sound) {k : Kind} (hk : s.kind? id = some k) (hordinary : k.isSentinel = false) :
    id ≠ startId ∧ id ≠ finishId := by
  refine ⟨fun heq => ?_, fun heq => ?_⟩
  · rw [heq, h.start_kind] at hk
    cases hk
    cases hordinary
  · rw [heq, h.finish_kind] at hk
    cases hk
    cases hordinary

/-- The edges of a group, in some order. -/
theorem mem_branchEdges (hs : s.WellFormed) : e ∈ s.branchEdges group ↔ e ∈ s.links ∧ e.group = some group := by
  simp only [branchEdges, List.mem_append, List.mem_filter, hs.mem_edges, beq_iff_eq]
  grind

/-- The edge that a group lists first opens its branch. -/
theorem Regular.opens_of_branchEdges (h : s.Regular) {others : List Edge}
    (hedges : s.branchEdges group = first :: others) : s.Opens group first := by
  obtain ⟨hmem, hgroup⟩ := (mem_branchEdges h.wellFormed).mp (hedges ▸ List.mem_cons_self)
  have hfirst : ∀ e, s.Opens group e → s.kind? first.source = some .path := by
    intro e he
    have hin : e ∈ (s.edges.filter fun e => e.group == some group).filter fun e => s.kind? e.source == some .path := by
      simp only [List.mem_filter, h.wellFormed.mem_edges, beq_iff_eq]
      exact ⟨⟨he.mem, he.group_eq⟩, he.path⟩
    have hhead : (s.branchEdges group).head? = some first := by rw [hedges]; rfl
    obtain ⟨a, l, hal⟩ := List.exists_cons_of_ne_nil (List.ne_nil_of_mem hin)
    have ha : a ∈ (s.edges.filter fun e => e.group == some group).filter fun e => s.kind? e.source == some .path :=
      hal ▸ List.mem_cons_self
    rw [branchEdges, hal] at hhead
    cases hhead
    simpa using (List.mem_filter.mp ha).2
  rcases h.branched first hmem group hgroup with hopens | ⟨e, he, -⟩
  · exact hopens
  · exact Opens.of_path h.branched hmem hgroup (hfirst e he)

/-- Removing a branch takes its guard away. -/
theorem Regular.withoutBranch_eq_ok (h : s.Regular) (ht : s.withoutBranch group = .ok t) :
    ∃ first, s.Opens group first ∧ s.withoutNode first.target = .ok t := by
  unfold withoutBranch at ht
  split at ht
  · next first other hedges =>
    refine ⟨first, h.opens_of_branchEdges hedges, ?_⟩
    cases hremoved : s.withoutNode first.target with
    | error f => rw [hremoved] at ht; cases ht
    | ok u => rw [hremoved] at ht; cases ht; rfl
  · cases ht

namespace Regular

/-- A guard can be taken away by itself. -/
theorem withoutGuard (h : s.Regular) (hguard : s.kind? id = some .condition) (ht : s.withoutNode id = .ok t) :
    t.Regular := by
  obtain ⟨hstart, hfinish⟩ := h.sound.ne_sentinels hguard rfl
  refine h.without (without_of_withoutNode ht) (h.indexed.withoutNode ht) ?_ ?_ ?_
  · exact fun hm => hstart (List.mem_singleton.mp hm).symm
  · exact fun hm => hfinish (List.mem_singleton.mp hm).symm
  · intro group first second hfirst _ _ _ hgone
    have hpath := hfirst.path
    rw [List.mem_singleton.mp hgone, hguard] at hpath
    cases hpath

/-- An edge outside all branches can be removed. -/
theorem withoutEdge (h : s.Regular) (hgroup : e.group = none) (ht : s.removeEdge id = .ok (e, t)) : t.Regular := by
  have hpart := h.wellFormed.part_removeEdge ht
  obtain ⟨-, -, hnodes, hlinks⟩ := h.indexed.removeEdge_eq_ok h.wellFormed ht
  have hids : t.ids = s.ids := by rw [ids, hnodes, ids]
  have hkind : ∀ id, t.kind? id = s.kind? id := fun id => by rw [kind?, node?, hnodes, kind?, node?]
  have hstays : ∀ {group first}, s.Opens group first → t.Opens group first := fun {group first} hfirst =>
    ⟨(hlinks first).mpr ⟨hfirst.mem, fun heq => by
      have := hfirst.group_eq
      rw [heq, hgroup] at this
      cases this⟩, hfirst.group_eq, (hkind _).trans hfirst.path, (hkind _).trans hfirst.guard⟩
  refine ⟨hpart.wellFormed h.wellFormed, h.indexed.removeEdge h.wellFormed ht,
    hpart.sound h.wellFormed h.sound (hids ▸ h.sound.start_mem) (hids ▸ h.sound.finish_mem), fun f hf group hg => ?_⟩
  rcases h.branched f ((hlinks f).mp hf).1 group hg with hopens | ⟨first, hfirst, hguard⟩
  · exact Or.inl (hstays hopens)
  · exact Or.inr ⟨first, hstays hfirst, hguard⟩

/-- Disconnecting an edge outside all branches removes that edge. -/
theorem removeEdge_of_disconnected (h : s.Regular) (he : e ∈ s.links) (hgroup : e.group = none)
    (ht : s.disconnected e = .ok t) : s.removeEdge e.id = .ok (e, t) := by
  rw [Store.disconnected, hgroup] at ht
  cases hremoved : s.removeEdge e.id with
  | error f => simp [hremoved, Except.map, EditFault.ofStructure] at ht
  | ok removed =>
    obtain ⟨f, u⟩ := removed
    simp only [hremoved, Except.map, EditFault.ofStructure] at ht
    cases ht
    obtain ⟨hf, hid, -, -⟩ := h.indexed.removeEdge_eq_ok h.wellFormed hremoved
    rw [h.indexed.link_unique hf he hid]

/-- **Disconnecting an edge keeps the store regular.** -/
theorem disconnected (h : s.Regular) (he : e ∈ s.links) (ht : s.disconnected e = .ok t) : t.Regular := by
  cases hgroup : e.group with
  | none => exact h.withoutEdge hgroup (h.removeEdge_of_disconnected he hgroup ht)
  | some group =>
    rw [Store.disconnected, hgroup] at ht
    obtain ⟨first, hfirst, hremoved⟩ := h.withoutBranch_eq_ok ht
    exact h.withoutGuard hfirst.guard hremoved

end Regular

/-! ## Deleting a node -/

/-- A Path's branches begin with its edges that go on in their groups. -/
theorem mem_pathBranches {path : String} :
    (∃ second, (first, second) ∈ s.pathBranches path) ↔
      first ∈ s.outgoing path ∧ ∃ group, first.group = some group ∧
        ∃ second ∈ s.outgoing first.target, second.group = some group := by
  simp only [pathBranches, List.mem_filterMap]
  constructor
  · rintro ⟨second, e, he, hbranch⟩
    split at hbranch
    · cases hbranch
    · next group hgroup =>
      obtain ⟨second', hfind, heq⟩ := Option.map_eq_some_iff.mp hbranch
      cases heq
      exact ⟨he, group, hgroup, second, List.mem_of_find?_eq_some hfind, by simpa using List.find?_some hfind⟩
  · rintro ⟨hout, group, hgroup, second, hsecond, hsame⟩
    obtain ⟨found, hfound⟩ :
        ∃ found, (s.outgoing first.target).find? (fun e => e.group == some group) = some found := by
      rw [← Option.isSome_iff_exists, List.find?_isSome]
      exact ⟨second, hsecond, by simp [hsame]⟩
    exact ⟨found, first, hout, by simp [hgroup, hfound]⟩

/-- The guards that go with a node: those that its own edges lead to and that go on, and those that go on to it. -/
theorem Regular.mem_guardsOf (h : s.Regular) (hn : n ∈ s.nodes) :
    id ∈ s.guardsOf n ↔
      (∃ group first second, s.Opens group first ∧ first.source = n.id ∧ first.target = id ∧
        second ∈ s.links ∧ second.group = some group ∧ second.source = id) ∨
      ∃ e ∈ s.links, e.group ≠ none ∧ e.target = n.id ∧ e.source = id ∧ s.kind? id = some .condition := by
  have hid := mem_ids_of_node hn
  rw [guardsOf, List.mem_eraseDups, List.mem_append]
  refine or_congr ?_ ?_
  · constructor
    · intro hm
      split at hm
      · next hpath =>
        obtain ⟨⟨first, onward⟩, hbranch, rfl⟩ := List.mem_map.mp hm
        obtain ⟨hout, group, hgroup, second, hsecond, hsame⟩ := mem_pathBranches.mp ⟨onward, hbranch⟩
        obtain ⟨hmem, hsource⟩ := (mem_outgoing hid).mp hout
        have hopens := Opens.of_path h.branched hmem hgroup
          (hsource ▸ (h.wellFormed.kind?_of_mem hn).trans (congrArg some hpath))
        obtain ⟨hmem', hsource'⟩ := (mem_outgoing (h.wellFormed.ends_mem first hmem).2).mp hsecond
        exact ⟨group, first, second, hopens, hsource, rfl, hmem', hsame, hsource'⟩
      · cases hm
    · rintro ⟨group, first, second, hfirst, hsource, rfl, hsecond, hsame, hguard⟩
      have hpath : n.kind = .path :=
        Option.some.inj ((h.wellFormed.kind?_of_mem hn).symm.trans (hsource ▸ hfirst.path))
      have honward := (mem_outgoing (h.wellFormed.ends_mem first hfirst.mem).2).mpr ⟨hsecond, hguard⟩
      obtain ⟨onward, hbranch⟩ := mem_pathBranches.mpr
        ⟨(mem_outgoing hid).mpr ⟨hfirst.mem, hsource⟩, group, hfirst.group_eq, second, honward, hsame⟩
      rw [if_pos hpath]
      exact List.mem_map.mpr ⟨(first, onward), hbranch, rfl⟩
  · simp only [List.mem_map, List.mem_filter, Bool.and_eq_true, beq_iff_eq, mem_incoming hid, Option.isSome_iff_ne_none]
    constructor
    · rintro ⟨e, ⟨⟨he, htarget⟩, hgroup, hkind⟩, rfl⟩
      exact ⟨e, he, hgroup, htarget, rfl, hkind⟩
    · rintro ⟨e, he, hgroup, htarget, rfl, hkind⟩
      exact ⟨e, ⟨⟨he, htarget⟩, hgroup, hkind⟩, rfl⟩

namespace Regular

theorem ne_of_link (h : s.Regular) (he : e ∈ s.links) : e.source ≠ e.target :=
  h.sound.acyclic.ne_of_arc (arc_of_link he)

theorem guard_of_mem_guardsOf (h : s.Regular) (hn : n ∈ s.nodes) (hid : id ∈ s.guardsOf n) :
    s.kind? id = some .condition := by
  rcases (h.mem_guardsOf hn).mp hid with ⟨_, first, _, hfirst, -, rfl, -⟩ | ⟨_, -, -, -, -, hkind⟩
  · exact hfirst.guard
  · exact hkind

theorem not_mem_guardsOf_self (h : s.Regular) (hn : n ∈ s.nodes) : n.id ∉ s.guardsOf n := by
  intro hid
  rcases (h.mem_guardsOf hn).mp hid with ⟨_, first, _, hfirst, hsource, htarget, -⟩ | ⟨e, he, -, htarget, hsource, -⟩
  · exact h.ne_of_link hfirst.mem (hsource.trans htarget.symm)
  · exact h.ne_of_link he (hsource.trans htarget.symm)

theorem takesGuards_guardsOf (h : s.Regular) (hn : n ∈ s.nodes) : s.TakesGuards (s.guardsOf n ++ [n.id]) := by
  intro group first second hfirst hsecond hgroup hsource hgone
  rcases List.mem_append.mp hgone with hguard | hself
  · have hpath := hfirst.path
    rw [h.guard_of_mem_guardsOf hn hguard] at hpath
    cases hpath
  · exact List.mem_append_left _ ((h.mem_guardsOf hn).mpr
      (Or.inl ⟨group, first, second, hfirst, List.mem_singleton.mp hself, rfl, hsecond, hgroup, hsource⟩))

/-- A node can be deleted. -/
theorem exists_deleted (h : s.Regular) (hn : n ∈ s.nodes) : ∃ t, s.deleted n = .ok t := by
  have hnodup : (s.guardsOf n ++ [n.id]).Nodup := by
    refine List.nodup_append.mpr ⟨Table.eraseDups_nodup _, by simp, fun id hid other hother heq => ?_⟩
    rw [heq, List.mem_singleton.mp hother] at hid
    exact h.not_mem_guardsOf_self hn hid
  have hmem : ∀ id ∈ s.guardsOf n ++ [n.id], id ∈ s.ids := by
    intro id hid
    rcases List.mem_append.mp hid with hguard | hself
    · exact mem_ids_of_kind? (h.guard_of_mem_guardsOf hn hguard)
    · rw [List.mem_singleton.mp hself]
      exact mem_ids_of_node hn
  obtain ⟨t, ht⟩ := exists_foldlM_withoutNode hnodup hmem h.wellFormed h.indexed fun f hf => h.ne_of_link hf
  exact ⟨t, by rw [Store.deleted, ht]; rfl⟩

/-- **Deleting a node keeps the store regular.** -/
theorem deleted (h : s.Regular) (hn : n ∈ s.nodes) (hk : n.kind.isSentinel = false) (ht : s.deleted n = .ok t) :
    Without t s (s.guardsOf n ++ [n.id]) ∧ t.Regular := by
  unfold Store.deleted at ht
  cases hremoved : (s.guardsOf n ++ [n.id]).foldlM withoutNode s with
  | error f => rw [hremoved] at ht; cases ht
  | ok u =>
    rw [hremoved] at ht
    cases ht
    obtain ⟨hwithout, hindexed⟩ := without_of_foldlM hremoved h.wellFormed h.indexed
    have hordinary : ∀ id ∈ s.guardsOf n ++ [n.id], id ≠ startId ∧ id ≠ finishId := by
      intro id hid
      rcases List.mem_append.mp hid with hguard | hself
      · exact h.sound.ne_sentinels (h.guard_of_mem_guardsOf hn hguard) rfl
      · rw [List.mem_singleton.mp hself]
        exact h.sound.ne_sentinels (h.wellFormed.kind?_of_mem hn) hk
    exact ⟨hwithout, h.without hwithout hindexed (fun hm => (hordinary _ hm).1 rfl) (fun hm => (hordinary _ hm).2 rfl)
      (h.takesGuards_guardsOf hn)⟩

end Regular

end FormFlow.Store
