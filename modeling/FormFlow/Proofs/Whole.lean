import FormFlow.Proofs.Commit
/-!
Whole branches.

A branch is whole if its group is on two edges: one from a Path to a Condition, and the only edge out of that
Condition. Among regular stores the check accepts those whose branches are all whole
(`Regular.checkStructure_eq_ok_iff_whole`). Taking nodes away keeps the branches whole unless it strands a guard: takes
away what the branch leads to, and leaves the guard behind (`Regular.whole_without_iff`).
-/

set_option autoImplicit false

namespace FormFlow.Store

variable {s t u : Store} {id group source target : String} {n : Node} {e first second : Edge} {gone : List String}

/-- The group is on two edges: from a Path to a Condition, and the only edge out of that Condition. -/
structure IsBranch (s : Store) (group : String) (first second : Edge) : Prop where
  opens : s.Opens group first
  outgoing_guard : s.outgoing first.target = [second]
  group_eq : second.group = some group
  only : ∀ e ∈ s.links, e.group = some group → e = first ∨ e = second

/-- All branches are whole. -/
def Whole (s : Store) : Prop :=
  ∀ e ∈ s.links, ∀ group, e.group = some group → ∃ first second, s.IsBranch group first second

namespace IsBranch

theorem mem_second (h : s.IsBranch group first second) (hs : s.WellFormed) :
    second ∈ s.links ∧ second.source = first.target := by
  have hmem : second ∈ s.outgoing first.target := by
    rw [h.outgoing_guard]
    exact List.mem_singleton_self second
  exact (mem_outgoing (hs.ends_mem first h.opens.mem).2).mp hmem

theorem first_ne_second (h : s.IsBranch group first second) (hs : s.WellFormed) : first ≠ second := by
  rintro rfl
  have hpath := h.opens.path
  rw [(h.mem_second hs).2, h.opens.guard] at hpath
  cases hpath

/-- A group has one branch. -/
theorem eq_first (h : s.IsBranch group first second) (hs : s.WellFormed) (he : s.Opens group e) : e = first := by
  rcases h.only e he.mem he.group_eq with rfl | rfl
  · rfl
  · have hpath := he.path
    rw [(h.mem_second hs).2, h.opens.guard] at hpath
    cases hpath

theorem of_alike (h : s.IsBranch group first second) (hs : s.WellFormed) (ht : Alike t s) :
    t.IsBranch group first second := by
  refine ⟨h.opens.of_alike ht, ?_, h.group_eq, fun e he hgroup => h.only e (ht.mem_links.mp he) hgroup⟩
  have hid := (hs.ends_mem first h.opens.mem).2
  have hperm := ht.links.filter fun e => e.source == first.target
  rw [← outgoing_of_mem hid, h.outgoing_guard, List.perm_singleton] at hperm
  rw [outgoing_of_mem (ht.ids_eq ▸ hid), hperm]

end IsBranch

theorem Whole.of_alike (h : s.Whole) (hs : s.WellFormed) (ht : Alike t s) : t.Whole := by
  intro e he group hgroup
  obtain ⟨first, second, hbranch⟩ := h e (ht.mem_links.mp he) group hgroup
  exact ⟨first, second, hbranch.of_alike hs ht⟩

/-! ## What the check looks for -/

/-- The size of a group counts its edges. -/
theorem WellFormed.groupSize_eq (hs : s.WellFormed) (group : String) :
    s.groupSize group = (s.links.filter fun e => e.group == some group).length := by
  rw [groupSize, groups, List.count_eq_countP, List.countP_filterMap, hs.edges_perm.countP_eq,
    List.countP_eq_length_filter]
  refine congrArg List.length (List.filter_congr fun e _ => ?_)
  cases e.group <;> simp

theorem mem_groups (hs : s.WellFormed) : group ∈ s.groups ↔ ∃ e ∈ s.links, e.group = some group := by
  rw [groups, List.mem_filterMap]
  simp only [hs.mem_edges]

theorem IsBranch.groupSize_eq (h : s.IsBranch group first second) (hs : s.WellFormed) : s.groupSize group = 2 := by
  obtain ⟨hmem, -⟩ := h.mem_second hs
  have hperm : (s.links.filter fun e => e.group == some group).Perm [first, second] := by
    refine (List.perm_ext_iff_of_nodup (hs.links_nodup.filter _) ?_).mpr fun e => ?_
    · simpa using h.first_ne_second hs
    · rw [List.mem_filter, beq_iff_eq, List.mem_cons, List.mem_singleton]
      constructor
      · exact fun ⟨he, hgroup⟩ => h.only e he hgroup
      · rintro (rfl | rfl)
        · exact ⟨h.opens.mem, h.opens.group_eq⟩
        · exact ⟨hmem, h.group_eq⟩
  rw [hs.groupSize_eq, hperm.length_eq]
  rfl

/-- A guard whose group has two edges stands in a whole branch. -/
theorem Regular.isBranch_of_guardedBy (h : s.Regular) (hfirst : s.Opens group first)
    (hguarded : s.GuardedBy first second) : s.IsBranch group first second := by
  obtain ⟨group', hgroup', hsecond, -, honward, hsize⟩ := hguarded
  obtain rfl := Option.some.inj (hfirst.group_eq.symm.trans hgroup')
  obtain ⟨hmem, hsource⟩ := (mem_outgoing (h.wellFormed.ends_mem first hfirst.mem).2).mp
    (honward ▸ List.mem_singleton_self second)
  have hne : first ≠ second := by
    rintro rfl
    exact h.ne_of_link hfirst.mem hsource
  -- The group has two edges, and these two are in it.
  have hsub : [first, second].Subperm (s.links.filter fun e => e.group == some group) := by
    refine List.Nodup.subperm (by simpa using hne) ?_
    intro e he
    rw [List.mem_filter, beq_iff_eq]
    rcases List.mem_cons.mp he with rfl | he
    · exact ⟨hfirst.mem, hfirst.group_eq⟩
    · obtain rfl := List.mem_singleton.mp he
      exact ⟨hmem, hsecond⟩
  rw [h.wellFormed.groupSize_eq] at hsize
  have hperm := hsub.perm_of_length_le (Nat.le_of_eq hsize)
  refine ⟨hfirst, honward, hsecond, fun e he hgroup => ?_⟩
  simpa using hperm.mem_iff.mpr (List.mem_filter.mpr ⟨he, beq_iff_eq.mpr hgroup⟩)

theorem IsBranch.guardedBy (h : s.IsBranch group first second) (hs : s.WellFormed) : s.GuardedBy first second :=
  ⟨group, h.opens.group_eq, h.group_eq, h.opens.guard, h.outgoing_guard, h.groupSize_eq hs⟩

/-- **Among regular stores the check accepts those whose branches are whole.** -/
theorem Regular.checkStructure_eq_ok_iff_whole (h : s.Regular) : s.checkStructure = .ok () ↔ s.Whole := by
  rw [checkStructure_eq_ok_iff]
  constructor
  · rintro ⟨-, hguards, -⟩ e he group hgroup
    obtain ⟨first, hfirst⟩ : ∃ first, s.Opens group first := by
      rcases h.branched e he group hgroup with hopens | ⟨first, hopens, -⟩
      · exact ⟨e, hopens⟩
      · exact ⟨first, hopens⟩
    obtain ⟨path, hpath, hkind⟩ := kind?_eq_some_iff.mp hfirst.path
    obtain ⟨hmem, hid⟩ := mem_of_node? hpath
    have hout : first ∈ s.outgoing path.id := (mem_outgoing (mem_ids_of_node hmem)).mpr ⟨hfirst.mem, hid.symm⟩
    obtain ⟨second, hguarded⟩ := hguards path hmem hkind first hout
    exact ⟨first, second, h.isBranch_of_guardedBy hfirst hguarded⟩
  · intro hwhole
    refine ⟨h.sound, fun path hpath hkind first hout => ?_, fun group hgroup => ?_⟩
    · obtain ⟨hmem, hsource⟩ := (mem_outgoing (mem_ids_of_node hpath)).mp hout
      obtain ⟨group, hgroup⟩ := Option.ne_none_iff_exists'.mp ((h.sound.branching path hpath hkind).2 first hout)
      obtain ⟨first', second, hbranch⟩ := hwhole first hmem group hgroup
      have hopens : s.Opens group first := Opens.of_path h.branched hmem hgroup
        (hsource ▸ (h.wellFormed.kind?_of_mem hpath).trans (congrArg some hkind))
      obtain rfl := hbranch.eq_first h.wellFormed hopens
      exact ⟨second, hbranch.guardedBy h.wellFormed⟩
    · obtain ⟨e, he, hegroup⟩ := (mem_groups h.wellFormed).mp hgroup
      obtain ⟨first, second, hbranch⟩ := hwhole e he group hegroup
      exact hbranch.groupSize_eq h.wellFormed

theorem whole_of_links_nil (h : s.links = []) : s.Whole := fun e he => by
  rw [h] at he
  cases he

/-! ## Taking nodes away -/

/-- Taking the nodes away strands a guard: what its branch goes on to is among them, and the guard is not. -/
def Strands (s : Store) (gone : List String) : Prop :=
  ∃ e ∈ s.links, e.group ≠ none ∧ s.kind? e.source = some .condition ∧ e.source ∉ gone ∧ e.target ∈ gone

theorem not_strands_nil : ¬ s.Strands [] := fun ⟨_, _, _, _, _, hgone⟩ => List.not_mem_nil hgone

namespace IsBranch

/-- A branch stays whole if its ends and its guard stay. -/
theorem without (h : s.IsBranch group first second) (hs : s.WellFormed) (ht : Without t s gone)
    (hpath : first.source ∉ gone) (hguard : first.target ∉ gone) (hgoal : second.target ∉ gone) :
    t.IsBranch group first second := by
  obtain ⟨hmem, hsource⟩ := h.mem_second hs
  have hopens := h.opens.of_without hs ht hpath hguard
  have hstays : second ∈ t.links := ht.mem_links.mpr ⟨hmem, hsource.symm ▸ hguard, hgoal⟩
  exact ⟨hopens, (ht.part hs).outgoing_eq_singleton h.outgoing_guard hstays hsource, h.group_eq,
    fun e he hgroup => h.only e (ht.mem_links.mp he).1 hgroup⟩

end IsBranch

/-- A stranded guard has a branch that is not whole. -/
theorem Regular.not_whole_of_strands (h : s.Regular) (hw : s.Whole) (ht : Without t s gone)
    (hguards : s.TakesGuards gone) (hstrands : s.Strands gone) : ¬ t.Whole := by
  intro hwhole
  have hs := h.wellFormed
  have hs' := (ht.part hs).wellFormed hs
  obtain ⟨e, he, hgroup, hkind, hstays, hgoes⟩ := hstrands
  obtain ⟨group, hgroup⟩ := Option.ne_none_iff_exists'.mp hgroup
  obtain ⟨first, second, hbranch⟩ := hw e he group hgroup
  obtain rfl : e = second := by
    rcases hbranch.only e he hgroup with rfl | rfl
    · have hpath := hbranch.opens.path
      rw [hkind] at hpath
      cases hpath
    · rfl
  obtain ⟨-, hsource⟩ := hbranch.mem_second hs
  -- The first edge of the branch stays, and the second one does not.
  have hpath : first.source ∉ gone := fun hgone =>
    hstays (hsource ▸ hguards group first e hbranch.opens he hgroup hsource hgone)
  have hopens := hbranch.opens.of_without hs ht hpath (hsource ▸ hstays)
  obtain ⟨first', second', hleft⟩ := hwhole first hopens.mem group hopens.group_eq
  obtain rfl := hleft.eq_first hs' hopens
  obtain ⟨hmem, -, htarget⟩ := ht.mem_links.mp (hleft.mem_second hs').1
  rcases hbranch.only second' hmem hleft.group_eq with rfl | rfl
  · exact hleft.first_ne_second hs' rfl
  · exact htarget hgoes

/-- **What is left is whole exactly if no guard is stranded.** -/
theorem Regular.whole_without_iff (h : s.Regular) (hw : s.Whole) (ht : Without t s gone)
    (hguards : s.TakesGuards gone) : t.Whole ↔ ¬ s.Strands gone := by
  refine ⟨fun hwhole hstrands => h.not_whole_of_strands hw ht hguards hstrands hwhole, ?_⟩
  intro hstrands e he group hgroup
  obtain ⟨hmem, hsourceStays, htargetStays⟩ := ht.mem_links.mp he
  obtain ⟨first, second, hbranch⟩ := hw e hmem group hgroup
  obtain ⟨hmemSecond, hsource⟩ := hbranch.mem_second h.wellFormed
  have hkind : s.kind? second.source = some .condition := hsource.symm ▸ hbranch.opens.guard
  have hguard : first.target ∉ gone := by
    rcases hbranch.only e hmem hgroup with rfl | rfl
    · exact htargetStays
    · exact hsource ▸ hsourceStays
  have hpath : first.source ∉ gone := fun hgone =>
    hguard (hguards group first second hbranch.opens hmemSecond hbranch.group_eq hsource hgone)
  have hgoal : second.target ∉ gone := fun hgone =>
    hstrands ⟨second, hmemSecond, by simp [hbranch.group_eq], hkind, hsource.symm ▸ hguard, hgone⟩
  exact ⟨first, second, hbranch.without h.wellFormed ht hpath hguard hgoal⟩

/-- Removing an edge outside all branches leaves them whole. -/
theorem Regular.whole_withoutEdge (h : s.Regular) (hw : s.Whole) (hnone : e.group = none)
    (ht : s.removeEdge id = .ok (e, t)) : t.Whole := by
  intro f hf group hgroup
  have hs := h.wellFormed
  obtain ⟨-, -, hnodes, hlinks⟩ := h.indexed.removeEdge_eq_ok hs ht
  have hpart := hs.part_removeEdge ht
  have hkind : ∀ id, t.kind? id = s.kind? id := fun id => by rw [kind?, node?, hnodes, kind?, node?]
  have hgrouped : ∀ {g group}, g ∈ s.links → g.group = some group → g ∈ t.links := fun {g group} hg hsome =>
    (hlinks g).mpr ⟨hg, fun heq => by rw [heq, hnone] at hsome; cases hsome⟩
  obtain ⟨first, second, hbranch⟩ := hw f ((hlinks f).mp hf).1 group hgroup
  obtain ⟨hmem, hsource⟩ := hbranch.mem_second hs
  have hfirst := hgrouped hbranch.opens.mem hbranch.opens.group_eq
  have hsecond := hgrouped hmem hbranch.group_eq
  exact ⟨first, second, ⟨hfirst, hbranch.opens.group_eq, (hkind _).trans hbranch.opens.path,
    (hkind _).trans hbranch.opens.guard⟩, hpart.outgoing_eq_singleton hbranch.outgoing_guard hsecond hsource,
    hbranch.group_eq, fun g hg => hbranch.only g ((hlinks g).mp hg).1⟩

/-! ## Adding -/

theorem IsBranch.addNode (h : s.IsBranch group first second) (hs : s.WellFormed) (ht : s.addNode n = .ok t) :
    t.IsBranch group first second := by
  have hid := (hs.ends_mem first h.opens.mem).2
  refine ⟨h.opens.addNode hs ht, (outgoing_addNode ht hid).trans h.outgoing_guard, h.group_eq, fun e he => ?_⟩
  exact h.only e (links_addNode ht ▸ he)

theorem IsBranch.addEdge (h : s.IsBranch group first second) (hs : s.WellFormed) (ht : s.addEdge e = .ok t)
    (hsource : e.source ≠ first.target) (hgroup : e.group ≠ some group) : t.IsBranch group first second := by
  have hid := (hs.ends_mem first h.opens.mem).2
  refine ⟨h.opens.addEdge ht, ?_, h.group_eq, fun f hf hfgroup => ?_⟩
  · rw [outgoing_addEdge ht hid, if_neg hsource, List.append_nil, h.outgoing_guard]
  · rcases (mem_links_addEdge ht).mp hf with hf | rfl
    · exact h.only f hf hfgroup
    · exact absurd hfgroup hgroup

/-- A new guard goes on with the second edge of its branch alone. -/
theorem outgoing_guard_of_new (hs : s.WellFormed) (hsource : source ∈ s.ids) {guard : Node} {a b : Edge}
    (ha : a.ends = (source, guard.id)) (hb : b.ends = (guard.id, target)) (ht : s.addNode guard = .ok t)
    (hu : t.addEdge a = .ok u) {v : Store} (hv : u.addEdge b = .ok v) : v.outgoing a.target = [b] := by
  obtain ⟨rfl, htarget⟩ := Prod.mk.inj ha
  have hnew : guard.id ∉ s.ids := (addNode_eq_ok ht).1
  have hne : a.source ≠ guard.id := fun heq => hnew (heq ▸ hsource)
  have hmem : guard.id ∈ t.ids := (mem_ids_addNode ht).mpr (Or.inr rfl)
  rw [htarget, outgoing_addEdge hv (ids_addEdge hu ▸ hmem), outgoing_addEdge hu hmem, outgoing_addNode_self hs ht,
    if_pos (Prod.mk.inj hb).1, if_neg hne]
  rfl

namespace Whole

theorem addNode (h : s.Whole) (hs : s.WellFormed) (ht : s.addNode n = .ok t) : t.Whole := by
  intro e he group hgroup
  obtain ⟨first, second, hbranch⟩ := h e (links_addNode ht ▸ he) group hgroup
  exact ⟨first, second, hbranch.addNode hs ht⟩

theorem connectPlain (h : s.Whole) (hs : s.WellFormed) (hout : s.outgoing source = [])
    (ht : s.addEdge (.plain source target) = .ok t) : t.Whole := by
  intro e he group hgroup
  rcases (mem_links_addEdge ht).mp he with he | rfl
  · obtain ⟨first, second, hbranch⟩ := h e he group hgroup
    refine ⟨first, second, hbranch.addEdge hs ht (fun heq => ?_) (fun heq => by cases heq)⟩
    have honward := hbranch.outgoing_guard
    rw [← heq, show (Edge.plain source target).source = source from rfl, hout] at honward
    cases honward
  · cases hgroup

theorem connectBranch (h : s.Whole) (hs : s.WellFormed) (hpath : s.kind? source = some .path)
    (hsource : source ∈ s.ids) {guard : Node} {a b : Edge} (hguard : guard.kind = .condition)
    (hgroup : group ∉ s.groups) (ha : a.ends = (source, guard.id) ∧ a.group = some group)
    (hb : b.ends = (guard.id, target) ∧ b.group = some group) (ht : s.addNode guard = .ok t)
    (hu : t.addEdge a = .ok u) {v : Store} (hv : u.addEdge b = .ok v) : v.Whole := by
  have hwell := hs.addNode ht
  have hfresh : ∀ e ∈ s.links, e.group ≠ some group := fun e he heq => hgroup ((mem_groups hs).mpr ⟨e, he, heq⟩)
  have hold : ∀ e ∈ v.links, e ∈ s.links ∨ e = a ∨ e = b := by
    intro e he
    rcases (mem_links_addEdge hv).mp he with he | he
    · exact (mem_links_addEdge hu).mp he |>.imp (fun he => links_addNode ht ▸ he) Or.inl
    · exact Or.inr (Or.inr he)
  have hopens : u.Opens group a := by
    obtain ⟨hsourceA, htargetA⟩ := Prod.mk.inj ha.1
    refine ⟨(mem_links_addEdge hu).mpr (Or.inr rfl), ha.2, ?_, ?_⟩
    · rw [kind?_addEdge hu, hsourceA, kind?_addNode ht hsource, hpath]
    · rw [kind?_addEdge hu, htargetA, kind?_addNode_self ht, hguard]
  have hbranch : v.IsBranch group a b := by
    refine ⟨hopens.addEdge hv, ?_, hb.2, fun e he heq => (hold e he).resolve_left fun he => hfresh e he heq⟩
    exact outgoing_guard_of_new hs hsource ha.1 hb.1 ht hu hv
  intro e he other hother
  rcases hold e he with he | rfl | rfl
  · obtain ⟨first, second, hfirst⟩ := h e he other hother
    have hne : some group ≠ some other := fun heq => hfresh e he (hother.trans heq.symm)
    have hends := hs.ends_mem first hfirst.opens.mem
    have hsourceNe : a.source ≠ first.target := fun heq => by
      have hkind := hfirst.opens.guard
      rw [← heq, (Prod.mk.inj ha.1).1, hpath] at hkind
      cases hkind
    have hguardNe : b.source ≠ first.target := fun heq =>
      (addNode_eq_ok ht).1 ((Prod.mk.inj hb.1).1 ▸ heq ▸ hends.2)
    exact ⟨first, second, ((hfirst.addNode hs ht).addEdge hwell hu hsourceNe (ha.2 ▸ hne)).addEdge
      (hwell.addEdge hu) hv hguardNe (hb.2 ▸ hne)⟩
  · obtain rfl := Option.some.inj (ha.2.symm.trans hother)
    exact ⟨_, _, hbranch⟩
  · obtain rfl := Option.some.inj (hb.2.symm.trans hother)
    exact ⟨_, _, hbranch⟩

/-- A planned connection leaves the branches whole, and adds a whole one for a Path. -/
theorem apply_plan {tokens rest : TokenSupply} {plan : ConnectionPlan} (h : s.Whole) (hs : s.WellFormed)
    (hplan : s.planConnection source target tokens = .ok (plan, rest)) (hu : Alike u s) (ht : plan.apply u = .ok t) :
    t.Whole := by
  obtain ⟨hrejection, hcases⟩ := planConnection_eq_ok hplan
  have hc := (Connectable.of_rejection? hs hrejection).of_alike hs hu
  have hwell := (hu.part hs).wellFormed hs
  have hwhole := h.of_alike hs hu
  rcases hcases with ⟨hkind, rfl⟩ | ⟨hpath, guard, group, hguard, -, hgroup, rfl⟩
  · exact hwhole.connectPlain hwell (hc.single (hu.kind?_eq source ▸ hkind)) (apply_plain ht)
  · obtain ⟨v, w, hnode, hfirst, hsecond⟩ := apply_branch ht
    have hfresh : group ∉ u.groups := fun hm => by
      obtain ⟨e, he, heq⟩ := (mem_groups hwell).mp hm
      exact hgroup ((mem_groups hs).mpr ⟨e, hu.mem_links.mp he, heq⟩)
    exact hwhole.connectBranch hwell ((hu.kind?_eq source).trans hpath) hc.source_mem hguard hfresh ⟨rfl, rfl⟩
      ⟨rfl, rfl⟩ hnode hfirst hsecond

end Whole

end FormFlow.Store
