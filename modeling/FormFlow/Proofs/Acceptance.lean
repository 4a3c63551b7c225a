import FormFlow.Proofs.Tokens
import FormFlow.Proofs.Whole
/-!
The rules for a new connection agree with the check of the whole graph.

The check accepts a store whose edges out of Paths open guarded branches and whose groups are pairs (`Accepted`).
An edge, or a branch with a guard of its own, can be added to such a store so that the result is accepted exactly if
its ends are connectable: adding keeps all that is accepted (`Accepted.addPlain`, `Accepted.addBranch`), and a sound
result leaves no rule that the ends could break (`Connectable.of_addEdge`, `Connectable.of_addBranch`). The rules
reject nothing else but a second branch of a Path to the same target (`Accepted.rejection?_eq_none_iff`).
-/

set_option autoImplicit false

namespace FormFlow.Store

variable {s t u v : Store} {source target group : String} {n guard : Node} {e first second : Edge}

/-! ## What the check accepts -/

/-- The store is sound, every edge out of a Path opens a guarded branch, and the edges of a group are two. -/
structure Accepted (s : Store) : Prop where
  sound : s.Sound
  guarded : ∀ e ∈ s.links, s.kind? e.source = some .path → ∃ second, s.GuardedBy e second
  paired : ∀ e ∈ s.links, ∀ group, e.group = some group → s.groupSize group = 2

theorem WellFormed.checkStructure_eq_ok_iff_accepted (hs : s.WellFormed) : s.checkStructure = .ok () ↔ s.Accepted := by
  rw [checkStructure_eq_ok_iff]
  constructor
  · rintro ⟨hsound, hguards, hgroups⟩
    refine ⟨hsound, fun e he hpath => ?_, fun e he group hgroup => hgroups group ((mem_groups hs).mpr ⟨e, he, hgroup⟩)⟩
    obtain ⟨path, hpath, hkind⟩ := kind?_eq_some_iff.mp hpath
    obtain ⟨hmem, hid⟩ := mem_of_node? hpath
    exact hguards path hmem hkind e ((mem_outgoing (mem_ids_of_node hmem)).mpr ⟨he, hid.symm⟩)
  · intro h
    refine ⟨h.sound, fun path hpath hkind e hout => ?_, fun group hgroup => ?_⟩
    · obtain ⟨hmem, hsource⟩ := (mem_outgoing (mem_ids_of_node hpath)).mp hout
      refine h.guarded e hmem ?_
      rw [hsource, hs.kind?_of_mem hpath, hkind]
    · obtain ⟨e, he, hegroup⟩ := (mem_groups hs).mp hgroup
      exact h.paired e he group hegroup

/-! ## Groups and guards while a store grows -/

theorem groupSize_of_alike (hs : s.WellFormed) (ht : Alike t s) (group : String) :
    t.groupSize group = s.groupSize group := by
  rw [((ht.part hs).wellFormed hs).groupSize_eq, hs.groupSize_eq]
  exact (ht.links.filter _).length_eq

theorem groupSize_addNode (hs : s.WellFormed) (ht : s.addNode n = .ok t) (group : String) :
    t.groupSize group = s.groupSize group := by
  rw [(hs.addNode ht).groupSize_eq, hs.groupSize_eq, links_addNode ht]

/-- An edge adds one to the size of its group. -/
theorem groupSize_addEdge (hs : s.WellFormed) (ht : s.addEdge e = .ok t) (group : String) :
    t.groupSize group = s.groupSize group + if e.group = some group then 1 else 0 := by
  rw [(hs.addEdge ht).groupSize_eq, hs.groupSize_eq]
  obtain ⟨-, -, -, -, rfl⟩ := addEdge_eq_ok ht
  rw [List.filter_append, List.length_append]
  by_cases hgroup : e.group = some group <;> simp [hgroup]

theorem groupSize_eq_zero (hgroup : group ∉ s.groups) : s.groupSize group = 0 := List.count_eq_zero.mpr hgroup

namespace GuardedBy

theorem of_alike (h : s.GuardedBy first second) (hs : s.WellFormed) (ht : Alike t s) : t.GuardedBy first second := by
  obtain ⟨group, hfirst, hsecond, hkind, honward, hsize⟩ := h
  have hid := mem_ids_of_kind? hkind
  have hperm := ht.links.filter fun e => e.source == first.target
  rw [← outgoing_of_mem hid, honward, List.perm_singleton] at hperm
  refine ⟨group, hfirst, hsecond, (ht.kind?_eq _).trans hkind, ?_, (groupSize_of_alike hs ht group).trans hsize⟩
  rw [outgoing_of_mem (ht.ids_eq ▸ hid), hperm]

theorem addNode (h : s.GuardedBy first second) (hs : s.WellFormed) (ht : s.addNode n = .ok t) :
    t.GuardedBy first second := by
  obtain ⟨group, hfirst, hsecond, hkind, honward, hsize⟩ := h
  have hid := mem_ids_of_kind? hkind
  exact ⟨group, hfirst, hsecond, (kind?_addNode ht hid).trans hkind, (outgoing_addNode ht hid).trans honward,
    (groupSize_addNode hs ht group).trans hsize⟩

/-- An edge of another group that does not leave the guard lets a branch be guarded as it was. -/
theorem addEdge (h : s.GuardedBy first second) (hs : s.WellFormed) (ht : s.addEdge e = .ok t)
    (hsource : e.source ≠ first.target) (hgroup : e.group ≠ first.group) : t.GuardedBy first second := by
  obtain ⟨group, hfirst, hsecond, hkind, honward, hsize⟩ := h
  refine ⟨group, hfirst, hsecond, (kind?_addEdge ht _).trans hkind, ?_, ?_⟩
  · rw [outgoing_addEdge ht (mem_ids_of_kind? hkind), if_neg hsource, List.append_nil, honward]
  · rw [groupSize_addEdge hs ht, if_neg (hfirst ▸ hgroup), hsize]

theorem guard_kind (h : s.GuardedBy first second) : s.kind? first.target = some .condition := h.choose_spec.2.2.1

theorem outgoing_guard (h : s.GuardedBy first second) : s.outgoing first.target = [second] :=
  h.choose_spec.2.2.2.1

end GuardedBy

namespace Accepted

theorem of_alike (h : s.Accepted) (hs : s.WellFormed) (ht : Alike t s) : t.Accepted := by
  refine ⟨ht.sound hs h.sound, fun e he hpath => ?_, fun e he group hgroup => ?_⟩
  · obtain ⟨second, hguarded⟩ := h.guarded e (ht.mem_links.mp he) ((ht.kind?_eq _).symm.trans hpath)
    exact ⟨second, hguarded.of_alike hs ht⟩
  · rw [groupSize_of_alike hs ht, h.paired e (ht.mem_links.mp he) group hgroup]

/-! ## Adding what the rules allow -/

/-- An edge of its own between connectable nodes is accepted. -/
theorem addPlain (h : s.Accepted) (hs : s.WellFormed) (hc : s.Connectable source target)
    (hkind : s.kind? source ≠ some .path) (ht : s.addEdge (.plain source target) = .ok t) : t.Accepted := by
  refine ⟨h.sound.addEdge hs (hc.fits_plain hkind) ht, fun e he hpath => ?_, fun e he group hgroup => ?_⟩
  · rw [kind?_addEdge ht] at hpath
    rcases (mem_links_addEdge ht).mp he with he | rfl
    · obtain ⟨second, hguarded⟩ := h.guarded e he hpath
      refine ⟨second, hguarded.addEdge hs ht (fun heq => ?_) (fun heq => ?_)⟩
      · -- The source has no edge yet, and the guard has one.
        have honward := hguarded.outgoing_guard
        rw [← heq, show (Edge.plain source target).source = source from rfl, hc.single hkind] at honward
        cases honward
      · obtain ⟨group, hfirst, -⟩ := hguarded
        rw [hfirst] at heq
        cases heq
    · exact absurd hpath hkind
  · rcases (mem_links_addEdge ht).mp he with he | rfl
    · rw [groupSize_addEdge hs ht, if_neg (by nofun), h.paired e he group hgroup]
    · cases hgroup

/-- A branch under a new group between connectable nodes is accepted. -/
theorem addBranch (h : s.Accepted) (hs : s.WellFormed) (hc : s.Connectable source target)
    (hpath : s.kind? source = some .path) (hguard : guard.kind = .condition) (hgroup : group ∉ s.groups)
    (hfirst : first.ends = (source, guard.id) ∧ first.group = some group)
    (hsecond : second.ends = (guard.id, target) ∧ second.group = some group) (ht : s.addNode guard = .ok t)
    (hu : t.addEdge first = .ok u) (hv : u.addEdge second = .ok v) : v.Accepted := by
  have hwell := hs.addNode ht
  have hwell' := hwell.addEdge hu
  have hordinary : guard.kind.isSentinel = false := by rw [hguard]; rfl
  have hfinish : guard.id ≠ finishId := fun heq => (addNode_eq_ok ht).1 (heq ▸ h.sound.finish_mem)
  have hto := hc.fits_to_guard hs h.sound.start_mem hpath hguard ht hfirst.1 (by rw [hfirst.2]; nofun)
  have hfrom := hc.fits_from_guard hs hpath hguard hfinish ht hu hfirst hsecond
  have hsound := ((h.sound.addNode hs hordinary ht).addEdge hwell hto hu).addEdge hwell' hfrom hv
  -- The new group has the two new edges, and every other group has those that it had.
  have hnew : v.groupSize group = 2 := by
    rw [groupSize_addEdge hwell' hv, groupSize_addEdge hwell hu, groupSize_addNode hs ht, groupSize_eq_zero hgroup,
      if_pos hfirst.2, if_pos hsecond.2]
  have hfresh : ∀ e ∈ s.links, e.group ≠ some group := fun e he heq => hgroup ((mem_groups hs).mpr ⟨e, he, heq⟩)
  have hlinks : ∀ e ∈ v.links, e ∈ s.links ∨ e = first ∨ e = second := by
    intro e he
    rcases (mem_links_addEdge hv).mp he with he | he
    · exact (mem_links_addEdge hu).mp he |>.imp (fun he => links_addNode ht ▸ he) Or.inl
    · exact Or.inr (Or.inr he)
  obtain ⟨hfirstSource, hfirstTarget⟩ := Prod.mk.inj hfirst.1
  obtain ⟨hsecondSource, -⟩ := Prod.mk.inj hsecond.1
  have hkind : ∀ id, v.kind? id = t.kind? id := fun id => (kind?_addEdge hv id).trans (kind?_addEdge hu id)
  have hguardKind : v.kind? guard.id = some .condition := by rw [hkind, kind?_addNode_self ht, hguard]
  refine ⟨hsound, fun e he hepath => ?_, fun e he other hother => ?_⟩
  · rcases hlinks e he with he | rfl | rfl
    · rw [hkind, kind?_addNode ht (hs.ends_mem e he).1] at hepath
      obtain ⟨onward, hguarded⟩ := h.guarded e he hepath
      have hsource : first.source ≠ e.target := fun heq => by
        have hcondition := hguarded.guard_kind
        rw [← heq, hfirstSource, hpath] at hcondition
        cases hcondition
      have hguardNe : second.source ≠ e.target := fun heq =>
        (addNode_eq_ok ht).1 (hsecondSource ▸ heq ▸ (hs.ends_mem e he).2)
      have hne : some group ≠ e.group := (hfresh e he).symm
      exact ⟨onward, ((hguarded.addNode hs ht).addEdge hwell hu hsource (hfirst.2 ▸ hne)).addEdge hwell' hv hguardNe
        (hsecond.2 ▸ hne)⟩
    · refine ⟨second, group, hfirst.2, hsecond.2, ?_, ?_, hnew⟩
      · rw [hfirstTarget, hguardKind]
      · exact outgoing_guard_of_new hs hc.source_mem hfirst.1 hsecond.1 ht hu hv
    · rw [hsecondSource, hguardKind] at hepath
      cases hepath
  · by_cases hsame : other = group
    · rw [hsame, hnew]
    · have hne : ∀ {f : Edge}, f.group = some group → f.group ≠ some other := fun hf heq =>
        hsame (Option.some.inj (heq.symm.trans hf))
      rw [groupSize_addEdge hwell' hv, groupSize_addEdge hwell hu, groupSize_addNode hs ht, if_neg (hne hfirst.2),
        if_neg (hne hsecond.2)]
      rcases hlinks e he with he | rfl | rfl
      · exact h.paired e he other hother
      · exact absurd hother (hne hfirst.2)
      · exact absurd hother (hne hsecond.2)

end Accepted

/-! ## What an accepted result says -/

namespace Connectable

/-- The ends of an edge are connectable if the store with the edge is sound. -/
theorem of_addEdge (ht : s.addEdge e = .ok t) (h : t.Sound) : s.Connectable e.source e.target := by
  obtain ⟨hsource, htarget, -⟩ := addEdge_eq_ok ht
  have hmem : e ∈ t.links := (mem_links_addEdge ht).mpr (Or.inr rfl)
  have hout : t.outgoing e.source = s.outgoing e.source ++ [e] := by rw [outgoing_addEdge ht hsource, if_pos rfl]
  have hnode : ∀ {kind}, s.kind? e.source = some kind → ∃ n ∈ t.nodes, n.id = e.source ∧ n.kind = kind := by
    intro kind hkind
    obtain ⟨n, hn, hnkind⟩ := kind?_eq_some_iff.mp hkind
    obtain ⟨hmem, hid⟩ := mem_of_node? hn
    exact ⟨n, nodes_addEdge ht ▸ hmem, hid, hnkind⟩
  refine ⟨hsource, htarget, h.acyclic.ne_of_arc (arc_of_link hmem), h.target_ne_start hmem, h.source_ne_finish hmem,
    fun hback => ?_, fun hkind => ?_, fun hkind => ?_⟩
  · refine h.acyclic e.source (.step (arc_of_link hmem) (hback.mono fun a ha => ?_))
    obtain ⟨f, hf, rfl⟩ := mem_arcs_graph.mp ha
    exact arc_of_link ((mem_links_addEdge ht).mpr (Or.inl hf))
  · obtain ⟨kind, hfound⟩ := exists_kind? hsource
    obtain ⟨n, hn, hid, hnkind⟩ := hnode hfound
    have hle := h.single n hn fun heq => hkind (by rw [hfound, ← hnkind, heq])
    rw [hid, hout, List.length_append, List.length_singleton] at hle
    exact List.eq_nil_of_length_eq_zero (by omega)
  · obtain ⟨n, hn, hid, hnkind⟩ := hnode hkind
    have hle := (h.branching n hn hnkind).1
    rw [hid, hout, List.length_append, List.length_singleton] at hle
    omega

/-- The ends of a branch are connectable if the store with the branch is sound. -/
theorem of_addBranch (hpath : s.kind? source = some .path) (hfirst : first.ends = (source, guard.id))
    (hsecond : second.ends = (guard.id, target)) (ht : s.addNode guard = .ok t) (hu : t.addEdge first = .ok u)
    (hv : u.addEdge second = .ok v) (h : v.Sound) : s.Connectable source target := by
  obtain ⟨rfl, hfirstTarget⟩ := Prod.mk.inj hfirst
  obtain ⟨hsecondSource, rfl⟩ := Prod.mk.inj hsecond
  have hsource := mem_ids_of_kind? hpath
  have honward := of_addEdge hv h
  have hmem : first ∈ v.links := (mem_links_addEdge hv).mpr (Or.inl ((mem_links_addEdge hu).mpr (Or.inr rfl)))
  -- In the result the Path leads to the target, by way of the guard.
  have hreach : v.graph.Reaches first.source second.target := by
    have hlast : second ∈ v.links := (mem_links_addEdge hv).mpr (Or.inr rfl)
    refine .step (arc_of_link hmem) (.arc ?_)
    rw [hfirstTarget, ← hsecondSource]
    exact arc_of_link hlast
  have htarget : second.target ∈ s.ids := by
    have hin := honward.target_mem
    rw [ids_addEdge hu, mem_ids_addNode ht, ← hsecondSource] at hin
    exact hin.resolve_right honward.source_ne_target.symm
  have hout : v.outgoing first.source = s.outgoing first.source ++ [first] := by
    have hne : second.source ≠ first.source := fun heq =>
      (addNode_eq_ok ht).1 (by rw [← hsecondSource, heq]; exact hsource)
    have hin : first.source ∈ t.ids := (mem_ids_addNode ht).mpr (Or.inl hsource)
    rw [outgoing_addEdge hv (ids_addEdge hu ▸ hin), outgoing_addEdge hu hin, outgoing_addNode ht hsource, if_pos rfl,
      if_neg hne, List.append_nil]
  refine ⟨hsource, htarget, ?_, honward.target_ne_start, h.source_ne_finish hmem, fun hback => ?_,
    fun hkind => absurd hpath hkind, fun _ => ?_⟩
  · intro heq
    exact h.acyclic first.source (heq ▸ hreach)
  · refine h.acyclic first.source (hreach.trans (hback.mono fun a ha => ?_))
    obtain ⟨f, hf, rfl⟩ := mem_arcs_graph.mp ha
    refine arc_of_link ((mem_links_addEdge hv).mpr (Or.inl ((mem_links_addEdge hu).mpr (Or.inl ?_))))
    exact (links_addNode ht).symm ▸ hf
  · have hkind : v.kind? first.source = some .path := by
      rw [kind?_addEdge hv, kind?_addEdge hu, kind?_addNode ht hsource, hpath]
    obtain ⟨n, hn, hnkind⟩ := kind?_eq_some_iff.mp hkind
    obtain ⟨hnmem, hid⟩ := mem_of_node? hn
    have hle := (h.branching n hnmem hnkind).1
    rw [hid, hout, List.length_append, List.length_singleton] at hle
    omega

end Connectable

/-! ## What the rules reject -/

/-- A branch of the Path ends at the target. -/
def LeadsTo (s : Store) (path target : String) : Prop :=
  ∃ first ∈ s.links, ∃ second ∈ s.links, first.source = path ∧ first.target = second.source ∧
    first.group ≠ none ∧ second.group = first.group ∧ second.target = target

/-- Where guards go on with one edge, the branches of a Path that are found are all that there are. -/
theorem Accepted.leadsTo_iff (h : s.Accepted) (hs : s.WellFormed) (hpath : s.kind? source = some .path) :
    s.LeadsTo source target ↔ ((s.pathBranches source).any fun (_, second) => second.target == target) = true := by
  have hsource := mem_ids_of_kind? hpath
  simp only [List.any_eq_true, beq_iff_eq, Prod.exists, pathBranches, List.mem_filterMap]
  constructor
  · rintro ⟨first, hfirst, second, hsecond, rfl, hguard, hgrouped, hgroup, htarget⟩
    obtain ⟨group, hfirstGroup⟩ := Option.ne_none_iff_exists'.mp hgrouped
    obtain ⟨onward, hguarded⟩ := h.guarded first hfirst hpath
    have hout : second ∈ s.outgoing first.target :=
      (mem_outgoing (hs.ends_mem first hfirst).2).mpr ⟨hsecond, hguard.symm⟩
    rw [hguarded.outgoing_guard, List.mem_singleton] at hout
    subst hout
    refine ⟨first, second, ⟨first, (mem_outgoing hsource).mpr ⟨hfirst, rfl⟩, ?_⟩, htarget⟩
    simp [hfirstGroup, hguarded.outgoing_guard, hgroup.trans hfirstGroup]
  · rintro ⟨_, _, ⟨e, he, hbranch⟩, htarget⟩
    obtain ⟨hmem, hesource⟩ := (mem_outgoing hsource).mp he
    split at hbranch
    · cases hbranch
    · next group hgroup =>
      obtain ⟨found, hfind, heq⟩ := Option.map_eq_some_iff.mp hbranch
      obtain ⟨rfl, rfl⟩ := Prod.mk.inj heq
      have hout := List.mem_of_find?_eq_some hfind
      obtain ⟨hlast, hlastSource⟩ := (mem_outgoing (hs.ends_mem e hmem).2).mp hout
      have hsame : found.group = some group := by simpa using List.find?_some hfind
      have hgrouped : e.group ≠ none := hgroup ▸ Option.some_ne_none group
      exact ⟨e, hmem, found, hlast, hesource, hlastSource.symm, hgrouped, hsame.trans hgroup.symm, htarget⟩

/-- The rules reject what is not connectable, and a second branch of a Path to the same target. -/
theorem Accepted.rejection?_eq_none_iff (h : s.Accepted) (hs : s.WellFormed) :
    s.rejection? source target = none ↔
      s.Connectable source target ∧ (s.kind? source = some .path → ¬ s.LeadsTo source target) := by
  constructor
  · intro hnone
    refine ⟨.of_rejection? hs hnone, fun hpath hleads => ?_⟩
    have hany := (h.leadsTo_iff hs hpath).mp hleads
    simp only [rejection?, ite_some_eq_none_iff, if_neg (not_not_intro hpath), hany] at hnone
    exact hnone.2.2.2.2.2.2.1 trivial
  · rintro ⟨hc, hnew⟩
    have hcycle : ¬ s.graph.wouldClose source target = true := by
      rw [Digraph.wouldClose_eq_true_iff (hs.nodes_graph ▸ hc.source_mem) (hs.nodes_graph ▸ hc.target_mem)]
      rintro (heq | hback)
      · exact hc.source_ne_target heq
      · exact hc.no_way_back hback
    simp only [rejection?, ite_some_eq_none_iff, Bool.not_eq_true', Bool.not_eq_false, hasNode_eq_true_iff]
    refine ⟨hc.source_mem, hc.target_mem, hc.source_ne_target, hc.target_ne_start, hc.source_ne_finish, hcycle, ?_⟩
    by_cases hpath : s.kind? source = some .path
    · rw [if_neg (not_not_intro hpath), ite_some_eq_none_iff, ite_some_eq_none_iff]
      exact ⟨fun hany => hnew hpath ((h.leadsTo_iff hs hpath).mpr hany), Nat.not_le.mpr (hc.branching hpath), rfl⟩
    · rw [if_pos hpath, hc.single hpath]
      rfl

/-- What no rule forbids is planned, if the tokens suffice for an id and a group. -/
theorem exists_planConnection {tokens : TokenSupply} (htokens : tokens.Distinct (s.ids.length + s.groups.length + 2))
    (hrejection : s.rejection? source target = none) (hsource : source ∈ s.ids) (htarget : target ∈ s.ids) :
    ∃ plan rest, s.planConnection source target tokens = .ok (plan, rest) := by
  obtain ⟨path, hpath⟩ := exists_node? hsource
  obtain ⟨goal, hgoal⟩ := exists_node? htarget
  simp only [planConnection, hrejection, hpath, hgoal]
  by_cases hkind : path.kind = .path
  · rw [if_pos hkind]
    have hinjective : ∀ front : String, Function.Injective fun token => front ++ token := by
      intro front a b hab
      exact String.append_right_inj front |>.mp hab
    have henough : tokens.Distinct (s.ids.length + 1 + (s.groups.length + 1)) := htokens.mono (by omega)
    obtain ⟨guardId, later, hguard, hlater⟩ := henough.exists_freshName s.ids
      (hinjective (path.id ++ "_cond_" ++ toString ((s.pathBranches path.id).length + 1) ++ "_"))
    obtain ⟨group, rest, hgroup, -⟩ :=
      (show later.Distinct (s.groups.length + 1 + 0) from hlater).exists_freshName s.groups (hinjective "branch_")
    simp only [planBranch, hguard, hgroup, Option.bind_eq_bind, Option.bind_some, Option.pure_def]
    exact ⟨_, _, rfl⟩
  · rw [if_neg hkind]
    exact ⟨_, _, rfl⟩

/-! ## What can be added -/

theorem between?_eq_none_of (h : ∀ e ∈ s.links, e.source = source → e.target ≠ target) :
    s.between? source target = none := by
  refine List.find?_eq_none.mpr ?_
  intro e he hends
  rw [Bool.and_eq_true, beq_iff_eq, beq_iff_eq] at hends
  exact h e he hends.1 hends.2

theorem hasEdge_addEdge (ht : s.addEdge e = .ok t) (id : String) : t.hasEdge id = (s.hasEdge id || id == e.id) := by
  obtain ⟨-, -, -, -, rfl⟩ := addEdge_eq_ok ht
  rw [hasEdge, hasEdge, List.lookup_append, Option.isSome_or, List.lookup_cons]
  cases id == e.id <;> rfl

/-- A new guard can be added to a node, with an edge to it under a new id. -/
theorem exists_open (hs : s.WellFormed) (hguard : guard.id ∉ s.ids) (hsource : source ∈ s.ids)
    (hfirst : s.hasEdge (Edge.idFor source guard.id) = false) (group : String) :
    ∃ t u, s.addNode guard = .ok t ∧
      t.addEdge ⟨Edge.idFor source guard.id, source, guard.id, some group⟩ = .ok u := by
  have ht := addNode_of_new (Bool.eq_false_iff.mpr fun hnode => hguard (hasNode_eq_true_iff.mp hnode))
  have hsource' := (mem_ids_addNode ht).mpr (Or.inl hsource)
  have hguard' := (mem_ids_addNode ht).mpr (Or.inr rfl)
  refine ⟨_, _, ht, addEdge_of_new (hasNode_eq_true_iff.mpr hsource') (hasNode_eq_true_iff.mpr hguard') hfirst
    (between?_eq_none_of ?_)⟩
  intro e he _
  exact (not_touching_addNode hs ht he).2

/-- A guard and a group that are new to the store, and the edges of their branch under new ids. -/
structure FreshBranch (s : Store) (source target : String) (guard : Node) (group : String) : Prop where
  guard_kind : guard.kind = .condition
  guard_new : guard.id ∉ s.ids
  group_new : group ∉ s.groups
  first_new : s.hasEdge (Edge.idFor source guard.id) = false
  second_new : s.hasEdge (Edge.idFor guard.id target) = false
  ids_ne : Edge.idFor source guard.id ≠ Edge.idFor guard.id target

namespace FreshBranch

theorem of_alike (h : s.FreshBranch source target guard group) (hs : s.WellFormed) (ht : Alike t s) :
    t.FreshBranch source target guard group := by
  have hedge : ∀ id, t.hasEdge id = s.hasEdge id := fun id => by rw [hasEdge, ht.index, hasEdge]
  refine ⟨h.guard_kind, ht.ids_eq ▸ h.guard_new, fun hgroup => h.group_new ?_, (hedge _).trans h.first_new,
    (hedge _).trans h.second_new, h.ids_ne⟩
  obtain ⟨e, he, hegroup⟩ := (mem_groups ((ht.part hs).wellFormed hs)).mp hgroup
  exact (mem_groups hs).mpr ⟨e, ht.mem_links.mp he, hegroup⟩

/-- A fresh branch can be added between any two nodes. -/
theorem exists_apply (h : s.FreshBranch source target guard group) (hs : s.WellFormed) (hsource : source ∈ s.ids)
    (htarget : target ∈ s.ids) :
    ∃ t u v, s.addNode guard = .ok t ∧
      t.addEdge ⟨Edge.idFor source guard.id, source, guard.id, some group⟩ = .ok u ∧
      u.addEdge ⟨Edge.idFor guard.id target, guard.id, target, some group⟩ = .ok v := by
  obtain ⟨t, u, ht, hu⟩ := exists_open hs h.guard_new hsource h.first_new group
  have hids : ∀ {id}, id ∈ s.ids → t.hasNode id = true := fun hid =>
    hasNode_eq_true_iff.mpr ((mem_ids_addNode ht).mpr (Or.inl hid))
  have hguard : t.hasNode guard.id = true := hasNode_eq_true_iff.mpr ((mem_ids_addNode ht).mpr (Or.inr rfl))
  have hedge : ∀ id, t.hasEdge id = s.hasEdge id := fun id => by
    obtain ⟨-, rfl⟩ := addNode_eq_ok ht
    rfl
  have hne : source ≠ guard.id := fun heq => h.guard_new (heq ▸ hsource)
  have hnodes : ∀ {id}, t.hasNode id = true → u.hasNode id = true := fun hnode => by
    rw [hasNode, ids_addEdge hu]
    exact hnode
  refine ⟨t, u, _, ht, hu, addEdge_of_new (hnodes hguard) (hnodes (hids htarget)) ?_ (between?_eq_none_of ?_)⟩
  · rw [hasEdge_addEdge hu, hedge, h.second_new, Bool.false_or]
    exact beq_eq_false_iff_ne.mpr h.ids_ne.symm
  · intro e he heq
    rcases (mem_links_addEdge hu).mp he with he | rfl
    · exact absurd heq (not_touching_addNode hs ht he).1
    · exact absurd heq hne

end FreshBranch

/-- The edges that a branch is planned with have two ids: after the id of the Path they go on differently. -/
theorem idFor_ne_of_planned {suffix : String} (hguard : guard.id = source ++ "_cond_" ++ suffix) :
    Edge.idFor source guard.id ≠ Edge.idFor guard.id target := by
  intro heq
  rw [Edge.idFor, Edge.idFor, hguard] at heq
  simp only [String.append_assoc] at heq
  have htail := String.append_right_inj _ |>.mp (String.append_right_inj _ |>.mp heq)
  have hchars := congrArg String.toList htail
  simp only [String.toList_append] at hchars
  exact absurd (List.cons.inj hchars).1 (by decide)

/-! ## The rules and the check -/

/-- The rules allow a connection: there is a plan for it. -/
def Plans (s : Store) (source target : String) (tokens : TokenSupply) : Prop :=
  ∃ plan rest, s.planConnection source target tokens = .ok (plan, rest)

namespace Accepted

variable {tokens : TokenSupply}

/-- An edge of its own between connectable nodes can be added to a copy, which is accepted. -/
theorem exists_addPlain (h : s.Accepted) (hs : s.WellFormed) (hc : s.Connectable source target)
    (hkind : s.kind? source ≠ some .path) (hnew : s.hasEdge (Edge.idFor source target) = false) :
    ∃ t, s.copy.addEdge (.plain source target) = .ok t ∧ t.checkStructure = .ok () := by
  have hcopy := hs.alike_copy
  have hwell := (hcopy.part hs).wellFormed hs
  have hc' := hc.of_alike hs hcopy
  have hkind' : s.copy.kind? source ≠ some .path := hcopy.kind?_eq source ▸ hkind
  obtain ⟨t, ht⟩ : ∃ t, s.copy.addEdge (.plain source target) = .ok t := by
    refine ⟨_, addEdge_of_new (hasNode_eq_true_iff.mpr hc'.source_mem) (hasNode_eq_true_iff.mpr hc'.target_mem) hnew
      (between?_eq_none_of ?_)⟩
    intro e he heq
    have hout := (mem_outgoing hc'.source_mem).mpr ⟨he, heq⟩
    rw [hc'.single hkind'] at hout
    cases hout
  refine ⟨t, ht, (hwell.addEdge ht).checkStructure_eq_ok_iff_accepted.mpr ?_⟩
  exact (h.of_alike hs hcopy).addPlain hwell hc' hkind' ht

/-- A fresh branch between connectable nodes can be added to a copy, which is accepted. -/
theorem exists_addBranch (h : s.Accepted) (hs : s.WellFormed) (hc : s.Connectable source target)
    (hpath : s.kind? source = some .path) (hfresh : s.FreshBranch source target guard group) :
    ∃ t, (branchPlan source target guard group).apply s.copy = .ok t ∧ t.checkStructure = .ok () := by
  have hcopy := hs.alike_copy
  have hwell := (hcopy.part hs).wellFormed hs
  have hc' := hc.of_alike hs hcopy
  have hpath' : s.copy.kind? source = some .path := (hcopy.kind?_eq source).trans hpath
  have hfresh' := hfresh.of_alike hs hcopy
  obtain ⟨t, u, v, ht, hu, hv⟩ := hfresh'.exists_apply hwell hc'.source_mem hc'.target_mem
  refine ⟨v, apply_branch_of_ok ht hu hv, ?_⟩
  refine (((hwell.addNode ht).addEdge hu).addEdge hv).checkStructure_eq_ok_iff_accepted.mpr ?_
  exact (h.of_alike hs hcopy).addBranch hwell hc' hpath' hfresh'.guard_kind hfresh'.group_new ⟨rfl, rfl⟩ ⟨rfl, rfl⟩ ht
    hu hv

/-- **An edge of its own is planned exactly if the store with it is accepted.** -/
theorem plans_plain_iff (h : s.Accepted) (hs : s.WellFormed)
    (htokens : tokens.Distinct (s.ids.length + s.groups.length + 2)) (hsource : source ∈ s.ids)
    (hkind : s.kind? source ≠ some .path) (hnew : s.hasEdge (Edge.idFor source target) = false) :
    s.Plans source target tokens ↔
      ∃ t, s.copy.addEdge (.plain source target) = .ok t ∧ t.checkStructure = .ok () := by
  have hcopy := hs.alike_copy
  constructor
  · rintro ⟨plan, rest, hplan⟩
    obtain ⟨hc, -⟩ := (h.rejection?_eq_none_iff hs).mp (planConnection_cases hplan).1
    exact h.exists_addPlain hs hc hkind hnew
  · rintro ⟨t, ht, hcheck⟩
    have hsound := (checkStructure_eq_ok_iff.mp hcheck).1
    have hc := (Connectable.of_addEdge ht hsound).of_alike ((hcopy.part hs).wellFormed hs) hcopy.symm
    have hnone := (h.rejection?_eq_none_iff hs).mpr ⟨hc, fun hpath => absurd hpath hkind⟩
    exact exists_planConnection htokens hnone hsource hc.target_mem

/-- **A branch is planned exactly if none leads to the target yet and the store with a fresh one is accepted.** -/
theorem plans_branch_iff (h : s.Accepted) (hs : s.WellFormed)
    (htokens : tokens.Distinct (s.ids.length + s.groups.length + 2)) (hpath : s.kind? source = some .path)
    (hfresh : s.FreshBranch source target guard group) :
    s.Plans source target tokens ↔
      ¬ s.LeadsTo source target ∧
        ∃ t, (branchPlan source target guard group).apply s.copy = .ok t ∧ t.checkStructure = .ok () := by
  have hcopy := hs.alike_copy
  constructor
  · rintro ⟨plan, rest, hplan⟩
    obtain ⟨hc, hleads⟩ := (h.rejection?_eq_none_iff hs).mp (planConnection_cases hplan).1
    exact ⟨hleads hpath, h.exists_addBranch hs hc hpath hfresh⟩
  · rintro ⟨hleads, t, ht, hcheck⟩
    obtain ⟨u, v, hnode, hfirst, hsecond⟩ := apply_branch ht
    have hsound := (checkStructure_eq_ok_iff.mp hcheck).1
    have hpath' : s.copy.kind? source = some .path := (hcopy.kind?_eq source).trans hpath
    have hc := (Connectable.of_addBranch hpath' rfl rfl hnode hfirst hsecond hsound).of_alike
      ((hcopy.part hs).wellFormed hs) hcopy.symm
    have hnone := (h.rejection?_eq_none_iff hs).mpr ⟨hc, fun _ => hleads⟩
    exact exists_planConnection htokens hnone hc.source_mem hc.target_mem

/-- **What is planned under new ids can be added to a copy, which is accepted.** -/
theorem exists_apply_plan (h : s.Accepted) (hs : s.WellFormed) {plan : ConnectionPlan} {rest : TokenSupply}
    (hplan : s.planConnection source target tokens = .ok (plan, rest))
    (hnew : ∀ e ∈ plan.edges, s.hasEdge e.id = false) :
    ∃ t, plan.apply s.copy = .ok t ∧ t.checkStructure = .ok () := by
  obtain ⟨hrejection, hcases⟩ := planConnection_cases hplan
  have hc := Connectable.of_rejection? hs hrejection
  rcases hcases with ⟨hkind, rfl⟩ | ⟨hpath, path, goal, rfl, rfl, hbranch⟩
  · obtain ⟨t, ht, hcheck⟩ := h.exists_addPlain hs hc hkind (hnew _ (List.mem_singleton_self _))
    exact ⟨t, apply_plain_of_ok ht, hcheck⟩
  · obtain ⟨guard, group, suffix, hguard, hname, hid, hgroup, -, rfl⟩ := planBranch_eq_some hbranch
    have hfresh : s.FreshBranch path.id goal.id guard group := ⟨hguard, hid, hgroup, hnew _ List.mem_cons_self,
      hnew _ (List.mem_cons_of_mem _ (List.mem_singleton_self _)), idFor_ne_of_planned hname⟩
    exact h.exists_addBranch hs hc hpath hfresh

end Accepted

/-- **The rules for a connection agree with the check of the whole graph.** In every store that can be built and that
the check accepts, an edge of its own is planned exactly if the store with it is accepted, a branch exactly if none
leads to the target yet and the store with a fresh one is accepted, and every plan gives a store that is accepted. -/
theorem Built.plans_iff_accepted (hs : s.Built) (hcheck : s.checkStructure = .ok ()) (source target : String)
    {tokens : TokenSupply} (htokens : tokens.Distinct (s.ids.length + s.groups.length + 2)) :
    (source ∈ s.ids → s.kind? source ≠ some .path → s.hasEdge (Edge.idFor source target) = false →
      (s.Plans source target tokens ↔
        ∃ t, s.copy.addEdge (.plain source target) = .ok t ∧ t.checkStructure = .ok ())) ∧
    (s.kind? source = some .path → ∀ guard group, s.FreshBranch source target guard group →
      (s.Plans source target tokens ↔
        ¬ s.LeadsTo source target ∧
          ∃ t, (branchPlan source target guard group).apply s.copy = .ok t ∧ t.checkStructure = .ok ())) ∧
    ∀ plan rest, s.planConnection source target tokens = .ok (plan, rest) →
      (∀ e ∈ plan.edges, s.hasEdge e.id = false) →
      ∃ t, plan.apply s.copy = .ok t ∧ t.checkStructure = .ok () := by
  have h := hs.wellFormed.checkStructure_eq_ok_iff_accepted.mp hcheck
  refine ⟨fun hsource hkind hnew => ?_, fun hpath guard group hfresh => ?_, fun plan rest hplan hnew => ?_⟩
  · exact h.plans_plain_iff hs.wellFormed htokens hsource hkind hnew
  · exact h.plans_branch_iff hs.wellFormed htokens hpath hfresh
  · exact h.exists_apply_plan hs.wellFormed hplan hnew

/-- A Path with a branch to a Find, which no edge leaves. -/
def withBranch (p : Point) : Store where
  nodes := [
    .unplaced startId (.default .start) p,
    .unplaced finishId (.default .finish) p,
    .unplaced "path_1" (.default .path) p,
    .unplaced "find_1" (.default .find) p,
    .unplaced "cond_1" (.default .condition) p]
  links := [
    .plain startId "path_1",
    ⟨"e1", "path_1", "cond_1", some "branch_1"⟩,
    ⟨"e2", "cond_1", "find_1", some "branch_1"⟩]
  index := [("estart-path_1", startId, "path_1"), ("e1", "path_1", "cond_1"), ("e2", "cond_1", "find_1")]

theorem built_withBranch (p : Point) : (withBranch p).Built := by
  have hnodes : (withBranch p).nodes.foldlM Store.addNode .empty =
      .ok { withBranch p with links := [], index := [] } := by
    cbv
  have hedges : (withBranch p).links.foldlM Store.addEdge { withBranch p with links := [], index := [] } =
      .ok (withBranch p) := by
    cbv
  exact .of_lists hnodes hedges

theorem checkStructure_withBranch (p : Point) : (withBranch p).checkStructure = .ok () := by
  cbv

/-- A second Condition for the Path, and a group for its branch. -/
theorem freshBranch_withBranch :
    (withBranch .origin).FreshBranch "path_1" finishId (.unplaced "cond_2" (.default .condition) .origin) "branch_2" :=
  ⟨rfl, by decide, by decide, by decide, by decide, by decide⟩

theorem exists_addEdge_withBranch (p : Point) :
    ∃ t, (withBranch p).copy.addEdge (.plain "find_1" finishId) = .ok t ∧ t.checkStructure = .ok () := by
  refine ⟨⟨(withBranch p).nodes, (withBranch p).links ++ [.plain "find_1" finishId],
    (withBranch p).index ++ [("efind_1-end", "find_1", finishId)]⟩, ?_, ?_⟩ <;> cbv

/-- The Find may be connected to the end, and what is planned for it is accepted. The Path may get a second branch
there exactly if the store with that branch is accepted. -/
theorem plans_withBranch :
    (withBranch .origin).Built ∧ (withBranch .origin).checkStructure = .ok () ∧
      (∃ plan rest, (withBranch .origin).planConnection "find_1" finishId (.ofList []) = .ok (plan, rest) ∧
        ∃ t, plan.apply (withBranch .origin).copy = .ok t ∧ t.checkStructure = .ok ()) ∧
      ((withBranch .origin).Plans "path_1" finishId (.ofList []) ↔
        ¬ (withBranch .origin).LeadsTo "path_1" finishId ∧
          ∃ t, (branchPlan "path_1" finishId (.unplaced "cond_2" (.default .condition) .origin) "branch_2").apply
            (withBranch .origin).copy = .ok t ∧ t.checkStructure = .ok ()) := by
  have hbuilt := built_withBranch .origin
  have hcheck := checkStructure_withBranch .origin
  have htokens := TokenSupply.distinct_numbered
    ((withBranch .origin).ids.length + (withBranch .origin).groups.length + 2)
  obtain ⟨hplain, -, hplanned⟩ := Built.plans_iff_accepted hbuilt hcheck "find_1" finishId htokens
  obtain ⟨-, hbranch, -⟩ := Built.plans_iff_accepted hbuilt hcheck "path_1" finishId htokens
  refine ⟨hbuilt, hcheck, ?_, hbranch (by decide) _ _ freshBranch_withBranch⟩
  obtain ⟨plan, rest, hplan⟩ :=
    (hplain (by decide) (by decide) (by decide)).mpr (exists_addEdge_withBranch .origin)
  refine ⟨plan, rest, hplan, hplanned plan rest hplan ?_⟩
  rcases (planConnection_cases hplan).2 with ⟨-, rfl⟩ | ⟨hpath, -⟩
  · decide
  · exact absurd hpath (by decide)

end FormFlow.Store
