import FormFlow.Graph.Structure
import FormFlow.Proofs.Cycle
import FormFlow.Proofs.Operations
import FormFlow.Proofs.Orders
/-!
The rules of a workflow's graph, as propositions.

`Sound` holds the rules that speak of single nodes and of the graph as a whole; `GuardedBy` says what a branch looks
like from its first edge. The check accepts a store exactly if both hold and every group has two edges
(`checkStructure_eq_ok_iff`). The graph of a sound store is bounded by the sentinels (`WellFormed.bounded`), which is
all that placing its nodes takes.
-/

set_option autoImplicit false

namespace FormFlow.Store

/-- The sentinels are there and nothing else is of their kinds, nothing enters the start or leaves the end, there is
no cycle, a node has one edge out at most, and a Path two at most, all of which belong to branches. -/
structure Sound (s : Store) : Prop where
  start_kind : s.kind? startId = some .start
  finish_kind : s.kind? finishId = some .finish
  ordinary : ∀ n ∈ s.nodes, n.kind.isSentinel = true → n.id = startId ∨ n.id = finishId
  start_root : s.incoming startId = []
  finish_leaf : s.outgoing finishId = []
  acyclic : s.graph.Acyclic
  single : ∀ n ∈ s.nodes, n.kind ≠ .path → (s.outgoing n.id).length ≤ 1
  branching : ∀ n ∈ s.nodes, n.kind = .path →
    (s.outgoing n.id).length ≤ 2 ∧ ∀ e ∈ s.outgoing n.id, e.group ≠ none

/-- The edge leads to a Condition that goes on with one edge, of the same group, and no third edge is of that group. -/
def GuardedBy (s : Store) (first second : Edge) : Prop :=
  ∃ group, first.group = some group ∧ second.group = some group ∧ s.kind? first.target = some .condition ∧
    s.outgoing first.target = [second] ∧ s.groupSize group = 2

variable {s t : Store}

theorem refuseIf_eq_ok_iff {bad : Bool} {fault : StructureFault} : refuseIf bad fault = .ok () ↔ bad = false := by
  unfold refuseIf
  cases bad <;> simp

theorem checkSentinel_eq_ok_iff {id : String} {kind : Kind} :
    s.checkSentinel id kind = .ok () ↔ s.kind? id = some kind := by
  unfold checkSentinel kind?
  cases s.node? id with
  | none => simp
  | some n => simp [refuseIf_eq_ok_iff]

theorem checkOrdinary_eq_ok_iff {n : Node} :
    checkOrdinary n = .ok () ↔ (n.kind.isSentinel = true → n.id = startId ∨ n.id = finishId) := by
  rw [checkOrdinary, refuseIf_eq_ok_iff]
  cases n.kind.isSentinel <;> simp [or_iff_not_imp_left]

/-- The way on from a guard is a single edge of the group. -/
theorem isBroken_eq_false_iff {onward : List Edge} {group : String} :
    (onward.length ≠ 1 || onward.any fun e => e.group ≠ some group) = false ↔
      ∃ second, onward = [second] ∧ second.group = some group := by
  rw [Bool.or_eq_false_iff, decide_eq_false_iff_not, Decidable.not_not, List.length_eq_one_iff]
  constructor
  · rintro ⟨⟨second, rfl⟩, hany⟩
    exact ⟨second, rfl, by simpa using hany⟩
  · rintro ⟨second, rfl, hgroup⟩
    exact ⟨⟨second, rfl⟩, by simpa using hgroup⟩

theorem checkBranch_eq_ok_iff {path : Node} {first : Edge} :
    s.checkBranch path first = .ok () ↔ ∃ second, s.GuardedBy first second := by
  unfold checkBranch GuardedBy
  cases hgroup : first.group with
  | none => simp [throw, throwThe, MonadExceptOf.throw]
  | some group =>
    cases hguard : s.node? first.target with
    | none => simp [kind?, node, hguard, bind, Except.bind]
    | some guard =>
      obtain ⟨-, hid⟩ := mem_of_node? hguard
      simp only [node, hguard, kind?, Option.map_some, Option.some.injEq]
      show (refuseIf _ _ >>= fun _ => refuseIf _ _ >>= fun _ => refuseIf _ _) = .ok () ↔ _
      rw [Table.bind_eq_ok_iff, Table.bind_eq_ok_iff, refuseIf_eq_ok_iff, refuseIf_eq_ok_iff, refuseIf_eq_ok_iff,
        isBroken_eq_false_iff, hid, decide_eq_false_iff_not, decide_eq_false_iff_not, Decidable.not_not,
        Decidable.not_not]
      constructor
      · rintro ⟨hkind, ⟨second, honward, hsecond⟩, hsize⟩
        exact ⟨second, group, rfl, hsecond, hkind, honward, hsize⟩
      · rintro ⟨second, _, rfl, hsecond, hkind, honward, hsize⟩
        exact ⟨hkind, ⟨second, honward, hsecond⟩, hsize⟩

theorem checkOutgoing_eq_ok_iff {n : Node} :
    s.checkOutgoing n = .ok () ↔
      (n.kind ≠ .path → (s.outgoing n.id).length ≤ 1) ∧
      (n.kind = .path → (s.outgoing n.id).length ≤ 2 ∧
        ∀ first ∈ s.outgoing n.id, ∃ second, s.GuardedBy first second) := by
  unfold checkOutgoing
  by_cases hk : n.kind = .path
  · simp only [hk, ne_eq, not_true_eq_false, ↓reduceIte, false_implies, true_and, true_implies]
    rw [Table.bind_eq_ok_iff, refuseIf_eq_ok_iff, Table.forM_eq_ok_iff, decide_eq_false_iff_not, gt_iff_lt, Nat.not_lt]
    simp only [checkBranch_eq_ok_iff, branchLimit]
  · simp only [hk, ne_eq, not_false_eq_true, ↓reduceIte, true_implies, false_implies, and_true, refuseIf_eq_ok_iff,
      decide_eq_false_iff_not, Nat.not_lt]

/-- **The check accepts exactly the graphs that keep the rules.** -/
theorem checkStructure_eq_ok_iff :
    s.checkStructure = .ok () ↔
      s.Sound ∧
      (∀ n ∈ s.nodes, n.kind = .path → ∀ first ∈ s.outgoing n.id, ∃ second, s.GuardedBy first second) ∧
      ∀ group ∈ s.groups, s.groupSize group = 2 := by
  unfold checkStructure
  cases hcycle : s.graph.findCycle with
  | some ids =>
    have hno : ¬ s.Sound := fun h => by simpa [hcycle] using Digraph.findCycle_eq_none_iff.mpr h.acyclic
    simp only [hno, false_and, iff_false, Table.bind_eq_ok_iff, not_and]
    intro _ _ _ _ _ h
    cases h
  | none =>
    simp only [Table.bind_eq_ok_iff, Table.forM_eq_ok_iff, checkSentinel_eq_ok_iff, checkOrdinary_eq_ok_iff,
      checkOutgoing_eq_ok_iff, refuseIf_eq_ok_iff, List.mem_eraseDups, Bool.not_eq_false', List.isEmpty_iff,
      decide_eq_false_iff_not, ne_eq, Decidable.not_not]
    constructor
    · rintro ⟨hstart, hfinish, hordinary, hroot, hleaf, hout, hgroups⟩
      refine ⟨⟨hstart, hfinish, hordinary, hroot, hleaf, Digraph.findCycle_eq_none_iff.mp hcycle,
        fun n hn => (hout n hn).1, fun n hn hk => ?_⟩, fun n hn hk => ((hout n hn).2 hk).2, hgroups⟩
      refine ⟨((hout n hn).2 hk).1, fun e he => ?_⟩
      obtain ⟨second, group, hgroup, -⟩ := ((hout n hn).2 hk).2 e he
      simp [hgroup]
    · rintro ⟨h, hguards, hgroups⟩
      exact ⟨h.start_kind, h.finish_kind, h.ordinary, h.start_root, h.finish_leaf,
        fun n hn => ⟨h.single n hn, fun hk => ⟨(h.branching n hn hk).1, hguards n hn hk⟩⟩, hgroups⟩

/-! ## Sound stores -/

namespace Sound

theorem start_mem (h : s.Sound) : startId ∈ s.ids := mem_ids_of_kind? h.start_kind

theorem finish_mem (h : s.Sound) : finishId ∈ s.ids := mem_ids_of_kind? h.finish_kind

theorem start_ne_finish : startId ≠ finishId := by decide

theorem target_ne_start (h : s.Sound) {e : Edge} (he : e ∈ s.links) : e.target ≠ startId := fun ht => by
  have hin := (mem_incoming h.start_mem).mpr ⟨he, ht⟩
  rw [h.start_root] at hin
  cases hin

theorem source_ne_finish (h : s.Sound) {e : Edge} (he : e ∈ s.links) : e.source ≠ finishId := fun hs => by
  have hout := (mem_outgoing h.finish_mem).mpr ⟨he, hs⟩
  rw [h.finish_leaf] at hout
  cases hout

end Sound

/-- A part of a sound store that keeps the sentinels is sound. -/
theorem Part.sound (h : Part t s) (hs : s.WellFormed) (hsound : s.Sound) (hstart : startId ∈ t.ids)
    (hfinish : finishId ∈ t.ids) : t.Sound := by
  have ht := h.wellFormed hs
  have hnode : ∀ n ∈ t.nodes, ∃ m ∈ s.nodes, m.id = n.id ∧ m.kind = n.kind := by
    intro n hn
    obtain ⟨m, hm, hkind⟩ := kind?_eq_some_iff.mp (h.kind?_of_kind? hs (ht.kind?_of_mem hn))
    exact ⟨m, (mem_of_node? hm).1, (mem_of_node? hm).2, hkind⟩
  refine ⟨(h.kind?_eq hs hstart).trans hsound.start_kind, (h.kind?_eq hs hfinish).trans hsound.finish_kind,
    fun n hn hk => ?_, List.eq_nil_iff_forall_not_mem.mpr fun e he => ?_,
    List.eq_nil_iff_forall_not_mem.mpr fun e he => ?_, h.acyclic hsound.acyclic, fun n hn hk => ?_,
    fun n hn hk => ?_⟩
  · obtain ⟨m, hm, hid, hkind⟩ := hnode n hn
    exact hid ▸ hsound.ordinary m hm (hkind ▸ hk)
  · obtain ⟨hmem, htarget⟩ := (Store.mem_incoming hstart).mp he
    exact hsound.target_ne_start (h.mem_links hmem) htarget
  · obtain ⟨hmem, hsource⟩ := (Store.mem_outgoing hfinish).mp he
    exact hsound.source_ne_finish (h.mem_links hmem) hsource
  · obtain ⟨m, hm, hid, hkind⟩ := hnode n hn
    have hle := h.length_outgoing_le (mem_ids_of_node hn)
    exact hle.trans (hid ▸ hsound.single m hm (hkind ▸ hk))
  · obtain ⟨m, hm, hid, hkind⟩ := hnode n hn
    obtain ⟨hlimit, hgroups⟩ := hsound.branching m hm (hkind.trans hk)
    rw [hid] at hlimit hgroups
    exact ⟨(h.length_outgoing_le (mem_ids_of_node hn)).trans hlimit,
      fun e he => hgroups e (h.mem_outgoing (mem_ids_of_node hn) he)⟩

theorem Alike.sound (h : Alike t s) (hs : s.WellFormed) (hsound : s.Sound) : t.Sound :=
  (h.part hs).sound hs hsound (h.ids_eq ▸ hsound.start_mem) (h.ids_eq ▸ hsound.finish_mem)

/-! ## The graph of a sound store -/

/-- The graph of a sound store is bounded by its sentinels, in whatever order its edges are listed. -/
theorem WellFormed.bounded (hs : s.WellFormed) (h : s.Sound) {edges : List Edge} (hedges : edges.Perm s.links) :
    (graphOf s.nodes edges).Bounded startId finishId := by
  have harcs : ∀ a ∈ (graphOf s.nodes edges).arcs, ∃ e ∈ s.links, e.ends = a := by
    intro a ha
    obtain ⟨e, he, hea⟩ := mem_arcs_graphOf.mp ha
    exact ⟨e, hedges.mem_iff.mp he, hea⟩
  have hnodes : (graphOf s.nodes edges).nodes = s.ids :=
    nodes_graphOf hs.ids_nodup fun e he => hs.ends_mem e (hedges.mem_iff.mp he)
  refine ⟨h.acyclic.mono fun a ha => mem_arcs_graph.mpr (harcs a ha), hnodes ▸ h.start_mem, hnodes ▸ h.finish_mem,
    Sound.start_ne_finish, List.eq_nil_iff_forall_not_mem.mpr fun p hp => ?_,
    List.eq_nil_iff_forall_not_mem.mpr fun c hc => ?_⟩
  · obtain ⟨e, he, hea⟩ := harcs _ (Digraph.mem_parents.mp hp)
    exact h.target_ne_start he (Prod.mk.inj hea).2
  · obtain ⟨e, he, hea⟩ := harcs _ (Digraph.mem_children.mp hc)
    exact h.source_ne_finish he (Prod.mk.inj hea).1

end FormFlow.Store
