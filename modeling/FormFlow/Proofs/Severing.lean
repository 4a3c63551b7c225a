import FormFlow.Proofs.WholeRuns
/-!
When editors keep the end.

The start is never lost. The end is lost by removing a branch whose first edge leads to it, which the documents that
are opened do not rule out: the check asks of a group that no Path opens only that it has two edges. Every state keeps
both sentinels exactly as long as no such branch is removed (`opened_sentinels_iff`), and there are documents and
commands that lose the end (`opened_severed`).
-/

set_option autoImplicit false

namespace FormFlow

namespace Store

variable {s t u : Store} {id group source target : String} {n : Node} {e first second : Edge}

/-- Disconnecting the edge takes the end away: its group is on two edges, and the first of them leads to the end. -/
def Severs (s : Store) (id : String) : Prop :=
  ∃ e group first second, s.edge? id = some e ∧ e.group = some group ∧ s.branchEdges group = [first, second] ∧
    first.target = finishId

/-! ## What changes do to the end -/

/-- A plan changes the kind of no node. -/
theorem kind?_apply {plan : ConnectionPlan} (ht : plan.apply s = .ok t) (hid : id ∈ s.ids) :
    t.kind? id = s.kind? id := by
  have hedges : ∀ {u}, u.kind? id = s.kind? id → plan.edges.foldlM Store.addEdge u = .ok t →
      t.kind? id = s.kind? id := fun hu =>
    Table.foldlM_induction (P := fun v => v.kind? id = s.kind? id) (fun hv hadd => (kind?_addEdge hadd id).trans hv) hu
  unfold ConnectionPlan.apply at ht
  split at ht
  · obtain ⟨u, hu, hrest⟩ := Table.bind_eq_ok.mp ht
    exact hedges (kind?_addNode hu hid) hrest
  · exact hedges rfl ht

theorem kind?_withoutNode_ne (hs : s.WellFormed) (ht : s.withoutNode source = .ok t) (hne : id ≠ source)
    (hid : id ∈ s.ids) : t.kind? id = s.kind? id :=
  (hs.part_withoutNode ht).kind?_eq hs
    ((without_of_withoutNode ht).mem_ids.mpr ⟨hid, fun hm => hne (List.mem_singleton.mp hm)⟩)

theorem kind?_withoutNode_self (ht : s.withoutNode id = .ok t) : t.kind? id = none := by
  cases hkind : t.kind? id with
  | none => rfl
  | some k =>
    have hgone := ((without_of_withoutNode ht).mem_ids.mp (mem_ids_of_kind? hkind)).2
    exact absurd (List.mem_singleton_self id) hgone

theorem WellFormed.branchEdges_copy (hs : s.WellFormed) (group : String) :
    s.copy.branchEdges group = s.branchEdges group := by
  simp only [branchEdges, hs.edges_copy]
  rfl

namespace Grounded

variable (h : s.Grounded) (hfinish : s.kind? finishId = some .finish)
include h hfinish

/-- The end does not go with another node: nothing leaves it, and it is no Condition. -/
theorem finish_not_mem_guardsOf (hn : n ∈ s.nodes) : finishId ∉ s.guardsOf n := by
  intro hid
  rcases guardsOf_cases h.wellFormed hn hid with ⟨-, -, second, hsecond, -, hsource⟩ | hkind
  · exact h.source_ne_finish second hsecond hsource
  · rw [hfinish] at hkind
    cases hkind

theorem finish_kind_deleted (hn : n ∈ s.nodes) (hk : n.kind.isSentinel = false) (ht : s.deleted n = .ok t) :
    t.kind? finishId = some .finish := by
  obtain ⟨hwithout, -⟩ := h.deleted hn hk ht
  have hstays : finishId ∉ s.guardsOf n ++ [n.id] := by
    intro hm
    rcases List.mem_append.mp hm with hguard | hself
    · exact h.finish_not_mem_guardsOf hfinish hn hguard
    · have hkind := h.wellFormed.kind?_of_mem hn
      rw [← List.mem_singleton.mp hself, hfinish] at hkind
      rw [← Option.some.inj hkind] at hk
      cases hk
  have hmem := hwithout.mem_ids.mpr ⟨mem_ids_of_kind? hfinish, hstays⟩
  exact ((hwithout.part h.wellFormed).kind?_eq h.wellFormed hmem).trans hfinish

/-- Disconnecting an edge takes the end away only by taking the branch away whose first edge leads there. -/
theorem finish_kind_disconnected (ht : s.disconnected e = .ok t)
    (hkeeps : ∀ group first second, e.group = some group → s.branchEdges group = [first, second] →
      first.target ≠ finishId) : t.kind? finishId = some .finish := by
  rcases disconnected_eq_ok ht with ⟨removed, hremoved⟩ | ⟨group, first, second, hgroup, hedges, hremoved⟩
  · obtain ⟨-, -, hnodes, -⟩ := h.indexed.removeEdge_eq_ok h.wellFormed hremoved
    rw [kind?, node?, hnodes]
    exact hfinish
  · have hne := (hkeeps group first second hgroup hedges).symm
    exact (kind?_withoutNode_ne h.wellFormed hremoved hne (mem_ids_of_kind? hfinish)).trans hfinish

omit hfinish

/-- An edge of a group with two edges can be disconnected, which takes away the node that the first of them leads to. -/
theorem exists_disconnected_branch (hgroup : e.group = some group) (hedges : s.branchEdges group = [first, second]) :
    ∃ t, s.disconnected e = .ok t ∧ s.withoutNode first.target = .ok t := by
  obtain ⟨hmem, -⟩ := (mem_branchEdges h.wellFormed).mp (hedges ▸ List.mem_cons_self)
  obtain ⟨t, ht⟩ := h.indexed.exists_withoutNode h.wellFormed (h.wellFormed.ends_mem first hmem).2
    fun f hf hsource htarget => h.ne_of_link hf (hsource.trans htarget.symm)
  refine ⟨t, ?_, ht⟩
  rw [Store.disconnected, hgroup]
  simp only [withoutBranch, hedges, ht, EditFault.ofStructure]

/-- The branch that takes the end away can be removed. -/
theorem exists_severed (hgroup : e.group = some group) (hedges : s.branchEdges group = [first, second])
    (htarget : first.target = finishId) : ∃ t, s.disconnected e = .ok t ∧ t.kind? finishId = none := by
  obtain ⟨t, ht, hwithout⟩ := h.exists_disconnected_branch hgroup hedges
  exact ⟨t, ht, kind?_withoutNode_self (htarget ▸ hwithout)⟩

end Grounded

end Store

namespace Session

open Store (Grounded)

variable {σ : Type} {t : Store}

/-! ## One command -/

variable (s : Session σ) (h : s.editor.store.Grounded)
include h

/-- Disconnecting an edge that takes the end away does not fail, and the end is gone. -/
theorem severed_disconnect {id : String} (hsevers : s.editor.store.Severs id) :
    (s.disconnect id).2.editor.store.kind? finishId = none := by
  obtain ⟨e, group, first, second, he, hgroup, hedges, htarget⟩ := hsevers
  rw [← h.wellFormed.branchEdges_copy] at hedges
  obtain ⟨t, ht, hlost⟩ := h.copy.exists_severed hgroup hedges htarget
  obtain ⟨s', hcommit, hu⟩ := s.commit_of_grounded .disconnectEdge [e.source, e.target]
    (fun draft => draft.disconnected e) ht (h.copy.disconnected ht)
  rw [disconnect, Store.edge_eq_ok_iff.mpr he]
  simp only [hcommit, (Store.alike_of_repair hu).kind?_eq, hlost]

variable (hfinish : s.editor.store.kind? finishId = some .finish)
include hfinish

/-- **Disconnecting loses the end exactly if it takes it away.** -/
theorem finish_disconnect_iff (id : String) :
    (s.disconnect id).2.editor.store.kind? finishId = some .finish ↔ ¬ s.editor.store.Severs id := by
  have hcopy := h.wellFormed.alike_copy
  constructor
  · intro hafter hsevers
    rw [s.severed_disconnect h hsevers] at hafter
    cases hafter
  · intro hkeeps
    rcases s.disconnect_store id with hsame | ⟨e, he, t, ht, hu⟩
    · rw [hsame]
      exact hfinish
    · rw [(Store.alike_of_repair hu).kind?_eq]
      refine h.copy.finish_kind_disconnected ((hcopy.kind?_eq _).trans hfinish) ht ?_
      intro group first second hgroup hedges htarget
      rw [h.wellFormed.branchEdges_copy] at hedges
      exact hkeeps ⟨e, group, first, second, he, hgroup, hedges, htarget⟩

/-- The command takes the end away: it disconnects an edge that does. -/
def Command.Severs (s : Store) : Command → Prop
  | .disconnect id => s.Severs id
  | _ => False

/-- **A command loses the end exactly if it takes it away.** -/
theorem finish_perform_iff (c : Command) :
    (s.perform c).editor.store.kind? finishId = some .finish ↔ ¬ c.Severs s.editor.store := by
  have hcopy := h.wellFormed.alike_copy
  have hfinish' := (hcopy.kind?_eq finishId).trans hfinish
  have hmem := Store.mem_ids_of_kind? hfinish'
  cases c with
  | addNode kind position config =>
    refine iff_of_true ?_ not_false
    rcases s.addNode_store kind position config with hsame | ⟨n, -, t, ht, hu⟩
    · exact (congrArg (·.kind? finishId) hsame).trans hfinish
    · have hadd := EditFault.ofStructure_eq_ok_iff.mp ht
      exact ((Store.alike_of_repair hu).kind?_eq _).trans ((Store.kind?_addNode hadd hmem).trans hfinish')
  | connect source target =>
    refine iff_of_true ?_ not_false
    rcases s.connect_store source target with hsame | ⟨plan, rest, -, t, ht, hu⟩
    · exact (congrArg (·.kind? finishId) hsame).trans hfinish
    · have happly := EditFault.ofStructure_eq_ok_iff.mp ht
      exact ((Store.alike_of_repair hu).kind?_eq _).trans ((Store.kind?_apply happly hmem).trans hfinish')
  | disconnect id => exact s.finish_disconnect_iff h hfinish id
  | deleteNode id =>
    refine iff_of_true ?_ not_false
    rcases s.deleteNode_store id with hsame | ⟨n, hn, hk, t, ht, hu⟩
    · exact (congrArg (·.kind? finishId) hsame).trans hfinish
    · have hin : n ∈ s.editor.store.copy.nodes := (Store.mem_of_node? hn).1
      exact ((Store.alike_of_repair hu).kind?_eq _).trans (h.copy.finish_kind_deleted hfinish' hin hk ht)
  | updateConfig id overlay =>
    refine iff_of_true ?_ not_false
    rcases s.updateConfig_store id overlay with hsame | ⟨c, t, ht, hu⟩
    · exact (congrArg (·.kind? finishId) hsame).trans hfinish
    · have halike := Store.alike_reconfigured h.copy.wellFormed ht
      exact ((Store.alike_of_repair hu).kind?_eq _).trans ((halike.kind?_eq _).trans hfinish')

/-! ## Runs -/

omit h hfinish

/-- The commands of a run keep the end: none of them takes it away in the state that it meets. -/
def SeversNothing (turns : List (Turn σ)) : Prop :=
  ∀ past c, past ++ [.command c] <+: turns → ¬ c.Severs (s.run past).editor.store

/-- Every state of a run has the end exactly if no command takes it away. -/
theorem finish_run_iff (h : s.editor.store.Grounded) (hfinish : s.editor.store.kind? finishId = some .finish)
    (turns : List (Turn σ)) :
    (∀ past, past <+: turns → (s.run past).editor.store.kind? finishId = some .finish) ↔ s.SeversNothing turns := by
  refine run_iff (P := fun e => e.store.kind? finishId = some .finish) (B := fun s c => c.Severs s.editor.store) hfinish
    fun past c hpast => ?_
  exact finish_perform_iff _ (grounded_run past s h) hpast c

/-- **Opened editors keep the start, and the end exactly if no command takes it away.** Whatever document is opened,
every state of a run, in whatever session and with whatever tokens, has the start; all of them have the end too exactly
if no command of the run disconnects an edge whose group is on two edges of which the first leads to the end. -/
theorem opened_sentinels_iff {d : Document} {window : Seconds} {sourceGiven : Bool} {e : Editor}
    (he : Editor.openOn d window sourceGiven = .ok e) (desk : Desk σ) (clock : Clock) (tokens : TokenSupply)
    (isHeard : Bool) (events : List Event) (turns : List (Turn σ)) :
    (∀ past, past <+: turns →
      (run ⟨e, desk, clock, tokens, isHeard, events⟩ past).editor.store.kind? startId = some .start) ∧
    ((∀ past, past <+: turns →
      (run ⟨e, desk, clock, tokens, isHeard, events⟩ past).editor.store.kind? finishId = some .finish) ↔
        SeversNothing ⟨e, desk, clock, tokens, isHeard, events⟩ turns) := by
  obtain ⟨hsound, hgrounded⟩ := Editor.sound_of_openOn he
  refine ⟨fun past _ => (grounded_run past _ hgrounded).start_kind, ?_⟩
  exact finish_run_iff ⟨e, desk, clock, tokens, isHeard, events⟩ hgrounded hsound.finish_kind turns

/-! ## A document that loses its end -/

end Session

/-- Two Finds whose edges to the end share a group. -/
def Document.sharedGroup (p : Point) : Document where
  formVersion := ""
  nodes := [
    ⟨startId, .start, p, [], none⟩,
    ⟨"a", .find, p, [], none⟩,
    ⟨"b", .find, p, [], none⟩,
    ⟨finishId, .finish, p, [], none⟩]
  edges := [⟨none, "a", finishId, some "g"⟩, ⟨none, "b", finishId, some "g"⟩]
  formFields := []
  objects := []

/-- The store of that document. -/
def Store.sharedGroup (p : Point) : Store where
  nodes := [
    .unplaced startId (.default .start) p,
    .unplaced "a" (.default .find) p,
    .unplaced "b" (.default .find) p,
    .unplaced finishId (.default .finish) p]
  links := [⟨"ea-end", "a", finishId, some "g"⟩, ⟨"eb-end", "b", finishId, some "g"⟩]
  index := [("ea-end", "a", finishId), ("eb-end", "b", finishId)]

theorem Document.store_sharedGroup (p : Point) : (Document.sharedGroup p).store = .ok (Store.sharedGroup p) := by
  cbv

theorem Store.checkStructure_sharedGroup (p : Point) : (Store.sharedGroup p).checkStructure = .ok () := by
  cbv

theorem Store.severs_sharedGroup (p : Point) (place : String → Seating) :
    ((Store.sharedGroup p).copy.placedAs place).Severs "ea-end" :=
  ⟨⟨"ea-end", "a", finishId, some "g"⟩, "g", ⟨"ea-end", "a", finishId, some "g"⟩, ⟨"eb-end", "b", finishId, some "g"⟩,
    by cbv, rfl, by cbv, rfl⟩

namespace Session

/-- The document can be opened, and before its first edge is disconnected both sentinels are there. -/
theorem opened_sharedGroup :
    ∃ e, Editor.openOn (.sharedGroup .origin) .zero false = .ok e ∧
      ((∀ past, past <+: [.command (.addNode .find .origin [])] →
        ((alone e).run past).editor.store.kind? startId = some .start) ∧
      ((∀ past, past <+: [.command (.addNode .find .origin [])] →
        ((alone e).run past).editor.store.kind? finishId = some .finish) ↔
          (alone e).SeversNothing [.command (.addNode .find .origin [])])) := by
  obtain ⟨e, he, -⟩ := Editor.exists_openOn (Document.store_sharedGroup .origin)
    (Store.checkStructure_sharedGroup .origin) .zero false
  exact ⟨e, he, opened_sentinels_iff he _ _ _ _ _ _⟩

/-- **An editor that was opened can lose its end**: disconnecting an edge of the shared group takes it away. -/
theorem opened_severed :
    ∃ e, Editor.openOn (.sharedGroup .origin) .zero false = .ok e ∧
      e.store.kind? finishId = some .finish ∧
      ((alone e).run [.command (.disconnect "ea-end")]).editor.store.kind? finishId = none := by
  obtain ⟨e, he, place, hplaced⟩ :=
    Editor.exists_openOn (Document.store_sharedGroup .origin)
    (Store.checkStructure_sharedGroup .origin) .zero false
  obtain ⟨hsound, hgrounded⟩ := Editor.sound_of_openOn he
  refine ⟨e, he, hsound.finish_kind, (alone e).severed_disconnect hgrounded ?_⟩
  show e.store.Severs "ea-end"
  rw [hplaced]
  exact Store.severs_sharedGroup .origin place

end Session

end FormFlow
