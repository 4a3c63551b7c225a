import FormFlow.Proofs.Debounce
import FormFlow.Proofs.Removals
/-!
Disconnecting undoes connecting.

A connection adds an edge, or a guard and two edges under a group that no other edge has. What it was added to is what
remains when these are taken out again (`Trims`), and that is what disconnecting takes out of the committed store: the
edge by its id, or the guard, which is found through the group and the kind of the node that the first edge leaves
(`branchEdges_eq_pair`). Whichever half of a branch is disconnected, nodes and edges are those of before, in their order
(`disconnect_connect`).
-/

set_option autoImplicit false

namespace FormFlow

/-- The id of a node, its kind and its position. -/
def Node.outline (n : Node) : String × Kind × Point := (n.id, n.kind, n.position)

namespace Store

variable {s t u w : Store} {group source target : String} {n : Node} {e first second : Edge}

/-! ## Taking out what was added -/

/-- The ids of the nodes, their kinds and their positions, in the order of the nodes. -/
def outline (s : Store) : List (String × Kind × Point) := s.nodes.map Node.outline

theorem outline_of_retains {nodes nodes' : List Node} (h : List.Forall₂ Retains nodes nodes') :
    nodes.map Node.outline = nodes'.map Node.outline := by
  induction h with
  | nil => rfl
  | cons hretains _ ih =>
    rw [List.map_cons, List.map_cons, ih, Node.outline, Node.outline, hretains.id, hretains.kind, hretains.position]

section Undo

variable {stays : String → Prop} {keeps : Edge → Prop} [DecidablePred stays] [DecidablePred keeps]

theorem outline_filter (nodes : List Node) :
    (nodes.filter fun n => stays n.id).map Node.outline =
      (nodes.map Node.outline).filter fun entry => stays entry.1 := by
  rw [List.filter_map]
  rfl

/-- **Taking out of a committed store what was added to a copy gives back the store**, as far as its outline and its
edges go. -/
theorem Trims.undoes {references : List LoopReference} (h : t.Trims s.copy stays keeps) (hs : s.WellFormed)
    (ht : t.WellFormed) (hu : (t.repair references).1.recompute = .ok u) (hw : u.Remains w stays keeps) :
    w.outline = s.outline ∧ w.edges = s.edges := by
  obtain ⟨hnodes, hedges⟩ := ht.retains_of_repair hu
  constructor
  · calc
      w.outline = u.outline.filter fun entry => stays entry.1 := (outline_of_retains hw.nodes).trans (outline_filter _)
      _ = t.outline.filter fun entry => stays entry.1 := congrArg _ (outline_of_retains hnodes)
      _ = s.outline := by rw [outline, ← outline_filter, ← h.nodes]; rfl
  · rw [hw.edges, hedges, ← h.edges_eq, hs.edges_copy]

end Undo

/-- An edge that was added can be taken out again. -/
theorem trims_addEdge (ht : s.addEdge e = .ok t) : t.Trims s (fun _ => True) (· ≠ e) := by
  obtain ⟨-, -, -, hnew, rfl⟩ := addEdge_eq_ok ht
  refine ⟨by simp, ?_, fun _ _ => trivial⟩
  have hother : ∀ f ∈ s.links, decide (f ≠ e) = true := by
    intro f hf
    rw [decide_eq_true_iff]
    rintro rfl
    exact hnew (List.mem_map_of_mem hf)
  rw [List.filter_append, List.filter_eq_self.mpr hother]
  simp

/-- A guard that was added with two edges that touch it can be taken out again. -/
theorem trims_addBranch {v : Store} (hs : s.WellFormed) (hn : s.addNode n = .ok u) (hfirst : u.addEdge first = .ok v)
    (hsecond : v.addEdge second = .ok t) (htarget : first.target = n.id) (hsource : second.source = n.id) :
    t.Trims s (· ≠ n.id) fun e => e.source ≠ n.id ∧ e.target ≠ n.id := by
  obtain ⟨hnew, rfl⟩ := addNode_eq_ok hn
  obtain ⟨-, -, -, -, rfl⟩ := addEdge_eq_ok hfirst
  obtain ⟨-, -, -, -, rfl⟩ := addEdge_eq_ok hsecond
  have hother : ∀ {id}, id ∈ s.ids → id ≠ n.id := fun hid hid' => hnew (hid' ▸ hid)
  refine ⟨?_, ?_, fun _ he => he.1⟩
  · dsimp only
    rw [List.filter_append, List.filter_eq_self.mpr fun m hm => decide_eq_true (hother (mem_ids_of_node hm))]
    simp
  · dsimp only
    rw [List.filter_append, List.filter_append, List.filter_eq_self.mpr fun e he =>
      decide_eq_true ⟨hother (hs.ends_mem e he).1, hother (hs.ends_mem e he).2⟩]
    simp [htarget, hsource]

/-- The edges of a branch, the one that leaves the Path first. -/
theorem WellFormed.branchEdges_eq_pair (hs : s.WellFormed)
    (hmembers : (s.links.filter fun e => e.group == some group).Perm [first, second])
    (hfirst : s.kind? first.source = some .path) (hsecond : s.kind? second.source ≠ some .path) :
    s.branchEdges group = [first, second] := by
  have hperm := (hs.edges_perm.filter fun e => e.group == some group).trans hmembers
  have hfront := hperm.filter fun e => s.kind? e.source == some .path
  have hback := hperm.filter fun e => !(s.kind? e.source == some .path)
  have hnot : (s.kind? second.source == some .path) = false := by simpa using hsecond
  simp only [List.filter_cons, List.filter_nil, hfirst, hnot, beq_self_eq_true, if_true, Bool.false_eq_true, if_false,
    Bool.not_true, Bool.not_false] at hfront hback
  rw [branchEdges, List.perm_singleton.mp hfront, List.perm_singleton.mp hback]
  rfl

/-- A branch under a group of its own has the two edges that were added, and no others. -/
theorem members_addBranch {v : Store} (hs : s.WellFormed) (hnew : group ∉ s.groups) (hn : s.addNode n = .ok u)
    (hfirst : u.addEdge first = .ok v) (hsecond : v.addEdge second = .ok t) (hgroup : first.group = some group)
    (hgroup' : second.group = some group) : (t.links.filter fun e => e.group == some group) = [first, second] := by
  obtain ⟨-, rfl⟩ := addNode_eq_ok hn
  obtain ⟨-, -, -, -, rfl⟩ := addEdge_eq_ok hfirst
  obtain ⟨-, -, -, -, rfl⟩ := addEdge_eq_ok hsecond
  have hnone : (s.links.filter fun e => e.group == some group) = [] :=
    List.filter_eq_nil_iff.mpr fun e he hmember => hnew ((mem_groups hs).mpr ⟨e, he, beq_iff_eq.mp hmember⟩)
  simp only [List.filter_append, hnone, List.nil_append]
  simp [hgroup, hgroup']

/-- A branch that was planned on a store and added to a copy is found under its group, in the order of the plan. -/
theorem WellFormed.branchEdges_branchPlan (hs : s.WellFormed) {guard : Node} (hpath : s.kind? source = some .path)
    (hguard : guard.kind = .condition) (hgroup : group ∉ s.groups)
    (happly : (branchPlan source target guard group).apply s.copy = .ok t) (hu : u.WellFormed) (halike : Alike u t) :
    u.branchEdges group = (branchPlan source target guard group).edges := by
  have hcopy := hs.alike_copy
  have hwell := (hcopy.part hs).wellFormed hs
  have hnew : group ∉ s.copy.groups := by
    rw [groups, hs.edges_copy]
    exact hgroup
  obtain ⟨v, w, hnode, hfirst, hsecond⟩ := apply_branch happly
  refine hu.branchEdges_eq_pair ?_ ?_ ?_
  · rw [← members_addBranch hwell hnew hnode hfirst hsecond rfl rfl]
    exact halike.links.filter _
  · rw [halike.kind?_eq, kind?_apply happly (hcopy.ids_eq ▸ mem_ids_of_kind? hpath), hcopy.kind?_eq, hpath]
  · rw [halike.kind?_eq, kind?_addEdge hsecond, kind?_addEdge hfirst, kind?_addNode_self hnode, hguard]
    decide

end Store

namespace Session

open Store (Grounded)

variable {σ : Type} {s : Session σ} {source target : String} {edges : List Edge} {f : Edge}

/-! ## Connecting -/

/-- A connect that returns edges planned them and added them to a copy, which was repaired and placed. -/
theorem connect_eq_ok (h : (s.connect source target).1 = .ok edges) (hne : edges ≠ []) :
    ∃ plan rest t, s.editor.store.planConnection source target s.tokens = .ok (plan, rest) ∧ edges = plan.edges ∧
      plan.apply s.editor.store.copy = .ok t ∧
      (t.repair s.editor.store.loopReferences).1.recompute = .ok (s.connect source target).2.editor.store := by
  unfold connect at h ⊢
  cases hrepeat : s.editor.isRepeat source target s.clock.now with
  | true =>
    simp only [hrepeat, ↓reduceIte] at h
    exact absurd (Except.ok.inj h).symm hne
  | false =>
    cases hplan : s.editor.store.planConnection source target s.tokens with
    | error fault =>
      cases fault <;> simp [hrepeat, hplan] at h
    | ok planned =>
      obtain ⟨plan, rest⟩ := planned
      simp only [hrepeat, hplan, Bool.false_eq_true, ↓reduceIte] at h ⊢
      rcases commit_cases { s with tokens := rest } .connect ([source, target] ++ plan.guard.toList.map (·.id))
        (fun draft => EditFault.ofStructure (plan.apply draft)) with ⟨fault, hfail⟩ | ⟨t, after, hchange, hok, hadopts⟩
      · rw [hfail] at h
        cases h
      · rw [hok] at h ⊢
        exact ⟨plan, rest, t, rfl, (Except.ok.inj h).symm, EditFault.ofStructure_eq_ok_iff.mp hchange, hadopts.placed⟩

/-- **Disconnecting an edge of a branch takes away the guard with its edges**, and touches nothing else. -/
theorem remains_disconnect_branch (h : s.editor.store.Grounded) {id group : String} {e first second : Edge}
    (he : s.editor.store.edge? id = some e) (hgroup : e.group = some group)
    (hedges : s.editor.store.branchEdges group = [first, second]) :
    ∃ s', s.disconnect id = (.ok (), s') ∧ s.editor.store.Remains s'.editor.store (· ≠ first.target)
      (fun e => e.source ≠ first.target ∧ e.target ≠ first.target) := by
  rw [← h.wellFormed.branchEdges_copy] at hedges
  obtain ⟨t, ht, hwithout⟩ := h.copy.exists_disconnected_branch hgroup hedges
  have hgrounded := h.copy.disconnected ht
  obtain ⟨s', hcommit, hu⟩ := s.commit_of_grounded .disconnectEdge [e.source, e.target]
    (fun draft => draft.disconnected e) ht hgrounded
  refine ⟨s', ?_, (Store.trims_of_withoutNode hwithout).remains h.wellFormed hgrounded.wellFormed hu⟩
  simp only [disconnect, Store.edge_eq_ok_iff.mpr he, hcommit]

/-- **Disconnecting any edge that a connect returned undoes the connect.** -/
theorem disconnect_connect (h : s.editor.store.Grounded) (hconnect : (s.connect source target).1 = .ok edges)
    (hf : f ∈ edges) :
    ∃ after, (s.connect source target).2.disconnect f.id = (.ok (), after) ∧
      after.editor.store.outline = s.editor.store.outline ∧ after.editor.store.edges = s.editor.store.edges := by
  obtain ⟨plan, rest, t, hplan, rfl, happly, hu⟩ := connect_eq_ok hconnect (List.ne_nil_of_mem hf)
  have ht := h.apply_plan hplan h.wellFormed.alike_copy happly
  have halike := Store.alike_of_repair hu
  have hgrounded := ht.of_alike halike
  have hfound : ∀ {e}, e ∈ t.links → (s.connect source target).2.editor.store.edge? e.id = some e := fun he =>
    (hgrounded.indexed.edge?_eq_some_iff hgrounded.wellFormed).mpr ⟨halike.mem_links.mpr he, rfl⟩
  obtain ⟨-, ⟨-, rfl⟩ | ⟨hpath, guard, group, hguard, -, hgroup, rfl⟩⟩ := Store.planConnection_eq_ok hplan
  · obtain rfl := List.mem_singleton.mp hf
    have hadd := Store.apply_plain happly
    obtain ⟨after, hok, hremains⟩ :=
      remains_disconnect hgrounded (hfound ((Store.mem_links_addEdge hadd).mpr (Or.inr rfl))) rfl
    exact ⟨after, hok, (Store.trims_addEdge hadd).undoes h.wellFormed ht.wellFormed hu hremains⟩
  · have hedges := h.wellFormed.branchEdges_branchPlan hpath hguard hgroup happly hgrounded.wellFormed halike
    obtain ⟨v, w, hnode, hfirst, hsecond⟩ := Store.apply_branch happly
    obtain ⟨hlink, hmember⟩ : f ∈ t.links ∧ f.group = some group := by
      rw [Store.mem_links_addEdge hsecond, Store.mem_links_addEdge hfirst]
      rcases List.mem_pair.mp hf with rfl | rfl
      · exact ⟨Or.inl (Or.inr rfl), rfl⟩
      · exact ⟨Or.inr rfl, rfl⟩
    obtain ⟨after, hok, hremains⟩ := remains_disconnect_branch hgrounded (hfound hlink) hmember hedges
    exact ⟨after, hok, (Store.trims_addBranch h.copy.wellFormed hnode hfirst hsecond rfl rfl).undoes h.wellFormed
      ht.wellFormed hu hremains⟩

/-- The turn that adds a Path to a fresh editor. -/
def addsPath : List (Turn Unit) := [.command (.addNode .path .origin [])]

/-- **Disconnecting undoes connecting.** Whatever editor is made, in every state that a run reaches, in whatever session
and with whatever tokens: after a connect that returns edges, disconnecting any one of them succeeds and gives back the
ids of the nodes in their order, with their kinds and positions, and the list of the edges. -/
theorem run_disconnect_connect {e : Editor} (he : e.Made) (desk : Desk σ) (clock : Clock) (tokens : TokenSupply)
    (isHeard : Bool) (events : List Event) (turns : List (Turn σ))
    (hs : s = run ⟨e, desk, clock, tokens, isHeard, events⟩ turns)
    (hconnect : (s.connect source target).1 = .ok edges) (hf : f ∈ edges) :
    ∃ after, (s.connect source target).2.disconnect f.id = (.ok (), after) ∧
      after.editor.store.outline = s.editor.store.outline ∧ after.editor.store.edges = s.editor.store.edges := by
  obtain ⟨hgrounded, -⟩ := he.grounded
  exact disconnect_connect (hs ▸ grounded_run turns _ hgrounded) hconnect hf

/-- Disconnecting the half of a branch that leads to the end undoes the connect as well. -/
theorem disconnect_connect_addsPath :
    ∃ e after, Editor.fresh [] .zero = .ok e ∧
      (((alone e).run addsPath).connect Store.solePath finishId).1 = .ok Store.nearBranch ∧
      (((alone e).run addsPath).connect Store.solePath finishId).2.disconnect
        (Edge.idFor Store.nearGuard finishId) = (.ok (), after) ∧
      after.editor.store.outline = ((alone e).run addsPath).editor.store.outline ∧
      after.editor.store.edges = ((alone e).run addsPath).editor.store.edges := by
  obtain ⟨e, hfresh, hstart⟩ := exists_fresh_stands
  obtain ⟨hconnect, -⟩ := (hstart.add_path (r := .origin)).connect_finish
  obtain ⟨after, hundone⟩ := run_disconnect_connect (Or.inl ⟨[], .zero, hfresh⟩) _ _ _ _ _ addsPath rfl hconnect
    (List.mem_cons_of_mem _ List.mem_cons_self)
  exact ⟨e, after, hfresh, hconnect, hundone⟩

end Session

end FormFlow
