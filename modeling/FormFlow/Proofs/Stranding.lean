import FormFlow.Proofs.Grounded
import FormFlow.Proofs.Whole
/-!
When commands keep branches whole.

A command takes nodes away: an edge of a branch takes the guard of that branch, and a node takes the guards that go with
it. The branches stay whole exactly if the command strands no guard, which happens when a branch goes on to a guard that
is taken away (`whole_perform_iff`).
-/

set_option autoImplicit false

namespace FormFlow

namespace Store

variable {s t u : Store} {group : String} {n : Node} {e first second : Edge}

/-! ## Removals that succeed -/

theorem length_branchEdges (s : Store) (group : String) :
    (s.branchEdges group).length = (s.edges.filter fun e => e.group == some group).length :=
  (List.filter_append_perm _ _).length_eq

/-- A whole branch can be removed, which takes its guard away. -/
theorem Regular.exists_withoutBranch (h : s.Regular) (hbranch : s.IsBranch group first second) :
    ∃ t, s.withoutBranch group = .ok t ∧ s.withoutNode first.target = .ok t := by
  have hlength : (s.branchEdges group).length = 2 := by
    rw [length_branchEdges, (h.wellFormed.edges_perm.filter _).length_eq, ← h.wellFormed.groupSize_eq,
      hbranch.groupSize_eq h.wellFormed]
  obtain ⟨a, b, hedges⟩ := List.length_eq_two.mp hlength
  obtain rfl := hbranch.eq_first h.wellFormed (h.opens_of_branchEdges hedges)
  have hmem := (h.wellFormed.ends_mem a hbranch.opens.mem).2
  obtain ⟨t, ht⟩ := h.indexed.exists_withoutNode h.wellFormed hmem fun f hf hsource htarget =>
    h.ne_of_link hf (hsource.trans htarget.symm)
  exact ⟨t, by rw [withoutBranch, hedges]; simp only [ht, EditFault.ofStructure], ht⟩

/-! ## What commands take away -/

/-- The guards of a group: where its edges out of Paths lead. -/
def guardsIn (s : Store) (group : String) : List String :=
  (s.edges.filter fun e => e.group == some group && s.kind? e.source == some .path).map (·.target)

theorem IsBranch.mem_guardsIn (h : s.IsBranch group first second) (hs : s.Regular) {id : String} :
    id ∈ s.guardsIn group ↔ id = first.target := by
  simp only [guardsIn, List.mem_map, List.mem_filter, hs.wellFormed.mem_edges, Bool.and_eq_true, beq_iff_eq]
  constructor
  · rintro ⟨e, ⟨he, hgroup, hpath⟩, rfl⟩
    rw [h.eq_first hs.wellFormed (Opens.of_path hs.branched he hgroup hpath)]
  · rintro rfl
    exact ⟨first, ⟨h.opens.mem, h.opens.group_eq, h.opens.path⟩, rfl⟩

/-- Whichever way the edges are listed, the same guards go with a node. -/
theorem Regular.mem_guardsOf_alike (h : s.Regular) (ht : Alike t s) (hn : n ∈ s.nodes) (hn' : n ∈ t.nodes)
    {id : String} : id ∈ t.guardsOf n ↔ id ∈ s.guardsOf n := by
  have hopens : ∀ {group first}, t.Opens group first ↔ s.Opens group first :=
    fun {group first} => ⟨fun hfirst => hfirst.of_alike ht.symm, fun hfirst => hfirst.of_alike ht⟩
  rw [(h.of_alike ht).mem_guardsOf hn', h.mem_guardsOf hn]
  simp only [hopens, ht.mem_links, ht.kind?_eq]

end Store

namespace Session

open Store (Alike Without)

/-- The nodes that a command takes away. -/
def Command.taken (s : Store) : Command → List String
  | .disconnect id => ((s.edge? id).bind (·.group)).elim [] s.guardsIn
  | .deleteNode id => (s.node? id).elim [] fun n => if n.kind.isSentinel then [] else s.guardsOf n ++ [n.id]
  | _ => []

variable {σ : Type} {t u : Store} {gone : List String}

/-- Disconnecting an edge of a whole branch takes its guard away. -/
theorem without_disconnect (s : Session σ) (h : s.editor.store.Regular) {id group : String} {e first second : Edge}
    (he : s.editor.store.edge? id = some e) (hgroup : e.group = some group)
    (hbranch : s.editor.store.IsBranch group first second) :
    Without (s.disconnect id).2.editor.store s.editor.store [first.target] := by
  have hcopy := h.wellFormed.alike_copy
  have hregular := h.of_alike hcopy
  obtain ⟨t, hchange, hremoved⟩ := hregular.exists_withoutBranch (hbranch.of_alike h.wellFormed hcopy)
  have ht := hregular.withoutGuard ((hcopy.kind?_eq _).trans hbranch.opens.guard) hremoved
  have hdisconnected : s.editor.store.copy.disconnected e = .ok t := by rw [Store.disconnected, hgroup]; exact hchange
  obtain ⟨s', hcommit, hu⟩ := s.commit_of_grounded .disconnectEdge [e.source, e.target]
    (fun draft => draft.disconnected e) hdisconnected ht.grounded
  rw [disconnect, Store.edge_eq_ok_iff.mpr he]
  simp only [hcommit]
  exact ((Store.without_of_withoutNode hremoved).of_alike (Store.alike_of_repair hu)).to_alike hcopy

/-- Deleting a node takes it away with the guards that go with it. -/
theorem without_deleteNode (s : Session σ) (h : s.editor.store.Regular) {id : String} {n : Node}
    (hn : s.editor.store.node? id = some n) (hk : n.kind.isSentinel = false) :
    Without (s.deleteNode id).2.editor.store s.editor.store (s.editor.store.guardsOf n ++ [n.id]) := by
  have hcopy := h.wellFormed.alike_copy
  have hregular := h.of_alike hcopy
  obtain ⟨hmem, -⟩ := Store.mem_of_node? hn
  obtain ⟨t, hdeleted⟩ := hregular.exists_deleted (n := n) hmem
  obtain ⟨hwithout, ht⟩ := hregular.deleted hmem hk hdeleted
  obtain ⟨s', hcommit, hu⟩ := s.commit_of_grounded .deleteNode [id] (fun draft => draft.deleted n) hdeleted ht.grounded
  rw [deleteNode, Store.node_eq_ok_iff.mpr hn]
  simp only [hk, Bool.false_eq_true, ↓reduceIte, hcommit]
  refine ((hwithout.of_alike (Store.alike_of_repair hu)).to_alike hcopy).congr ?_
  intro other
  rw [List.mem_append, List.mem_append, h.mem_guardsOf_alike hcopy hmem hmem]

/-! ## One command -/

theorem whole_of_repair (ht : t.Regular) (hwhole : t.Whole) {before : List LoopReference}
    (hu : (t.repair before).1.recompute = .ok u) : u.Whole :=
  hwhole.of_alike ht.wellFormed (Store.alike_of_repair hu)

theorem whole_addNode (s : Session σ) (h : s.editor.store.Regular) (hw : s.editor.store.Whole) (kind : Kind)
    (position : Point) (config : Members) : (s.addNode kind position config).2.editor.store.Whole := by
  have hcopy := h.wellFormed.alike_copy
  rcases s.addNode_store kind position config with hsame | ⟨n, hk, t, ht, hu⟩
  · exact hsame.symm ▸ hw
  · have hadd := EditFault.ofStructure_eq_ok_iff.mp ht
    exact whole_of_repair ((h.of_alike hcopy).addNode hk hadd)
      ((hw.of_alike h.wellFormed hcopy).addNode (h.of_alike hcopy).wellFormed hadd) hu

theorem whole_connect (s : Session σ) (h : s.editor.store.Regular) (hw : s.editor.store.Whole)
    (source target : String) : (s.connect source target).2.editor.store.Whole := by
  have hcopy := h.wellFormed.alike_copy
  rcases s.connect_store source target with hsame | ⟨plan, rest, hplan, t, ht, hu⟩
  · exact hsame.symm ▸ hw
  · have happly := EditFault.ofStructure_eq_ok_iff.mp ht
    exact whole_of_repair (h.apply_plan hplan hcopy happly) (hw.apply_plan h.wellFormed hplan hcopy happly) hu

theorem whole_updateConfig (s : Session σ) (h : s.editor.store.Regular) (hw : s.editor.store.Whole) (id : String)
    (overlay : Members) : (s.updateConfig id overlay).2.editor.store.Whole := by
  have hregular := h.of_alike h.wellFormed.alike_copy
  have hwhole := hw.of_alike h.wellFormed h.wellFormed.alike_copy
  rcases s.updateConfig_store id overlay with hsame | ⟨c, t, ht, hu⟩
  · exact hsame.symm ▸ hw
  · have halike := Store.alike_reconfigured hregular.wellFormed ht
    exact whole_of_repair (hregular.of_alike halike) (hwhole.of_alike hregular.wellFormed halike) hu

theorem whole_disconnect_iff (s : Session σ) (h : s.editor.store.Regular) (hw : s.editor.store.Whole) (id : String) :
    (s.disconnect id).2.editor.store.Whole ↔
      ¬ s.editor.store.Strands (Command.taken s.editor.store (.disconnect id)) := by
  have hcopy := h.wellFormed.alike_copy
  have hregular := h.of_alike hcopy
  cases he : s.editor.store.edge? id with
  | none =>
    have hsame : (s.disconnect id).2.editor.store = s.editor.store := by simp only [disconnect, Store.edge, he]
    rw [hsame, Command.taken, he]
    exact iff_of_true hw Store.not_strands_nil
  | some e =>
    obtain ⟨hmem, -⟩ := (h.indexed.edge?_eq_some_iff h.wellFormed).mp he
    cases hgroup : e.group with
    | none =>
      rw [Command.taken, he, Option.bind_some, hgroup]
      refine iff_of_true ?_ Store.not_strands_nil
      rcases s.disconnect_store id with hsame | ⟨e', he', t, ht, hu⟩
      · exact hsame.symm ▸ hw
      · obtain rfl := Option.some.inj (he.symm.trans he')
        have hmem' := hcopy.mem_links.mpr hmem
        have hremoved := hregular.removeEdge_of_disconnected hmem' hgroup ht
        have hwhole := hregular.whole_withoutEdge (hw.of_alike h.wellFormed hcopy) hgroup hremoved
        exact whole_of_repair (hregular.disconnected hmem' ht) hwhole hu
    | some group =>
      obtain ⟨first, second, hbranch⟩ := hw e hmem group hgroup
      have hguards : ∀ other, other ∈ [first.target] ↔ other ∈ s.editor.store.guardsIn group := fun other => by
        rw [hbranch.mem_guardsIn h, List.mem_singleton]
      rw [Command.taken, he, Option.bind_some, hgroup]
      refine h.whole_without_iff hw ((s.without_disconnect h he hgroup hbranch).congr hguards) ?_
      -- A guard is no Path, so no Path is taken away.
      intro other a b ha _ _ _ hgone
      have hpath := ha.path
      rw [(hbranch.mem_guardsIn h).mp hgone, hbranch.opens.guard] at hpath
      cases hpath

theorem whole_deleteNode_iff (s : Session σ) (h : s.editor.store.Regular) (hw : s.editor.store.Whole) (id : String) :
    (s.deleteNode id).2.editor.store.Whole ↔
      ¬ s.editor.store.Strands (Command.taken s.editor.store (.deleteNode id)) := by
  cases hn : s.editor.store.node? id with
  | none =>
    have hsame : (s.deleteNode id).2.editor.store = s.editor.store := by simp only [deleteNode, Store.node, hn]
    rw [hsame, Command.taken, hn]
    exact iff_of_true hw Store.not_strands_nil
  | some n =>
    cases hk : n.kind.isSentinel with
    | true =>
      have hsame : (s.deleteNode id).2.editor.store = s.editor.store := by
        simp only [deleteNode, Store.node, hn, hk, ↓reduceIte]
      rw [hsame, Command.taken, hn, Option.elim_some, if_pos hk]
      exact iff_of_true hw Store.not_strands_nil
    | false =>
      rw [Command.taken, hn, Option.elim_some, if_neg (by simp [hk])]
      exact h.whole_without_iff hw (s.without_deleteNode h hn hk)
        (h.takesGuards_guardsOf (Store.mem_of_node? hn).1)

/-- **A command leaves the branches whole exactly if it strands no guard.** -/
theorem whole_perform_iff (s : Session σ) (h : s.editor.store.Regular) (hw : s.editor.store.Whole) (c : Command) :
    (s.perform c).editor.store.Whole ↔ ¬ s.editor.store.Strands (c.taken s.editor.store) := by
  cases c with
  | addNode kind position config => exact iff_of_true (s.whole_addNode h hw kind position config) Store.not_strands_nil
  | connect source target => exact iff_of_true (s.whole_connect h hw source target) Store.not_strands_nil
  | disconnect id => exact s.whole_disconnect_iff h hw id
  | deleteNode id => exact s.whole_deleteNode_iff h hw id
  | updateConfig id overlay => exact iff_of_true (s.whole_updateConfig h hw id overlay) Store.not_strands_nil

end Session

end FormFlow
