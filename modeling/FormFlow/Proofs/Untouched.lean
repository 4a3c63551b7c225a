import FormFlow.Proofs.LoopReferences
import FormFlow.Proofs.Repetition
/-!
What turns leave alone.

A change configures at most the node that its command names; every other node is as it was, gone, or new
(`Changes.node_cases`). A command keeps the lists of fields that are kept at the desk (`within_perform`). So along a run
that leaves a node and a list alone, the node has the configuration that it had, for as long as it is there, and the
list is kept (`Spared.run`).
-/

set_option autoImplicit false

namespace FormFlow

namespace Store

variable {s t u : Store} {id : String} {c : Config}

/-- Whatever node has the id, it has the configuration. -/
def Configured (s : Store) (id : String) (c : Config) : Prop := ∀ n ∈ s.nodes, n.id = id → n.config = c

/-- Repairing and placing keeps configurations, but for collections that are lost. -/
theorem Configured.config_of_repair {before : Store} (h : t.Configured id c)
    (hplaced : (t.repair before.loopReferences).1.recompute = .ok u) {n : Node} (hn : n ∈ u.nodes) (hid : n.id = id) :
    n.config = c ∨ n.config = c.withoutCollection := by
  have hmem : (n.id, n.config) ∈ u.configs := mem_configs.mpr ⟨n, hn, rfl, rfl⟩
  rw [configs_of_repair hplaced, List.mem_map] at hmem
  obtain ⟨⟨key, d⟩, hd, hsame⟩ := hmem
  obtain ⟨m, hm, rfl, rfl⟩ := mem_configs.mp hd
  obtain ⟨hkey, hconfig⟩ := Prod.mk.inj hsame
  rw [← hconfig, h m hm (hkey.trans hid)]
  split
  · exact Or.inr rfl
  · exact Or.inl rfl

/-- A configuration without a collection to lose is kept. -/
theorem Configured.of_repair {before : Store} (h : t.Configured id c) (hfixed : c.withoutCollection = c)
    (hplaced : (t.repair before.loopReferences).1.recompute = .ok u) : u.Configured id c := by
  intro n hn hid
  exact (h.config_of_repair hplaced hn hid).elim (fun hsame => hsame) fun hless => hless.trans hfixed

/-- A node that was configured has the configuration. -/
theorem configured_of_reconfigured (h : s.reconfigured id c = .ok t) : id ∈ t.ids ∧ t.Configured id c := by
  obtain ⟨m, hm, hreplaced⟩ := Table.bind_eq_ok.mp (EditFault.ofStructure_eq_ok_iff.mp h)
  obtain ⟨-, rfl⟩ := replaceNode_eq_ok hreplaced
  obtain ⟨hmem, rfl⟩ := mem_of_node? (node_eq_ok_iff.mp hm)
  refine ⟨mem_ids.mpr ⟨{ m with config := c }, List.mem_map.mpr ⟨m, hmem, if_pos rfl⟩, rfl⟩, fun n hn hid => ?_⟩
  obtain ⟨old, -, rfl⟩ := List.mem_map.mp hn
  split
  · rfl
  · next hother =>
    rw [if_neg hother] at hid
    exact absurd hid hother

/-- The nodes of a store with a connection were there before, or have a new id. -/
theorem mem_nodes_apply {plan : ConnectionPlan} (h : plan.apply s = .ok t) {n : Node} (hn : n ∈ t.nodes) :
    n ∈ s.nodes ∨ n.id ∉ s.ids := by
  obtain ⟨edges, guard⟩ := plan
  have hsame : ∀ {u : Store}, edges.foldlM addEdge u = .ok t → t.nodes = u.nodes := by
    intro u hedges
    exact Table.foldlM_induction (P := fun v => v.nodes = u.nodes) (fun hv ht => (nodes_addEdge ht).trans hv) rfl hedges
  cases guard with
  | none => exact Or.inl (hsame h ▸ hn)
  | some g =>
    obtain ⟨u, hu, hedges⟩ := Table.bind_eq_ok.mp h
    rw [hsame hedges, mem_nodes_addNode hu] at hn
    refine hn.imp_right ?_
    rintro rfl
    exact (addNode_eq_ok hu).1

end Store

namespace Session

variable {σ : Type} {s d after : Session σ} {id object : String} {c : Config} {fields : List FieldInfo}
  {command : Command} {changed : Store}

/-! ## Nodes -/

/-- A change keeps nodes as they are, but for new ones and the one that it configures. -/
theorem Changes.node_cases (h : s.Changes command changed) {n : Node} (hn : n ∈ changed.nodes) :
    n ∈ s.editor.store.nodes ∨ n.id ∉ s.editor.store.ids ∨ ∃ overlay, command = .updateConfig n.id overlay := by
  cases h with
  | addNode _ _ _ hadd =>
    rcases (Store.mem_nodes_addNode hadd).mp hn with hold | rfl
    · exact Or.inl hold
    · exact Or.inr (Or.inl (Store.addNode_eq_ok hadd).1)
  | connect _ _ happly => exact (Store.mem_nodes_apply happly hn).imp_right Or.inl
  | disconnect _ hremoved => exact Or.inl (Store.nodes_disconnected (s := s.editor.store.copy) hremoved hn)
  | deleteNode _ _ hdeleted => exact Or.inl (Store.nodes_deleted (s := s.editor.store.copy) hdeleted hn)
  | @updateConfig id overlay k d fetched _ _ _ _ hreconfigured =>
    obtain ⟨m, hm, hreplaced⟩ := Table.bind_eq_ok.mp (EditFault.ofStructure_eq_ok_iff.mp hreconfigured)
    obtain ⟨-, rfl⟩ := Store.replaceNode_eq_ok hreplaced
    obtain ⟨-, rfl⟩ := Store.mem_of_node? (Store.node_eq_ok_iff.mp hm)
    obtain ⟨old, hold, rfl⟩ := List.mem_map.mp hn
    split
    · exact Or.inr (Or.inr ⟨overlay, rfl⟩)
    · exact Or.inl hold

/-! ## Lists of fields -/

theorem cache_announce (s : Session σ) (e : Event) : (s.announce e).desk.cache = s.desk.cache := by
  unfold announce
  split <;> rfl

theorem cache_foldl_warn (warnings : List Warning) (s : Session σ) :
    (warnings.foldl warn s).desk.cache = s.desk.cache := by
  induction warnings generalizing s with
  | nil => rfl
  | cons w warnings ih => exact (ih (s.warn w)).trans (cache_announce _ _)

/-- A commit asks for no fields and drops none. -/
theorem cache_of_commit {kind : Change} {ids : List String} {change : Store → Except EditFault Store}
    {result : Except EditFault Unit} (h : s.commit kind ids change = (result, after)) :
    after.desk.cache = s.desk.cache := by
  unfold commit at h
  split at h
  · cases h
    rfl
  · cases h
    exact (cache_announce _ _).trans (cache_foldl_warn _ _)

theorem within_of_commit {kind : Change} {ids : List String} {change : Store → Except EditFault Store}
    {result : Except EditFault Unit} (h : d.commit kind ids change = (result, after))
    (hwithin : s.desk.Within d.desk) : s.desk.Within after.desk := by
  intro object fields hkept
  exact cache_of_commit h ▸ hwithin object fields hkept

theorem within_fetchChosen (s : Session σ) (object : String) (overlay : Members) :
    s.desk.Within (s.fetchChosen object overlay).2.desk := by
  unfold fetchChosen
  split
  · have hfields := s.desk.within_fields object
    split
    · next hfetched => rwa [hfetched] at hfields
    · next hfetched => rwa [hfetched] at hfields
  · exact s.desk.within_self

/-- **A command keeps the lists of fields that are kept.** -/
theorem within_perform (s : Session σ) (command : Command) : s.desk.Within (s.perform command).desk := by
  cases command with
  | addNode kind position config =>
    simp only [perform, addNode]
    split
    · exact s.desk.within_self
    · split
      · exact s.desk.within_self
      · split
        · exact s.desk.within_self
        · split
          · next hcommit => exact within_of_commit hcommit s.desk.within_self
          · next hcommit => exact (within_of_commit hcommit s.desk.within_self :)
  | connect source target =>
    simp only [perform, connect]
    split
    · exact s.desk.within_self
    · split
      · exact s.desk.within_self
      · exact s.desk.within_self
      · split
        · next hcommit => exact within_of_commit hcommit s.desk.within_self
        · next hcommit => exact (within_of_commit hcommit s.desk.within_self :)
  | disconnect id =>
    simp only [perform, disconnect]
    split
    · exact s.desk.within_self
    · exact within_of_commit rfl s.desk.within_self
  | deleteNode id =>
    simp only [perform, deleteNode]
    split
    · exact s.desk.within_self
    · split
      · exact s.desk.within_self
      · split
        · next hcommit => exact within_of_commit hcommit s.desk.within_self
        · next hcommit => exact (within_of_commit hcommit s.desk.within_self :)
  | updateConfig id overlay =>
    simp only [perform, updateConfig]
    split
    · exact s.desk.within_self
    · split
      · exact s.desk.within_self
      · next c _ =>
        have hfetched := s.within_fetchChosen c.targetObject overlay
        split
        · next hfetch => rwa [hfetch] at hfetched
        · next hfetch =>
          rw [hfetch] at hfetched
          exact within_of_commit rfl hfetched

/-! ## Runs -/

/-- The turn leaves the node of an id and the list of an object alone: it does not configure the node, it does not give
its id to another one, and it does not drop the list. -/
structure Spares (s : Session σ) (turn : Turn σ) (id object : String) (fields : List FieldInfo) : Prop where
  not_updated : ∀ overlay, turn = .command (.updateConfig id overlay) → ¬ s.Succeeds (.updateConfig id overlay)
  not_replaced : id ∈ (s.turn turn).editor.store.ids → id ∈ s.editor.store.ids
  not_invalidated : ∀ desk clock, turn = .meanwhile desk clock → desk.cache.lookup object = some fields

/-- Every turn of a run leaves the node of an id and the list of an object alone. -/
def Untouched (s : Session σ) (turns : List (Turn σ)) (id object : String) (fields : List FieldInfo) : Prop :=
  ∀ past turn, past ++ [turn] <+: turns → (s.run past).Spares turn id object fields

/-- Whatever node has the id has the configuration, and the list of the object is kept. -/
structure Holds (s : Session σ) (id : String) (c : Config) (object : String) (fields : List FieldInfo) : Prop where
  configured : s.editor.store.Configured id c
  cached : s.desk.cache.lookup object = some fields

/-- A turn that leaves them alone keeps the configuration of a node and the list of an object. -/
theorem Holds.turn {turn : Turn σ} (h : s.Holds id c object fields) (hfixed : c.withoutCollection = c)
    (hspares : s.Spares turn id object fields) : (s.turn turn).Holds id c object fields := by
  refine ⟨?_, ?_⟩
  · rcases s.turn_cases turn with hsame | ⟨command, changed, rfl, hchanges, hsucceeds, hadopts⟩
    · exact hsame ▸ h.configured
    · refine Store.Configured.of_repair (fun n hn hid => ?_) hfixed hadopts.placed
      rcases hchanges.node_cases hn with hold | hnew | ⟨overlay, rfl⟩
      · exact h.configured n hold hid
      · have hids := (Store.alike_of_repair hadopts.placed).ids_eq
        have hthere := hspares.not_replaced (hids ▸ hid ▸ Store.mem_ids_of_node hn)
        exact absurd (hid ▸ hthere) hnew
      · subst hid
        exact absurd hsucceeds (hspares.not_updated overlay rfl)
  · cases turn with
    | command command => exact s.within_perform command object fields h.cached
    | meanwhile desk clock => exact hspares.not_invalidated desk clock rfl

/-- **A run that leaves them alone keeps the configuration of a node and the list of an object.** -/
theorem Holds.run {turns : List (Turn σ)} (h : s.Holds id c object fields) (hfixed : c.withoutCollection = c)
    (huntouched : s.Untouched turns id object fields) : (s.run turns).Holds id c object fields := by
  induction turns using List.reverseRecOn with
  | nil => exact h
  | append_singleton turns turn ih =>
    have hbefore := ih fun past next hpast => huntouched past next (hpast.trans (List.prefix_append turns [turn]))
    rw [run_concat]
    exact hbefore.turn hfixed (huntouched turns turn List.prefix_rfl)

end Session

end FormFlow
