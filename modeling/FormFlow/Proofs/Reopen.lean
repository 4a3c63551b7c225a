import FormFlow.Proofs.Dumps
import FormFlow.Proofs.Recompile
/-!
Editors that are saved and opened again.

A document leaves out levels and labels, cannot tell an empty id or group of an edge from none, and names the inputs of
the form without their ids. Nothing of this is lost, since every state of an editor has filled names, holds what placing
gave it, and has its form under the ids of the inputs (`Savable`, `savable_run`). So if the check accepts the graph of a
state, and no value in a configuration is nested too deep to be written, the state has a document, which opens with the
same nodes and edges, and compiles to the same (`Savable.reopens`).
-/

set_option autoImplicit false

namespace FormFlow

namespace Store

variable {s t u : Store} {n : Node} {e : Edge}

/-! ## Filled names -/

/-- No name is empty: no id of a node, and no id or group of an edge. -/
structure Filled (s : Store) : Prop where
  ids : ∀ id ∈ s.ids, id ≠ ""
  edges : ∀ e ∈ s.links, e.Named

theorem named_idFor {source target : String} {group : Option String} (h : group ≠ some "") :
    Edge.Named ⟨Edge.idFor source target, source, target, group⟩ :=
  ⟨by simp [Edge.idFor], h⟩

namespace Filled

theorem of_part (h : s.Filled) (ht : Part t s) : t.Filled :=
  ⟨fun id hid => h.ids id (ht.mem_ids hid), fun e he => h.edges e (ht.mem_links he)⟩

theorem addNode (h : s.Filled) (hid : n.id ≠ "") (ht : s.addNode n = .ok t) : t.Filled := by
  refine ⟨fun id hmem => ?_, links_addNode ht ▸ h.edges⟩
  rcases (mem_ids_addNode ht).mp hmem with hmem | rfl
  · exact h.ids id hmem
  · exact hid

theorem addEdge (h : s.Filled) (he : e.Named) (ht : s.addEdge e = .ok t) : t.Filled := by
  refine ⟨ids_addEdge ht ▸ h.ids, fun f hf => ?_⟩
  rcases (mem_links_addEdge ht).mp hf with hf | rfl
  · exact h.edges f hf
  · exact he

theorem apply_plan {source target : String} {tokens rest : TokenSupply} {plan : ConnectionPlan} (h : u.Filled)
    (hplan : s.planConnection source target tokens = .ok (plan, rest)) (ht : plan.apply u = .ok t) : t.Filled := by
  rcases (planConnection_cases hplan).2 with ⟨-, rfl⟩ | ⟨-, path, goal, rfl, rfl, hbranch⟩
  · exact h.addEdge (named_idFor (by simp)) (apply_plain ht)
  · obtain ⟨guard, group, suffix, -, hname, -, -, hgroup, rfl⟩ := planBranch_eq_some hbranch
    obtain ⟨v, w, hnode, hfirst, hsecond⟩ := apply_branch ht
    have hfilled : some group ≠ some "" := fun heq => hgroup (Option.some.inj heq)
    have hguard : guard.id ≠ "" := by simp [hname]
    exact ((h.addNode hguard hnode).addEdge (named_idFor hfilled) hfirst).addEdge (named_idFor hfilled) hsecond

end Filled

theorem WellFormed.part_disconnected (hs : s.WellFormed) (ht : s.disconnected e = .ok t) : Part t s := by
  rcases disconnected_eq_ok ht with ⟨removed, hremoved⟩ | ⟨group, first, second, -, -, hremoved⟩
  · exact hs.part_removeEdge hremoved
  · exact hs.part_withoutNode hremoved

/-- What placing gave an accepted store stays when it is placed again. -/
theorem WellFormed.recompute_of_placed (hs : s.WellFormed) (h : s.Sound) (hplaced : t.recompute = .ok s) :
    s.recompute = .ok s := by
  have halike := (alike_recompute hplaced).symm
  exact ((halike.part hs).wellFormed hs).recompute_recompute (halike.sound hs h) hplaced

end Store

namespace Document

variable {d : Document} {s : Store}

theorem filled?_ne (text : Option String) : Text.filled? text ≠ some "" := by
  simp [Text.filled?, Option.filter_eq_some_iff]

/-- An edge is given an id if it has none, and an empty group is none. -/
theorem named_edge (e : EdgeSpec) : e.edge.Named := by
  refine ⟨?_, filled?_ne e.group⟩
  show (Text.filled? e.id).getD (Edge.idFor e.source e.target) ≠ ""
  cases hid : Text.filled? e.id with
  | none => simp [Edge.idFor]
  | some id => exact fun hempty => filled?_ne e.id (hid.trans (congrArg some hempty))

theorem id_of_nodeOf {n : NodeSpec} {m : Node} (h : nodeOf n = .ok m) : m.id = n.id := by
  unfold nodeOf at h
  split at h
  · cases h
    rfl
  · cases h

/-- The names of a store are filled if its document can be read. -/
theorem Valid.filled (hd : d.Valid) (h : d.store = .ok s) : s.Filled := by
  have hmissing : ∀ {id kind s t}, id ≠ "" → s.Filled → d.addMissing id kind s = .ok t → t.Filled := by
    intro id kind s t hid hs ht
    unfold addMissing at ht
    split at ht
    · cases ht
      exact hs
    · exact hs.addNode hid (ofStructure_eq_ok_iff.mp ht)
  have hspec : ∀ {s n t}, n.id ≠ "" → s.Filled → addSpec s n = .ok t → t.Filled := by
    intro s n t hid hs ht
    obtain ⟨m, hm, ht⟩ := addSpec_eq_ok ht
    exact hs.addNode (id_of_nodeOf hm ▸ hid) ht
  obtain ⟨opened, filled, closed, hopened, hfilled, hclosed, hedges⟩ := store_eq_ok h
  have hopen := hmissing (by decide) (s := .empty) ⟨nofun, nofun⟩ hopened
  have hfill := Table.foldlM_induction_of_forall hspec hd.ids_filled hopen hfilled
  have hclose := hmissing (by decide) hfill hclosed
  exact Table.foldlM_induction (fun hs ht => hs.addEdge (named_edge _) ht) hclose hedges

end Document

namespace FormField

/-- A form under the ids of its inputs is found again from the inputs. -/
theorem byId_again (fields : List FormField) : byId ((byId fields).map (·.2)) = byId fields := by
  refine Table.ofPairs_values FormField.id fun entry hentry => ?_
  obtain ⟨f, -, rfl⟩ := List.mem_map.mp hentry
  rfl

end FormField

namespace Editor

variable {e : Editor}

/-- Editors as they are started: fresh, or opened on a document that can be read. -/
def Started (e : Editor) : Prop :=
  (∃ form window, fresh form window = .ok e) ∨
    ∃ (d : Document) (window : Seconds) (sourceGiven : Bool), d.Valid ∧ openOn d window sourceGiven = .ok e

/-- What the document of an editor rests on: names that are filled, places as placing gave them, and a form under the
ids of its inputs. -/
structure Savable (e : Editor) : Prop where
  grounded : e.store.Grounded
  filled : e.store.Filled
  placed : ∃ t : Store, t.recompute = .ok e.store
  form : FormField.byId (e.form.map (·.2)) = e.form

theorem Started.savable (h : e.Started) : e.Savable := by
  rcases h with ⟨form, window, he⟩ | ⟨d, window, sourceGiven, hvalid, he⟩
  · have hgrounded : e.store.Grounded := (Made.grounded (Or.inl ⟨form, window, he⟩)).1
    unfold fresh at he
    split at he
    · next s hs =>
      cases he
      have hnames : Store.withSentinels.Filled := ⟨by decide, nofun⟩
      have hpart := (Store.alike_recompute hs).part Session.regular_withSentinels.wellFormed
      exact ⟨hgrounded, hnames.of_part hpart, ⟨_, hs⟩, FormField.byId_again form⟩
    · cases he
  · have hgrounded := (sound_of_openOn he).2
    obtain ⟨s, hs, rfl⟩ := openOn_eq_ok he
    obtain ⟨t, ht, -, hplaced⟩ := openStore_eq_ok hs
    have hwell := (Document.wellFormed_of_store ht).1
    have halike := (Store.alike_recompute hplaced).trans hwell.alike_copy
    exact ⟨hgrounded, (hvalid.filled ht).of_part (halike.part hwell), ⟨_, hplaced⟩, FormField.byId_again d.formFields⟩

/-- The first editor has the workflow of the second: its nodes with their places and labels, its edges, its form and
its objects. Both compile to the same, wherever field lists are asked for with the same answers. -/
structure SameWorkflow (e' e : Editor) : Prop where
  nodes : e'.store.nodes = e.store.nodes
  edges : e'.store.edges = e.store.edges
  form : e'.form = e.form
  objects : e'.objects = e.objects
  compiles : ∀ {σ τ : Type} (a : Session σ) (b : Session τ), a.editor = e → b.editor = e' →
    b.desk.SameAnswers a.desk → b.compile.1 = a.compile.1

/-- The document of an editor is what is written of its store. -/
theorem document_eq (e : Editor) (formVersion : String) : e.document formVersion =
    dumpWith e.store.freeValues (e.store.spec formVersion (e.form.map (·.2)) e.objects) := by
  rw [document, Store.snapshot_eq]

/-- What saving an editor and opening it again gives: if no value in a configuration is nested too deep, the editor has
a document, which can be read and opens with the same workflow. Otherwise it has none. -/
structure Reopens (e : Editor) (formVersion : String) (window : Seconds) (sourceGiven : Bool) : Prop where
  saved : (∀ v ∈ e.store.freeValues, v.isShallow = true) → ∃ d e', e.document formVersion = .ok d ∧ d.Valid ∧
    openOn d window sourceGiven = .ok e' ∧ e'.SameWorkflow e
  unsaved : ¬ (∀ v ∈ e.store.freeValues, v.isShallow = true) → e.document formVersion = .error .tooDeep

/-- **What can be saved opens again**, if the check accepts its graph. -/
theorem Savable.reopens (h : e.Savable) (hcheck : e.store.checkStructure = .ok ()) (formVersion : String)
    (window : Seconds) (sourceGiven : Bool) : e.Reopens formVersion window sourceGiven where
  saved hshallow := by
    obtain ⟨hgrounded, hfilled, ⟨t, hplaced⟩, hform⟩ := h
    have hwell := hgrounded.wellFormed
    have hsound := (Store.checkStructure_eq_ok_iff.mp hcheck).1
    have hfix := hwell.recompute_of_placed hsound hplaced
    have hopen := hwell.openStore_spec hgrounded.indexed hfilled.edges hcheck hfix formVersion (e.form.map (·.2))
      e.objects
    have hvalid := Document.valid_spec hwell hgrounded.indexed
      (fun n hn => hfilled.ids _ (Store.mem_ids_of_node hn)) hfilled.edges formVersion (e.form.map (·.2)) e.objects
    refine ⟨_, { onStore e.store.relisted (e.form.map (·.2)) window with
      objects := e.objects
      hasSource := sourceGiven || !e.objects.isEmpty }, ?_, hvalid, ?_, rfl, hwell.edges_copy, ?_, rfl, ?_⟩
    · rw [document_eq, dumpWith_of_forall hshallow]
    · rw [openOn, hopen]
      rfl
    · exact hform
    · rintro σ τ a b rfl hb hdesk
      have hrearranged : Store.Rearranged b.editor.store a.editor.store := hb ▸ hwell.rearranged_relisted
      exact Session.compile_eq_of_rearranged hrearranged hwell (hb ▸ hform) hdesk
  unsaved hdeep := by rw [document_eq, dumpWith_of_not_forall hdeep]

end Editor

theorem Document.valid_iterating (p : Point) : (Document.iterating p).Valid := by
  refine ⟨?_, ?_⟩
  · simp [iterating, startId, finishId]
  · cbv

theorem Config.freeValues_withoutCollection (c : Config) : c.withoutCollection.freeValues = c.freeValues := by
  cases c <;> rfl

namespace Store

theorem freeValues_eq (s : Store) : s.freeValues = s.configs.flatMap (·.2.freeValues) := by
  rw [freeValues, configs, List.flatMap_map]

/-- A commit neither adds values of any shape nor drops any. -/
theorem freeValues_of_repair {before changed after : Store}
    (hplaced : (changed.repair before.loopReferences).1.recompute = .ok after) :
    after.freeValues = changed.freeValues := by
  rw [freeValues_eq, configs_of_repair hplaced, freeValues_eq, List.flatMap_map]
  refine List.flatMap_congr fun entry _ => ?_
  dsimp only
  split
  · exact entry.2.freeValues_withoutCollection
  · rfl

/-- Without the Find the Loop is left beside the sentinels, and no value of any shape. -/
theorem left_iterating (p : Point) (place : String → Seating) :
    ∃ n t, ((Store.iterating p).copy.placedAs place).node? "people" = some n ∧
      ((Store.iterating p).copy.placedAs place).copy.deleted n = .ok t ∧ t.checkStructure = .ok () ∧
      t.freeValues = [] := by
  refine ⟨_, _, by cbv, by cbv, by cbv, by cbv⟩

end Store

namespace Session

variable {σ : Type} {s : Session σ} {c : Command} {changed : Store}

/-! ## Runs -/

/-- The names in the graph right after a command are filled. -/
theorem Changes.filled (h : s.Changes c changed) (hs : s.editor.store.Grounded) (hfilled : s.editor.store.Filled) :
    changed.Filled := by
  have hwell := hs.copy.wellFormed
  have hcopy : s.editor.store.copy.Filled := hfilled.of_part (hs.wellFormed.alike_copy.part hs.wellFormed)
  cases h with
  | addNode _ hname _ hadd =>
    obtain ⟨token, rfl⟩ := Store.freshName_eq_build hname
    exact hcopy.addNode (by simp [Node.unplaced]) hadd
  | connect _ hplan happly => exact hcopy.apply_plan hplan happly
  | disconnect _ hremoved => exact hcopy.of_part (hwell.part_disconnected hremoved)
  | deleteNode hn hkind hdeleted =>
    exact hcopy.of_part ((hs.copy.deleted (Store.mem_of_node? hn).1 hkind hdeleted).1.part hwell)
  | updateConfig _ _ _ hreconfigured => exact hcopy.of_part ((Store.alike_reconfigured hwell hreconfigured).part hwell)

/-- **Every turn leaves an editor that can be saved.** -/
theorem savable_turn (s : Session σ) (turn : Turn σ) (h : s.editor.Savable) : (s.turn turn).editor.Savable := by
  rcases s.turn_cases turn with hsame | ⟨c, changed, -, hchanges, -, hadopts⟩
  · exact hsame.symm ▸ h
  · have hgrounded := hchanges.edits.grounded h.grounded
    have halike := Store.alike_of_repair hadopts.placed
    refine ⟨hgrounded.of_alike halike, ?_, ⟨_, hadopts.placed⟩, hadopts.form ▸ h.form⟩
    exact (hchanges.filled h.grounded h.filled).of_part (halike.part hgrounded.wellFormed)

theorem savable_run (turns : List (Turn σ)) (s : Session σ) (h : s.editor.Savable) : (s.run turns).editor.Savable :=
  run_induction (P := Editor.Savable) savable_turn turns s h

end Session

/-! ## A value that is nested too deep -/

section Laden

variable (p : Point) (v : Value)

/-- A formatter is given the value as an option. -/
def Document.laden : Document where
  formVersion := ""
  nodes := [⟨startId, .start, p, [], none⟩,
    ⟨"format", .formatter, p, [("options", .record [("depth", v)])], none⟩,
    ⟨finishId, .finish, p, [], none⟩]
  edges := [⟨none, startId, "format", none⟩, ⟨none, "format", finishId, none⟩]
  formFields := []
  objects := []

/-- The store of that document. -/
def Store.laden : Store where
  nodes := [
    .unplaced startId (.default .start) p,
    .unplaced "format" (.formatter ⟨none, "", "", none, false, none, [("depth", v)]⟩) p,
    .unplaced finishId (.default .finish) p]
  links := [.plain startId "format", .plain "format" finishId]
  index := [("estart-format", startId, "format"), ("eformat-end", "format", finishId)]

theorem Document.store_laden : (Document.laden p v).store = .ok (Store.laden p v) := by
  cbv

theorem Store.checkStructure_laden : (Store.laden p v).checkStructure = .ok () := by
  cbv

theorem Document.valid_laden : (Document.laden p v).Valid :=
  ⟨by simp [laden, startId, finishId], by cbv⟩

theorem Document.freeValues_laden : (Document.laden p v).freeValues = [.record [("depth", v)]] := by
  rfl

theorem Store.freeValues_laden (place : String → Seating) :
    ((Store.laden p v).copy.placedAs place).freeValues = [v] := by
  cbv

end Laden

end FormFlow
