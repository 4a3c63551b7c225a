import FormFlow.Proofs.Expressions
import FormFlow.Proofs.Recompile
import FormFlow.Proofs.Reconciling
import FormFlow.Proofs.Records
import FormFlow.Proofs.Requests
/-!
What is known of a workflow that compiles.

No node is isolated, every node passed its inspection, and the store gave the records (`compile_fst_eq_ok_iff`). What
the source of field lists answered meanwhile is not kept, so of an inspection that asked for fields it is known that
there are fields by which it found nothing (`Inspection.Passes`). In a grounded store the records are those of the
graph (`Grounded.recorded`).
-/

set_option autoImplicit false

namespace FormFlow

/-- The inspection finds no problem: none at once, or none by some fields of the object that it asks for. -/
def Inspection.Passes : Inspection → Prop
  | settled problem => problem = none
  | byFields _ judge => ∃ fields, judge fields = none

namespace Inspection

variable {σ : Type} {n : Node}

theorem verdict_eq_ok_iff {problem : Option NodeProblem} : verdict n problem = .ok () ↔ problem = none := by
  cases problem with
  | none => simp [verdict]
  | some p => simp [verdict]

/-- An inspection that was carried out without a fault passes. -/
theorem passes_of_run {i : Inspection} {d : Desk σ} (h : (i.run n d).1 = .ok ()) : i.Passes := by
  cases i with
  | settled problem => exact verdict_eq_ok_iff.mp h
  | byFields object judge =>
    rw [Desk.run_byFields] at h
    cases hfields : (d.fields object).1 with
    | error f =>
      rw [hfields] at h
      cases h
    | ok fields =>
      rw [hfields] at h
      exact ⟨fields, verdict_eq_ok_iff.mp h⟩

/-- An inspection by the fields of an object passes if the object is chosen and some fields find nothing. -/
theorem passes_ofObject {object : String} {judge : List FieldInfo → Option NodeProblem}
    (h : (ofObject object judge).Passes) : ∃ fields, judge fields = none := by
  unfold ofObject at h
  split at h
  · cases h
  · exact h

theorem when_eq_none_iff {bad : Bool} {problem : NodeProblem} : Inspection.when bad problem = none ↔ bad = false := by
  cases bad <;> simp [Inspection.when]

end Inspection

/-- The records of a store are written exactly if no value that it exports is nested too deep. -/
theorem Store.compileWritten_eq_ok_iff {s : Store} {records : List Record} :
    s.compileWritten = .ok records ↔ s.compile = .ok records ∧ ∀ v ∈ s.exported, v.isShallow = true := by
  unfold compileWritten
  cases s.compile with
  | error f => simp
  | ok found =>
    show (dumpWith s.exported found).mapError _ = _ ↔ _
    by_cases h : ∀ v ∈ s.exported, v.isShallow = true
    · rw [dumpWith_of_forall h]
      simp only [Except.mapError, Except.ok.injEq, and_iff_left h]
    · rw [dumpWith_of_not_forall h]
      exact iff_of_false nofun fun hboth => h hboth.2

namespace Session

variable {σ : Type} {s : Session σ} {records : List Record}

/-! ## Checks -/

/-- Nodes that are checked in turn without a fault are each checked without a fault, at some desk. -/
theorem check_of_checkAll {store : Store} {form : List (String × FormField)} {ids : List String} {d : Desk σ}
    (h : (checkAll store form d ids).1 = .ok ()) : ∀ id ∈ ids, ∃ d' : Desk σ, (store.check form id d').1 = .ok () := by
  induction ids generalizing d with
  | nil => nofun
  | cons first ids ih =>
    rw [checkAll_cons] at h
    obtain ⟨⟨⟩, hfirst, hrest⟩ := Table.bind_eq_ok.mp h
    exact List.forall_mem_cons.mpr ⟨⟨d, hfirst⟩, ih hrest⟩

/-- Nodes that are each found without a fault at certain desks, which stay so, are all found so in turn. -/
theorem checkAll_of_check {store : Store} {form : List (String × FormField)} {P : Desk σ → Prop} {ids : List String}
    (h : ∀ id ∈ ids, ∀ d : Desk σ, P d → (store.check form id d).1 = .ok () ∧ P (store.check form id d).2)
    {d : Desk σ} (hd : P d) : (checkAll store form d ids).1 = .ok () := by
  induction ids generalizing d with
  | nil => rfl
  | cons id ids ih =>
    obtain ⟨hid, hids⟩ := List.forall_mem_cons.mp h
    obtain ⟨hfirst, hafter⟩ := hid d hd
    rw [checkAll_cons, hfirst]
    exact ih hids hafter

/-! ## Compiling -/

/-- A session compiles exactly if no node is isolated, every node passes its check, and the store gives the records and
exports no value that is nested too deep. -/
theorem compile_fst_eq_ok_iff : s.compile.1 = .ok records ↔
    s.editor.store.isolated? = none ∧
      (checkAll s.editor.store s.editor.form s.desk (s.editor.sequence.map (·.id))).1 = .ok () ∧
      s.editor.store.compile = .ok records ∧ ∀ v ∈ s.editor.store.exported, v.isShallow = true := by
  rw [compile_fst, ← Store.compileWritten_eq_ok_iff]
  cases s.editor.store.isolated? with
  | some n => simp
  | none =>
    cases (checkAll s.editor.store s.editor.form s.desk (s.editor.sequence.map (·.id))).1 with
    | error f => simp [Except.mapError, Except.bind]
    | ok => simp [Except.mapError, Except.bind]

/-- **Every node of a workflow that compiles passed its inspection.** -/
theorem passes_of_compile (h : s.compile.1 = .ok records) {id : String} {n : Node}
    (hn : s.editor.store.node? id = some n) : (s.editor.store.inspect s.editor.form n).Passes := by
  obtain ⟨-, hchecked, -⟩ := compile_fst_eq_ok_iff.mp h
  obtain ⟨hmem, rfl⟩ := Store.mem_of_node? hn
  have hsequence : n ∈ s.editor.sequence := List.mem_mergeSort.mpr hmem
  obtain ⟨d, hd⟩ := check_of_checkAll hchecked n.id (List.mem_map_of_mem hsequence)
  rw [Store.check, Store.node_eq_ok_iff.mpr hn] at hd
  exact Inspection.passes_of_run hd

/-- Every record is that of a node that passed its inspection. -/
theorem exists_node_of_compile (h : s.compile.1 = .ok records) {r : Record} (hr : r ∈ records) :
    ∃ n, s.editor.store.node? r.nodeId = some n ∧ r.kind = n.kind ∧ r.config = n.config.toRecord ∧
      (s.editor.store.inspect s.editor.form n).Passes := by
  obtain ⟨-, -, hcompiled, -⟩ := compile_fst_eq_ok_iff.mp h
  obtain ⟨-, placements, -, rfl⟩ := Store.compile_eq_ok_iff.mp hcompiled
  obtain ⟨n, p, hn, heq⟩ := Store.mem_recordsOf hr
  exact ⟨n, hn, heq ▸ rfl, heq ▸ rfl, passes_of_compile h hn⟩

end Session

namespace Store

variable {s : Store} {records : List Record}

/-- A node of the store is checked by carrying out its inspection. -/
theorem exists_inspect_of_mem {σ : Type} {id : String} (h : id ∈ s.ids)
    (form : List (String × FormField)) (d : Desk σ) :
    ∃ n, (n.id, n.config) ∈ s.configs ∧ s.check form id d = (s.inspect form n).run n d := by
  obtain ⟨n, hn⟩ := exists_node? h
  refine ⟨n, mem_configs.mpr ⟨n, (mem_of_node? hn).1, rfl, rfl⟩, ?_⟩
  rw [check, node_eq_ok_iff.mpr hn]

/-- **The records of a grounded store are those of its graph.** -/
theorem Grounded.recorded (h : s.Grounded) (hcompiled : s.compile = .ok records) : s.Recorded records := by
  obtain ⟨run, placements, hassign, hplaced⟩ := h.wellFormed.exists_placedAlong h.rooted
  obtain ⟨-, others, hothers, rfl⟩ := compile_eq_ok_iff.mp hcompiled
  obtain rfl := Except.ok.inj (hothers.symm.trans hassign)
  exact hplaced.recorded h.wellFormed

/-- A grounded store without isolated nodes gives records. -/
theorem Grounded.exists_compile (h : s.Grounded) (hisolated : s.isolated? = none) :
    ∃ records, s.compile = .ok records := by
  obtain ⟨run, placements, hassign, -⟩ := h.wellFormed.exists_placedAlong h.rooted
  exact ⟨_, compile_eq_ok_iff.mpr ⟨hisolated, placements, hassign, rfl⟩⟩

end Store

/-- What a session on a grounded store compiles to are the records of its graph. -/
theorem Session.recorded_of_compile {σ : Type} {s : Session σ} {records : List Record}
    (hs : s.editor.store.Grounded) (h : s.compile.1 = .ok records) : s.editor.store.Recorded records := by
  obtain ⟨-, -, hcompiled, -⟩ := compile_fst_eq_ok_iff.mp h
  exact hs.recorded hcompiled

/-- The record is the one that a list has for a node. -/
def Record.IsOf (r : Record) (records : List Record) (n : Node) : Prop :=
  r ∈ records ∧ ∀ r' ∈ records, r'.nodeId = n.id ↔ r' = r

namespace Session

variable {σ : Type} {s : Session σ} {records : List Record}

/-- The sessions that runs reach, whatever editor was made, in whatever session and with whatever tokens. -/
def Reached (s : Session σ) : Prop :=
  ∃ (before : Session σ) (turns : List (Turn σ)), before.editor.Made ∧ s = before.run turns

theorem Reached.grounded (h : s.Reached) : s.editor.store.Grounded := by
  obtain ⟨before, turns, hmade, rfl⟩ := h
  exact grounded_run turns before hmade.grounded.1

/-- **Every node of a workflow that compiles has one record.** It carries what the configuration of the node is compiled
to, and the node passed its inspection. -/
theorem Reached.exists_record (hs : s.Reached) (h : s.compile.1 = .ok records) {n : Node}
    (hn : n ∈ s.editor.store.nodes) :
    ∃ r : Record, r.IsOf records n ∧ r.config = n.config.toRecord ∧
      (s.editor.store.inspect s.editor.form n).Passes := by
  have hwell := hs.grounded.wellFormed
  have hrecorded := recorded_of_compile hs.grounded h
  obtain ⟨r, hr, hid, -, hconfig⟩ := hrecorded.exists_of_mem hwell hn
  have hnodup : (records.map (·.nodeId)).Nodup := hrecorded.ids_perm.nodup_iff.mpr hwell.ids_nodup
  have hnode : s.editor.store.node? n.id = some n := hwell.node?_eq_some_iff.mpr ⟨hn, rfl⟩
  refine ⟨r, ⟨hr, fun r' hr' => ⟨fun hsame => ?_, fun hsame => hsame ▸ hid⟩⟩, hconfig, passes_of_compile h hnode⟩
  exact List.inj_on_of_nodup_map hnodup hr' hr (hsame.trans hid.symm)

end Session

/-! ## Documents that compile -/

/-- The inspection finds no problem, by the fields of some objects if it asks for fields. -/
inductive Inspection.PassesBy (objects : ObjectFields) : Inspection → Prop where
  | settled : PassesBy objects (.settled none)
  | byFields {object : String} {judge : List FieldInfo → Option NodeProblem} {fields : List FieldInfo}
    (kept : objects.lookup object = some fields) (judged : judge fields = none) :
    PassesBy objects (.byFields object judge)

/-- An object that is chosen is passed by its fields. -/
theorem Inspection.PassesBy.ofObject {objects : ObjectFields} {object : String}
    {judge : List FieldInfo → Option NodeProblem} {fields : List FieldInfo} (hchosen : Text.isBlankText object = false)
    (hkept : objects.lookup object = some fields) (hjudged : judge fields = none) :
    PassesBy objects (ofObject object judge) := by
  rw [Inspection.ofObject, hchosen]
  exact .byFields hkept hjudged

/-- The desk gives the fields of the objects: it keeps them, or its source answers with them in whatever state. -/
def Desk.Knows {σ : Type} (d : Desk σ) (objects : ObjectFields) : Prop :=
  ∀ object fields, objects.lookup object = some fields →
    d.cache.lookup object = some fields ∨
      d.cache.lookup object = none ∧ ∀ state, (d.source state object).1.outcome = .ok fields

namespace Desk

variable {σ : Type} {d : Desk σ} {objects : ObjectFields}

/-- A desk that keeps the fields of objects and has no source. -/
def keeping (objects : ObjectFields) : Desk Unit := ⟨.absent, (), objects, []⟩

theorem knows_keeping (objects : ObjectFields) : (keeping objects).Knows objects := fun _ _ h => Or.inl h

/-- A desk knows the objects of its source. -/
theorem knows_ofObjects (objects : ObjectFields) (state : σ) : (fresh (.ofObjects objects) state).Knows objects := by
  intro object fields h
  refine Or.inr ⟨rfl, fun state => ?_⟩
  cases objects with
  | nil => cases h
  | cons entry rest =>
    show (SchemaSource.fixed _ state object).1.outcome = _
    rw [SchemaSource.fixed, h]

theorem source_fetch (d : Desk σ) (object : String) : (d.fetch object).2.source = d.source := by
  rcases h : d.source d.state object with ⟨⟨(_ | _) | _, _⟩, _⟩
  all_goals simp only [fetch, h]

/-- A fetch leaves the lists of other objects as they are. -/
theorem lookup_fetch_of_ne (d : Desk σ) {object other : String} (h : other ≠ object) :
    (d.fetch object).2.cache.lookup other = d.cache.lookup other := by
  rw [cache_fetch]
  split
  · rw [Table.lookup_put, if_neg h]
  · rfl

theorem Knows.fields (h : d.Knows objects) {object : String} {fields : List FieldInfo}
    (hobject : objects.lookup object = some fields) : (d.fields object).1 = .ok fields := by
  rcases h object fields hobject with hkept | ⟨hnone, hsource⟩
  · rw [fields_of_lookup hkept]
  · rw [fields_of_lookup_eq_none hnone, fetch_fst, hsource]
    rfl

/-- A desk still knows the objects after a request. -/
theorem Knows.after_fields (h : d.Knows objects) (object : String) : (d.fields object).2.Knows objects := by
  cases hkept : d.cache.lookup object with
  | some fields =>
    rw [fields_of_lookup hkept]
    exact h
  | none =>
    rw [fields_of_lookup_eq_none hkept]
    intro other fields hother
    by_cases hsame : other = object
    · -- The list that is missing is fetched, since the source has it.
      subst hsame
      obtain ⟨-, hsource⟩ := (h other fields hother).resolve_left fun hlist => nomatch hkept.symm.trans hlist
      refine Or.inl ?_
      rw [cache_fetch, hsource]
      exact (Table.lookup_put ..).trans (if_pos rfl)
    · rw [lookup_fetch_of_ne d hsame, source_fetch]
      exact h other fields hother

/-- At a desk that knows the objects, an inspection that passes by them finds no fault. -/
theorem Knows.run (h : d.Knows objects) {i : Inspection} (hi : i.PassesBy objects) (n : Node) :
    (i.run n d).1 = .ok () ∧ (i.run n d).2.Knows objects := by
  cases hi with
  | settled => exact ⟨rfl, h⟩
  | byFields hobject hjudged =>
    rw [run_byFields, h.fields hobject]
    exact ⟨Inspection.verdict_eq_ok_iff.mpr hjudged, h.after_fields _⟩

end Desk

/-- The document makes the store, and nothing is wrong with the store by the document's own objects: the check accepts
it, no node is isolated, and every node passes its inspection, wherever the nodes are placed. -/
structure Document.Makes (d : Document) (t : Store) : Prop where
  store : d.store = .ok t
  accepted : t.checkStructure = .ok ()
  connected : ∀ place, (t.copy.placedAs place).isolated? = none
  passes : ∀ place, ∀ entry ∈ t.configs,
    ((t.copy.placedAs place).inspect (FormField.byId d.formFields) (.unplaced entry.1 entry.2 .origin)).PassesBy
      d.objects

/-- A copy that is placed keeps the configurations. -/
theorem Store.configs_placedAs (s : Store) (place : String → Seating) :
    (s.copy.placedAs place).configs = s.configs := by
  rw [configs, configs, placedAs, List.map_map]
  rfl

theorem Store.exported_eq (s : Store) : s.exported = s.configs.flatMap (·.2.exported) := by
  rw [exported, configs, List.flatMap_map]

/-- An editor keeps the objects of the document that it was opened on. -/
theorem Editor.objects_of_openOn {d : Document} {window : Seconds} {sourceGiven : Bool} {e : Editor}
    (h : openOn d window sourceGiven = .ok e) : e.objects = d.objects := by
  obtain ⟨-, -, rfl⟩ := openOn_eq_ok h
  rfl

/-- An editor knows the inputs of the document that it was opened on. -/
theorem Editor.form_of_openOn {d : Document} {window : Seconds} {sourceGiven : Bool} {e : Editor}
    (h : openOn d window sourceGiven = .ok e) : e.form = FormField.byId d.formFields := by
  obtain ⟨-, -, rfl⟩ := openOn_eq_ok h
  rfl

namespace Session

/-- A session that knows the fields of the objects of the document. -/
def informed (e : Editor) : Session Unit := { alone e with desk := .keeping e.objects }

/-- A document that makes a store with nothing wrong is opened, and no node is found at fault at a desk that knows the
document's objects. -/
theorem exists_open_of_makes {d : Document} {t : Store} (h : d.Makes t) (window : Seconds) (sourceGiven : Bool) :
    ∃ e place, Editor.openOn d window sourceGiven = .ok e ∧ e.store = t.copy.placedAs place ∧
      e.store.isolated? = none ∧ e.store.exported = t.exported ∧
      ∀ {σ : Type} (desk : Desk σ), desk.Knows d.objects →
        (checkAll e.store e.form desk (e.sequence.map (·.id))).1 = .ok () := by
  obtain ⟨e, he, place, hstore⟩ := Editor.exists_openOn h.store h.accepted window sourceGiven
  have hform : e.form = FormField.byId d.formFields := Editor.form_of_openOn he
  have hexported : e.store.exported = t.exported := by
    rw [Store.exported_eq, hstore, Store.configs_placedAs, ← Store.exported_eq]
  refine ⟨e, place, he, hstore, hstore ▸ h.connected place, hexported, fun desk hdesk => ?_⟩
  refine checkAll_of_check (P := fun desk => desk.Knows d.objects) (fun id hid desk hdesk => ?_) hdesk
  obtain ⟨n, hn, rfl⟩ := List.mem_map.mp hid
  have hmem : n.id ∈ e.store.ids := Store.mem_ids_of_node (List.mem_mergeSort.mp hn)
  obtain ⟨m, hconfig, hcheck⟩ := Store.exists_inspect_of_mem hmem e.form desk
  rw [hstore, Store.configs_placedAs] at hconfig
  rw [hcheck]
  refine hdesk.run ?_ m
  rw [hstore, hform]
  exact h.passes place _ hconfig

/-- **A document compiles without a source** if it makes a store with nothing wrong that exports nothing nested too
deep. -/
theorem exists_compile_of_makes {d : Document} {t : Store} (h : d.Makes t)
    (hshallow : t.exported.all Value.isShallow = true) (window : Seconds) (sourceGiven : Bool) :
    ∃ e records place, Editor.openOn d window sourceGiven = .ok e ∧ e.store = t.copy.placedAs place ∧
      (informed e).compile.1 = .ok records := by
  obtain ⟨e, place, he, hstore, halone, hexported, hchecked⟩ := exists_open_of_makes h window sourceGiven
  obtain ⟨records, hrecords⟩ := (Editor.sound_of_openOn he).2.exists_compile halone
  have hobjects : (informed e).desk = .keeping d.objects := congrArg Desk.keeping (Editor.objects_of_openOn he)
  have hknows : (informed e).desk.Knows d.objects := hobjects ▸ Desk.knows_keeping d.objects
  refine ⟨e, records, place, he, hstore, compile_fst_eq_ok_iff.mpr ⟨halone, hchecked _ hknows, hrecords, ?_⟩⟩
  show ∀ v ∈ e.store.exported, v.isShallow = true
  rw [hexported]
  exact List.all_eq_true.mp hshallow

/-- An editor that was opened on a document is reached before any turn. -/
theorem reached_of_openOn {d : Document} {window : Seconds} {sourceGiven : Bool} {e : Editor}
    (h : Editor.openOn d window sourceGiven = .ok e) : (informed e).Reached :=
  ⟨informed e, [], Or.inr ⟨_, _, _, h⟩, rfl⟩

/-- A node of a document that compiles has one record, with what its configuration is compiled to. -/
theorem exists_record_of_config {d : Document} {t : Store} {window : Seconds} {sourceGiven : Bool} {e : Editor}
    {records : List Record} {place : String → Store.Seating} (he : Editor.openOn d window sourceGiven = .ok e)
    (hstore : e.store = t.copy.placedAs place) (h : (informed e).compile.1 = .ok records) {id : String} {c : Config}
    (hc : (id, c) ∈ t.configs) :
    ∃ n r, n ∈ e.store.nodes ∧ n.id = id ∧ n.config = c ∧ Record.IsOf r records n ∧ r.config = c.toRecord := by
  obtain ⟨n, hn, hid, rfl⟩ : ∃ n ∈ e.store.nodes, n.id = id ∧ n.config = c := by
    rw [← Store.configs_placedAs t place, ← hstore] at hc
    exact Store.mem_configs.mp hc
  obtain ⟨r, hr, hconfig, -⟩ := (reached_of_openOn he).exists_record h hn
  exact ⟨n, r, hn, hid, rfl, hr, hconfig⟩

end Session

/-! ## A workflow that compiles -/

/-- The name is a given value. -/
abbrev Condition.named (v : Value) : Condition := ⟨"Name", Operator.equals, v, .null⟩

theorem Condition.isComplete_named {v : Value} (h : v.isMissing = false) : (named v).isComplete = true := by
  simp only [isComplete, h]
  decide

/-- People by a name that is a given value. -/
abbrev FindConfig.naming (v : Value) : FindConfig := ⟨"Person", ⟨[.named v], .and, ""⟩, none, none, .ascending⟩

/-- People by their name. -/
abbrev FindConfig.people : FindConfig := .naming (.text "Ada")

/-- A Loop over people that ends at either of two names. -/
def LoopConfig.people : LoopConfig :=
  ⟨some "people", "item", none, false, false, ⟨[.named (.text "Ada"), .named (.text "Eve")], .custom, "1 OR 2"⟩, ""⟩

/-- People are found, narrowed, and run over. -/
def Document.narrowing (p : Point) : Document where
  formVersion := ""
  nodes := [
    ⟨startId, .start, p, [], none⟩,
    ⟨"people", .find, p, FindConfig.people.toMembers, none⟩,
    ⟨"named", .filter, p, (Config.filter ⟨.people, some "people"⟩).toMembers, none⟩,
    ⟨"each", .loop, p, (Config.loop .people).toMembers, none⟩,
    ⟨finishId, .finish, p, [], none⟩]
  edges := [⟨none, startId, "people", none⟩, ⟨none, "people", "named", none⟩, ⟨none, "named", "each", none⟩,
    ⟨none, "each", finishId, none⟩]
  formFields := []
  objects := [("Person", [⟨"Name", "Name", "string", false, none⟩])]

/-- The store of that document. -/
def Store.narrowing (p : Point) : Store where
  nodes := [
    .unplaced startId (.default .start) p,
    .unplaced "people" (.find .people) p,
    .unplaced "named" (.filter ⟨.people, some "people"⟩) p,
    .unplaced "each" (.loop .people) p,
    .unplaced finishId (.default .finish) p]
  links := [.plain startId "people", .plain "people" "named", .plain "named" "each", .plain "each" finishId]
  index := [("estart-people", startId, "people"), ("epeople-named", "people", "named"),
    ("enamed-each", "named", "each"), ("eeach-end", "each", finishId)]

theorem Inspection.query_naming {v : Value} (h : v.isMissing = false) :
    Inspection.query (.naming v) [⟨"Name", "Name", "string", false, none⟩] = none := by
  have htypes : FieldInfo.typesByName [⟨"Name", "Name", "string", false, none⟩] = [("Name", "string")] := rfl
  simp [Inspection.query, ConditionGroup.fault, ConditionGroup.complete, ConditionGroup.typeFault,
    Condition.isComplete_named h, htypes, Operator.equals_mem_forType, Text.filled?]

theorem Inspection.query_people : Inspection.query .people [⟨"Name", "Name", "string", false, none⟩] = none :=
  query_naming (by decide)

theorem Inspection.loop_people : Inspection.loop ["people"] .people = none := by
  have htokens : Logic.tokens "1 OR 2".toList = [.number ['1'], .word ['O', 'R'], .number ['2']] := by
    simp [Logic.tokens_cons, Logic.tokens_nil, (by decide : Text.isBlank ' ' = true),
      (by decide : Text.isBlank '1' = false), (by decide : Text.isBlank '2' = false),
      (by decide : Text.isBlank 'O' = false)]
  have hexpression : Logic.check "1 OR 2" 2 = none := by
    rw [Logic.check_eq_none_iff_derives, htokens]
    exact .joined (.term (.row (by decide) (by decide))) ⟨_, rfl, Or.inr (by decide)⟩ (.row (by decide) (by decide))
  have hexits : LoopConfig.people.exitConditions.fault false none = none := by
    simp [LoopConfig.people, ConditionGroup.fault, ConditionGroup.customFault, ConditionGroup.incompleteFault,
      Condition.isComplete_named (by decide : (Value.text "Ada").isMissing = false),
      Condition.isComplete_named (by decide : (Value.text "Eve").isMissing = false), hexpression,
      (by decide : Text.isBlankText "1 OR 2" = false)]
  rw [Inspection.loop, hexits]
  decide

section Narrowing

variable (p : Point) (place : String → Store.Seating)

theorem Store.findsBefore_narrowing (id : String) (h : id = "named" ∨ id = "each") :
    ((Store.narrowing p).copy.placedAs place).findsBefore id = ["people"] := by
  rcases h with rfl | rfl <;> cbv

theorem Document.makes_narrowing : (Document.narrowing p).Makes (.narrowing p) where
  store := by cbv
  accepted := by cbv
  connected place := by cbv
  passes place := by
    have hnamed := Store.findsBefore_narrowing p place "named" (Or.inl rfl)
    have heach := Store.findsBefore_narrowing p place "each" (Or.inr rfl)
    have hperson : Text.isBlankText "Person" = false := by decide
    refine List.forall_mem_cons.mpr ⟨.settled, List.forall_mem_cons.mpr
      ⟨.ofObject hperson rfl Inspection.query_people, List.forall_mem_cons.mpr
        ⟨.ofObject hperson rfl ?_, List.forall_mem_cons.mpr ⟨?_, List.forall_mem_singleton.mpr .settled⟩⟩⟩⟩
    · show (Inspection.query _ _ <|> Inspection.narrowed (Store.findsBefore _ "named") _) = none
      rw [hnamed, Inspection.query_people]
      decide
    · show Inspection.PassesBy _ (.settled (Inspection.loop (Store.findsBefore _ "each") .people))
      rw [heach, Inspection.loop_people]
      exact .settled

/-- The query of people in the store of that document. -/
theorem Store.node?_narrowing :
    (((narrowing p).copy.placedAs place).node? "people").map (fun n => n.config) = some (.find .people) := by
  cbv

end Narrowing

namespace Session

/-- An editor on that document compiles. -/
theorem exists_compile_narrowing (p : Point) (window : Seconds) (sourceGiven : Bool) :
    ∃ e records place, Editor.openOn (.narrowing p) window sourceGiven = .ok e ∧
      e.store = (Store.narrowing p).copy.placedAs place ∧ (informed e).compile.1 = .ok records :=
  exists_compile_of_makes (Document.makes_narrowing p) (by cbv) window sourceGiven

end Session

end FormFlow
