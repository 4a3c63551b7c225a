import FormFlow.CommandLine.Run
import FormFlow.Proofs.Compiled
import FormFlow.Proofs.StoredDocuments
/-!
Validating a workflow and compiling it agree.

Validating checks every node and lists what it finds; compiling stops at the first fault, and makes records of the
workflow if there is none. Up to the first fault both check the same nodes at the same desk, so the first fault decides
both (`compile_of_fault`, `head?_problems`), and a grounded workflow without flaws always has records
(`Flawless.exists_compile`). Validating does not write them. So the two commands end alike as long as the records can be
written, and what compiling says is what the list of validating begins with (`validate_agrees`).
-/

set_option autoImplicit false

namespace FormFlow

/-- What the list of problems says of a fault of a node. -/
def CheckFault.listed (id : String) : CheckFault → String
  | graph f => f.message
  | invalid n => n.message
  | collaborator f => id ++ ": " ++ f.message

/-- The records of the store can be written, if it has any. -/
def Store.Writable (s : Store) : Prop := ∀ records, s.compile = .ok records → ∀ r ∈ records, r.Writable

namespace Store

variable {σ : Type} {s : Store} {form : List (String × FormField)} {d : Desk σ} {id : String}

/-- The check of a node that is there is never about the graph. -/
theorem check_ne_graph (hid : id ∈ s.ids) (f : StructureFault) : (s.check form id d).1 ≠ .error (.graph f) := by
  obtain ⟨n, hn⟩ := exists_node? hid
  rw [check, node_eq_ok_iff.mpr hn]
  show ((s.inspect form n).run n d).1 ≠ _
  have hverdict : ∀ p, Inspection.verdict n p ≠ .error (.graph f) := fun p => by cases p <;> simp [Inspection.verdict]
  cases s.inspect form n with
  | settled p => exact hverdict p
  | byFields object judge =>
    rw [Desk.run_byFields]
    cases (d.fields object).1 with
    | ok fields => exact hverdict _
    | error g => simp

/-- What a grounded store exports is shallow if its records can be written. -/
theorem Grounded.isShallow_of_writable {records : List Record} (hs : s.Grounded) (hrecords : s.compile = .ok records)
    (h : ∀ r ∈ records, r.Writable) : ∀ v ∈ s.exported, v.isShallow = true := by
  intro v hv
  obtain ⟨n, hn, hv⟩ := List.mem_flatMap.mp hv
  obtain ⟨r, hr, -, -, hconfig⟩ := (hs.recorded hrecords).exists_of_mem hs.wellFormed hn
  exact Config.isShallow_of_toRecord (hconfig ▸ (h r hr).shallow) hv

end Store

namespace Session

variable {σ : Type}

/-! ## The first fault -/

/-- The first of some nodes that fails its check, with its fault. -/
def firstFault (store : Store) (form : List (String × FormField)) (d : Desk σ) :
    List String → Option (String × CheckFault)
  | [] => none
  | id :: rest =>
    match store.check form id d with
    | (.error f, _) => some (id, f)
    | (.ok (), d) => firstFault store form d rest

theorem firstFault_cons (store : Store) (form : List (String × FormField)) (d : Desk σ) (id : String)
    (rest : List String) : firstFault store form d (id :: rest) =
      match (store.check form id d).1 with
      | .error f => some (id, f)
      | .ok () => firstFault store form (store.check form id d).2 rest := by
  rw [firstFault]
  rcases store.check form id d with ⟨_ | ⟨⟩, _⟩ <;> rfl

/-- The first fault is that of one of the nodes. -/
theorem exists_check_of_firstFault {store : Store} {form : List (String × FormField)} {d : Desk σ} {ids : List String}
    {id : String} {f : CheckFault} (h : firstFault store form d ids = some (id, f)) :
    id ∈ ids ∧ ∃ d' : Desk σ, (store.check form id d').1 = .error f := by
  induction ids generalizing d with
  | nil => cases h
  | cons first rest ih =>
    rw [firstFault_cons] at h
    split at h
    · next g hg =>
      cases h
      exact ⟨List.mem_cons_self, d, hg⟩
    · obtain ⟨hid, hcheck⟩ := ih h
      exact ⟨List.mem_cons_of_mem _ hid, hcheck⟩

/-- Checks in turn end with the first fault. -/
theorem checkAll_fst (store : Store) (form : List (String × FormField)) (d : Desk σ) (ids : List String) :
    (checkAll store form d ids).1 = (firstFault store form d ids).elim (.ok ()) fun (_, f) => .error f := by
  induction ids generalizing d with
  | nil => rfl
  | cons id rest ih =>
    rw [checkAll_cons, firstFault_cons]
    cases (store.check form id d).1 with
    | error f => rfl
    | ok => exact ih _

theorem checkAll_fst_eq_ok_iff {store : Store} {form : List (String × FormField)} {d : Desk σ} {ids : List String} :
    (checkAll store form d ids).1 = .ok () ↔ firstFault store form d ids = none := by
  rw [checkAll_fst]
  cases firstFault store form d ids <;> simp

/-- Checking one node alone is checking it at the desk of the session. -/
theorem checkNode_fst (s : Session σ) (id : String) :
    (s.checkNode id).1 = (s.editor.store.check s.editor.form id s.desk).1 := by
  unfold checkNode
  rcases s.editor.store.check s.editor.form id s.desk with ⟨(_ | _ | _) | _, _⟩ <;> rfl

/-- A node without a fault leaves its traces at the desk only. -/
theorem checkNode_snd_of_ok {s : Session σ} {id : String} (h : (s.checkNode id).1 = .ok ()) :
    (s.checkNode id).2 = { s with desk := (s.editor.store.check s.editor.form id s.desk).2 } := by
  rw [checkNode_fst] at h
  unfold checkNode
  rcases hcheck : s.editor.store.check s.editor.form id s.desk with ⟨_ | _, _⟩
  · rw [hcheck] at h
    cases h
  · rfl

/-- The ids that are checked, in the order in which the nodes run. -/
def checked (s : Session σ) : List String := s.editor.sequence.map (·.id)

/-- The first node of a workflow that fails its check, with its fault. -/
def fault? (s : Session σ) : Option (String × CheckFault) :=
  firstFault s.editor.store s.editor.form s.desk s.checked

/-- No node of the workflow is isolated, and none fails its check. -/
def Flawless (s : Session σ) : Prop := s.editor.store.isolated? = none ∧ s.fault? = none

/-- The first fault is at a node of the workflow, and it is not about the graph. -/
theorem exists_node_of_fault {s : Session σ} {id : String} {f : CheckFault} (h : s.fault? = some (id, f)) :
    (∃ n ∈ s.editor.sequence, n.id = id) ∧ ∀ g, f ≠ .graph g := by
  obtain ⟨hid, d, hcheck⟩ := exists_check_of_firstFault h
  obtain ⟨n, hn, rfl⟩ := List.mem_map.mp hid
  refine ⟨⟨n, hn, rfl⟩, ?_⟩
  rintro g rfl
  exact Store.check_ne_graph (Store.mem_ids_of_node (List.mem_mergeSort.mp hn)) g hcheck

/-! ## Compiling -/

theorem compile_of_isolated {s : Session σ} {n : Node} (h : s.editor.store.isolated? = some n) :
    s.compile.1 = .error (.isolated n.name n.id) := by
  rw [compile_fst, h]

/-- Compiling fails with the first fault. -/
theorem compile_of_fault {s : Session σ} {id : String} {f : CheckFault} (hisolated : s.editor.store.isolated? = none)
    (h : s.fault? = some (id, f)) : s.compile.1 = .error (.ofCheck f) := by
  rw [compile_fst, hisolated, checkAll_fst, ← checked, ← fault?, h]
  rfl

/-- A grounded workflow without flaws has records, and compiling gives what is written of them. -/
theorem Flawless.exists_compile {s : Session σ} (h : s.Flawless) (hs : s.editor.store.Grounded) :
    (∃ records, s.editor.store.compile = .ok records) ∧ s.compile.1 = s.editor.store.compileWritten := by
  obtain ⟨hisolated, hfault⟩ := h
  refine ⟨hs.exists_compile hisolated, ?_⟩
  rw [compile_fst, hisolated, checkAll_fst, ← checked, ← fault?, hfault]
  rfl

end Session

/-- What the panel of a failed compilation says is what a list of problems begins with. If a party outside failed, the
list names the node that needed it first. -/
def Panel.Leads (told : Panel) (nodes : List Node) (problems : List String) : Prop :=
  told.title = "Compile Failed" ∧ problems.head? = some told.message ∨
    told.title = "Schema Unavailable" ∧ ∃ n ∈ nodes, problems.head? = some (n.id ++ ": " ++ told.message)

namespace Command

variable {s : Session Exchange} {around : Surroundings} {c : Command}

/-! ## The list of problems -/

/-- What validating finds: an isolated node, and what is wrong with each node. -/
def problems (s : Session Exchange) : List String := isolation s.editor.store ++ (nodeProblems s s.checked).1

theorem ending_runValidate (file : String) (s : Session Exchange) : (runValidate file s).ending =
    if problems s = [] then .done else .failed (Panel.problems file (problems s)) := by
  unfold problems Session.checked runValidate
  dsimp only
  split
  · next h => rw [if_pos h]
  · next h => rw [if_neg h]

/-- The list of the problems of nodes begins with the first fault. -/
theorem head?_nodeProblems (s : Session Exchange) (ids : List String) : (nodeProblems s ids).1.head? =
    (Session.firstFault s.editor.store s.editor.form s.desk ids).map fun (id, f) => f.listed id := by
  induction ids generalizing s with
  | nil => rfl
  | cons id rest ih =>
    rw [Session.firstFault_cons, ← Session.checkNode_fst]
    cases hcheck : (s.checkNode id).1 with
    | error f => cases f <;> simp only [nodeProblems, hcheck] <;> rfl
    | ok =>
      simp only [nodeProblems, hcheck, ih]
      rw [Session.checkNode_snd_of_ok hcheck]

theorem head?_problems_of_isolated {n : Node} (h : s.editor.store.isolated? = some n) :
    (problems s).head? = some (Record.isolatedMessage n.name n.id) := by
  rw [problems, isolation, h]
  rfl

theorem head?_problems (h : s.editor.store.isolated? = none) :
    (problems s).head? = s.fault?.map fun (id, f) => f.listed id := by
  rw [problems, isolation, h]
  exact head?_nodeProblems s s.checked

/-! ## The two commands -/

/-- What stopped compiling is that something could not be written. -/
inductive Unwritten : Stop → Prop where
  | values (fault : DumpFault) : Unwritten (.compiling (.undumped fault))
  | records (fault : DumpFault) : Unwritten (.records fault)

/-- **Records have a text** exactly if each of them can be written. -/
theorem recordsText_eq_ok_iff {rs : List Record} {text : String} :
    recordsText rs = .ok text ↔
      (∀ r ∈ rs, r.Writable) ∧ Json.write .indented (.list (rs.map Record.toValue)) = text := by
  have hdump : ∀ v : Value, v.dump (Json.write .indented) = .ok text ↔
      v.hasDigits = true ∧ Json.write .indented v = text := fun v => by
    unfold Value.dump
    split <;> simp_all
  constructor
  · intro h
    obtain ⟨values, hvalues, htext⟩ := Table.bind_eq_ok.mp h
    obtain ⟨hshallow, rfl⟩ := Record.dumpAll_eq_ok_iff.mp hvalues
    obtain ⟨hdigits, rfl⟩ := (hdump _).mp htext
    exact ⟨fun r hr => ⟨hshallow r hr, Value.hasDigits_list.mp hdigits _ (List.mem_map_of_mem hr)⟩, rfl⟩
  · rintro ⟨hwritable, htext⟩
    refine Table.bind_eq_ok.mpr ⟨_, Record.dumpAll_eq_ok_iff.mpr ⟨fun r hr => (hwritable r hr).shallow, rfl⟩, ?_⟩
    refine (hdump _).mpr ⟨Value.hasDigits_list.mpr fun v hv => ?_, htext⟩
    obtain ⟨r, hr, rfl⟩ := List.mem_map.mp hv
    exact (hwritable r hr).digits

/-- Compiling to the output ends well if there are records, and they can be written. -/
theorem ending_runCompile (around : Surroundings) (s : Session Exchange) : (runCompile none around s).ending =
    match s.compile.1 with
    | .error f => failure (.compiling f) (Panel.ofCompileFault? "Schema Unavailable" f)
    | .ok records =>
      match recordsText records with
      | .error f => .stopped (.records f)
      | .ok _ => .done := by
  unfold runCompile
  rcases s.compile with ⟨_ | records, _⟩
  · rfl
  · dsimp only
    cases recordsText records <;> rfl

theorem ending_runValidate_of_head {file text : String} (h : (problems s).head? = some text) :
    (runValidate file s).ending = .failed (Panel.problems file (problems s)) := by
  rw [ending_runValidate, if_neg]
  intro hnil
  rw [hnil] at h
  cases h

/-- On a grounded workflow without flaws, compiling to the output is done exactly if the records can be written, and it
is stopped by what cannot be written otherwise. -/
theorem compile_of_flawless (hflawless : s.Flawless) (hs : s.editor.store.Grounded) (around : Surroundings) :
    s.editor.store.Writable ∧ (runCompile none around s).ending = .done ∨
      ¬ s.editor.store.Writable ∧ ∃ cause, (runCompile none around s).ending = .stopped cause ∧ Unwritten cause := by
  obtain ⟨⟨records, hrecords⟩, hcompile⟩ := hflawless.exists_compile hs
  have hwritable : s.editor.store.Writable ↔ ∀ r ∈ records, r.Writable := by
    refine ⟨fun h => h records hrecords, fun h others hothers => ?_⟩
    rwa [← Except.ok.inj (hrecords.symm.trans hothers)]
  rw [ending_runCompile, hcompile, hwritable]
  by_cases hshallow : ∀ v ∈ s.editor.store.exported, v.isShallow = true
  · rw [Store.compileWritten_eq_ok_iff.mpr ⟨hrecords, hshallow⟩]
    dsimp only
    cases htext : recordsText records with
    | ok text => exact Or.inl ⟨(recordsText_eq_ok_iff.mp htext).1, rfl⟩
    | error f =>
      refine Or.inr ⟨fun h => ?_, _, rfl, .records f⟩
      cases htext.symm.trans (recordsText_eq_ok_iff.mpr ⟨h, rfl⟩)
  · have hunwritten : s.editor.store.compileWritten = .error (.undumped .tooDeep) := by
      simp only [Store.compileWritten, hrecords, dumpWith_of_not_forall hshallow]
      rfl
    rw [hunwritten]
    exact Or.inr ⟨fun h => hshallow (hs.isShallow_of_writable hrecords h), _, rfl, .values .tooDeep⟩

/-- On a grounded workflow with a flaw both commands fail, and compiling tells what the list of problems begins with. -/
theorem runs_of_flaw (hflaw : ¬ s.Flawless) (file : String) (around : Surroundings) :
    ∃ told, (runCompile none around s).ending = .failed told ∧
      (runValidate file s).ending = .failed (Panel.problems file (problems s)) ∧
      told.Leads s.editor.sequence (problems s) := by
  rw [ending_runCompile]
  cases hisolated : s.editor.store.isolated? with
  | some n =>
    have hhead := head?_problems_of_isolated hisolated
    rw [Session.compile_of_isolated hisolated]
    exact ⟨_, rfl, ending_runValidate_of_head hhead, Or.inl ⟨rfl, hhead⟩⟩
  | none =>
    have hhead := head?_problems hisolated
    cases hfault : s.fault? with
    | none => exact absurd ⟨hisolated, hfault⟩ hflaw
    | some found =>
      obtain ⟨id, f⟩ := found
      obtain ⟨⟨n, hn, rfl⟩, hgraph⟩ := Session.exists_node_of_fault hfault
      rw [hfault] at hhead
      rw [Session.compile_of_fault hisolated hfault]
      cases f with
      | graph g => exact absurd rfl (hgraph g)
      | invalid m => exact ⟨_, rfl, ending_runValidate_of_head hhead, Or.inl ⟨rfl, hhead⟩⟩
      | collaborator g => exact ⟨_, rfl, ending_runValidate_of_head hhead, Or.inr ⟨rfl, n, hn, hhead⟩⟩

/-- On a workflow without flaws validating is done. -/
theorem validate_of_flawless (h : s.Flawless) (file : String) : (runValidate file s).ending = .done := by
  have hhead := head?_problems h.1
  rw [h.2] at hhead
  rw [ending_runValidate, if_pos (List.head?_eq_none_iff.mp hhead)]

/-! ## Opening -/

/-- The session that a command opens on its workflow with its settings, or how the command ends without one. -/
def opened (c : Command) (around : Surroundings) : Except Ending (Session Exchange) := do
  let settings ← c.readSettings around
  let d ← c.readWorkflow around
  openWorkflow d settings around

theorem readSettings_ne_done : c.readSettings around ≠ .error .done := by
  unfold readSettings
  split
  · simp
  · split
    · simp
    · split <;> simp

theorem failure_ne_done (cause : Stop) (p : Option Panel) : failure cause p ≠ .done := by
  cases p <;> simp [failure]

theorem readWorkflow_ne_done : c.readWorkflow around ≠ .error .done := by
  simp only [readWorkflow]
  split
  · simp
  · split <;> simp [failure_ne_done]

theorem openWorkflow_ne_done {d : Document} {settings : Option Settings} :
    openWorkflow d settings around ≠ .error .done := by
  simp only [openWorkflow]
  split <;> simp [failure_ne_done]

/-- Without a session a command is not done. -/
theorem opened_ne_done : c.opened around ≠ .error .done := by
  intro h
  unfold opened at h
  cases hsettings : c.readSettings around with
  | error e =>
    rw [hsettings] at h
    cases h
    exact readSettings_ne_done hsettings
  | ok settings =>
    cases hworkflow : c.readWorkflow around with
    | error e =>
      rw [hsettings, hworkflow] at h
      cases h
      exact readWorkflow_ne_done hworkflow
    | ok d =>
      rw [hsettings, hworkflow] at h
      exact openWorkflow_ne_done h

theorem grounded_of_openWorkflow {d : Document} {settings : Option Settings}
    (h : openWorkflow d settings around = .ok s) : s.editor.store.Grounded := by
  simp only [openWorkflow] at h
  split at h
  · cases h
  · next e he =>
    cases h
    exact (Editor.sound_of_openOn he).2

/-- A session that was opened is on a grounded store. -/
theorem grounded_of_opened (h : c.opened around = .ok s) : s.editor.store.Grounded := by
  obtain ⟨settings, -, hrest⟩ := Table.bind_eq_ok.mp h
  obtain ⟨d, -, hopen⟩ := Table.bind_eq_ok.mp hrest
  exact grounded_of_openWorkflow hopen

/-- A command that does something with the session that it opens ends as that does, or as the opening. -/
theorem ending_run {act : Session Exchange → Done} (hact : ∀ settings, c.carryOut settings around =
      c.readWorkflow around >>= fun d => openWorkflow d settings around >>= fun s => pure (act s))
    (o : GlobalOptions) : (c.run o around).ending =
      match c.opened around with
      | .error e => e
      | .ok s => (act s).ending := by
  unfold run opened
  cases c.readSettings around with
  | error e => rfl
  | ok settings =>
    simp only [report, hact, bind, Except.bind, pure, Except.pure]
    cases c.readWorkflow around with
    | error e => rfl
    | ok d =>
      dsimp only
      cases openWorkflow d settings around <;> rfl

theorem ending_validate (workflow : Path) (settings : Option Path) (o : GlobalOptions) (around : Surroundings) :
    ((validate workflow settings).run o around).ending =
      match (validate workflow settings).opened around with
      | .error e => e
      | .ok s => (runValidate workflow.name s).ending := by
  refine ending_run (fun given => ?_) o
  simp only [carryOut, bind_assoc, pure_bind]

/-- Compiling opens a workflow as validating does. -/
theorem ending_compile (workflow : Path) (settings : Option Path) (o : GlobalOptions) (around : Surroundings) :
    ((compile workflow none settings).run o around).ending =
      match (validate workflow settings).opened around with
      | .error e => e
      | .ok s => (runCompile none around s).ending := by
  have hopened : (validate workflow settings).opened around = (compile workflow none settings).opened around := by
    simp only [opened, readSettings, readWorkflow, Command.settings, Command.workflow]
  rw [hopened]
  refine ending_run (fun given => ?_) o
  simp only [carryOut, bind_assoc, pure_bind]

theorem code_eq_zero_iff {e : Ending} : e.code = 0 ↔ e = .done := by cases e <;> simp [Ending.code]

end Command

/-! ## Records that cannot be written -/

section Asking

variable (p : Point) (v : Value)

/-- People are found by a name that is the value. -/
def Document.asking : Document where
  formVersion := ""
  nodes := [
    ⟨startId, .start, p, [], none⟩,
    ⟨"people", .find, p, [("target_object", .text "Person"),
      ("conditions", .record [("conditions", .list [.record [("field", .text "Name"), ("value", v)]])])], none⟩,
    ⟨finishId, .finish, p, [], none⟩]
  edges := [⟨none, startId, "people", none⟩, ⟨none, "people", finishId, none⟩]
  formFields := []
  objects := [("Person", [⟨"Name", "Name", "string", false, none⟩])]

/-- The store of that document. -/
def Store.asking : Store where
  nodes := [
    .unplaced startId (.default .start) p,
    .unplaced "people" (.find (.naming v)) p,
    .unplaced finishId (.default .finish) p]
  links := [.plain startId "people", .plain "people" finishId]
  index := [("estart-people", startId, "people"), ("epeople-end", "people", finishId)]

theorem Document.valid_asking : (Document.asking p v).Valid :=
  ⟨by simp [asking, startId, finishId], by cbv⟩

theorem Document.makes_asking (h : v.isMissing = false) : (Document.asking p v).Makes (.asking p v) where
  store := by cbv
  accepted := by cbv
  connected place := by cbv
  passes place := by
    have hpeople : Inspection.PassesBy (asking p v).objects (.ofObject "Person" (Inspection.query (.naming v))) :=
      .ofObject (by decide) rfl (Inspection.query_naming h)
    exact List.forall_mem_cons.mpr
      ⟨.settled, List.forall_mem_cons.mpr ⟨hpeople, List.forall_mem_singleton.mpr .settled⟩⟩

theorem Store.mem_exported_asking (h : v.isMissing = false) : v ∈ (Store.asking p v).exported := by
  simp [exported, asking, Node.unplaced, Config.exported, ConditionGroup.exported, ConditionGroup.complete,
    Condition.isComplete_named h, Condition.values]

end Asking

/-- A file that stores the document of people with a name that is the value. -/
def Surroundings.asking (v : Value) : Surroundings where
  files := [(.ofText "w.json", Json.write .indented (.record (Document.asking .origin v).storedMembers))]
  folders := []
  environment := []
  exchange := ⟨[], []⟩
  reader := fun _ _ => .ok (.record (Document.asking .origin v).storedMembers)

namespace Command

/-- The workflow of that file is opened and has no flaw. -/
theorem exists_flawless_asking {v : Value} (h : v.isMissing = false) :
    ∃ s, (validate (.ofText "w.json") none).opened (.asking v) = .ok s ∧ s.Flawless ∧ v ∈ s.editor.store.exported := by
  obtain ⟨e, place, he, -, halone, hexported, hchecked⟩ :=
    Session.exists_open_of_makes (Document.makes_asking .origin v h) defaultWindow false
  let text := Json.write .indented (.record (Document.asking .origin v).storedMembers)
  have hfile : (Surroundings.asking v).files.lookup (.ofText "w.json") = some text := rfl
  have hread : ∀ form file,
      Document.ofText (Surroundings.asking v).reader form file text = .ok (.asking .origin v) := by
    intro form file
    simp only [Document.ofText, Surroundings.asking, Document.read_storedMembers (Document.valid_asking .origin v)]
  have hworkflow : (validate (.ofText "w.json") none).readWorkflow (.asking v) = .ok (.asking .origin v) := by
    simp only [readWorkflow, Command.workflow, hfile, hread]
  have hdesk := Desk.knows_ofObjects (Document.asking .origin v).objects (⟨[], []⟩ : Exchange)
  refine ⟨⟨e, .fresh (.ofObjects (Document.asking .origin v).objects) ⟨[], []⟩, ⟨.zero⟩, .ofList [], false, []⟩, ?_,
    ⟨halone, Session.checkAll_fst_eq_ok_iff.mp (hchecked _ hdesk)⟩, hexported ▸ Store.mem_exported_asking .origin v h⟩
  rw [opened, hworkflow]
  show openWorkflow (.asking .origin v) none (.asking v) = _
  simp only [openWorkflow, Option.map_none, Option.bind_none, Option.getD_none, Option.isSome_none, he]
  rfl

end Command

end FormFlow
