import FormFlow.Proofs.LoopReferences
import FormFlow.Proofs.Repetition
import FormFlow.Proofs.CompiledGroups
/-!
What is known of compiled writes.

The checks of a compilation leave a desk at which every one of them comes to its verdict again, so the fields that a
node was judged by are the ones that are kept afterwards (`check_again_of_checkAll`). A node that writes records is
judged in passes over its mappings, and if none of them finds anything every mapping is complete, fits its field, and
every required field is written (`Inspection.whole_of_writes`). So its record lists all mappings (`run_writes`). An
empty text stands for nothing, and of fields that share a name the last one counts (`exists_blank_writes`).
-/

set_option autoImplicit false

namespace FormFlow

/-- What feeds a field fits it: a value that is not empty is picked from a picklist, from its values if they are known,
and an input of the form that is named and listed may feed the field. -/
structure FieldMapping.Fits (form : List (String × FormField)) (m : FieldMapping) (target : FieldInfo) : Prop where
  pick : ∀ value, m.pick = some value → value ≠ "" →
    Text.lower target.type ∈ Compatibility.picklistTypes ∧ ∀ choices, target.choices = some choices → value ∈ choices
  source : ∀ id, m.source = some id → id ≠ "" → ∀ f, form.lookup id = some f → Compatibility.mayFeed target f = true

/-- The writes of a node are whole: there are some, each is complete and fits a field of the object, and every required
field of the object is written. Of fields that share a name the last one counts. -/
structure CreateOrUpdateConfig.Whole (form : List (String × FormField)) (fields : List FieldInfo)
    (c : CreateOrUpdateConfig) : Prop where
  mappings_ne_nil : c.mappings ≠ []
  complete : ∀ m ∈ c.mappings, m.isComplete = true
  fits : ∀ m ∈ c.mappings, ∃ target, (FieldInfo.byName fields).lookup m.target = some target ∧ m.Fits form target
  required : ∀ name f, (FieldInfo.byName fields).lookup name = some f → f.isRequired = true →
    ∃ m ∈ c.mappings, m.target = name

/-! ## Judging writes -/

theorem Text.filled?_eq_some_iff {s : Option String} {t : String} : filled? s = some t ↔ s = some t ∧ t ≠ "" := by
  simp [filled?, Option.filter_eq_some_iff]

namespace Inspection

variable {form : List (String × FormField)} {row : Nat}

/-- A mapping without a problem is for a field that there is, and fits it. -/
theorem fits_of_mappingProblem {byName : List (String × FieldInfo)} {object : String} {m : FieldMapping}
    (h : mappingProblem form byName object m row = none) :
    ∃ target, byName.lookup m.target = some target ∧ m.Fits form target := by
  unfold mappingProblem at h
  cases htarget : byName.lookup m.target with
  | none =>
    rw [htarget] at h
    cases h
  | some target =>
    rw [htarget] at h
    obtain ⟨hpick, hsource⟩ := (Option.orElse_eq_none _ _).mp h
    refine ⟨target, rfl, fun value hvalue hfilled => ?_, fun id hid hfilled f hf => ?_⟩
    · rw [Text.filled?_eq_some_iff.mpr ⟨hvalue, hfilled⟩, Option.bind_some] at hpick
      obtain ⟨hkind, hchoices⟩ := (Option.orElse_eq_none _ _).mp hpick
      refine ⟨by simpa [Compatibility.isPicklist] using when_eq_none_iff.mp hkind, fun choices hknown => ?_⟩
      rw [hknown] at hchoices
      simpa using when_eq_none_iff.mp hchoices
    · rw [Text.filled?_eq_some_iff.mpr ⟨hid, hfilled⟩, Option.bind_some, sourceProblem, hf] at hsource
      simpa using when_eq_none_iff.mp hsource

/-- **A node that writes records and is found without a problem writes them whole.** -/
theorem whole_of_writes {c : CreateOrUpdateConfig} {fields : List FieldInfo} (h : writes form c fields = none) :
    c.Whole form fields := by
  simp only [writes, Option.orElse_eq_none] at h
  obtain ⟨hunmapped, hincomplete, hnone, hrows, -⟩ := h
  rw [List.findSome?_eq_none_iff] at hincomplete hrows
  have hrow : ∀ m ∈ c.mappings, ∃ row, (m, row) ∈ c.mappings.zipIdx 1 := fun m hm => by
    rw [← List.zipIdx_map_fst 1 c.mappings] at hm
    obtain ⟨⟨m, row⟩, hmem, rfl⟩ := List.mem_map.mp hm
    exact ⟨row, hmem⟩
  refine ⟨?_, fun m hm => ?_, fun m hm => ?_, fun name f hf hrequired => ?_⟩
  · simpa using when_eq_none_iff.mp hnone
  · obtain ⟨row, hmem⟩ := hrow m hm
    simpa using when_eq_none_iff.mp (hincomplete _ hmem)
  · obtain ⟨row, hmem⟩ := hrow m hm
    exact fits_of_mappingProblem (hrows _ hmem)
  · have hentry := Table.mem_of_lookup hf
    have hname : name = f.name := by
      obtain ⟨g, -, hg⟩ := List.mem_map.mp ((Table.nodup_ofPairs _).2 _ hentry)
      obtain ⟨rfl, rfl⟩ := Prod.mk.inj hg
      rfl
    have hnothing : unmapped (FieldInfo.byName fields) c.mappings = [] := by
      simpa using when_eq_none_iff.mp hunmapped
    have hout := List.filter_eq_nil_iff.mp (List.map_eq_nil_iff.mp hnothing) _ hentry
    have hmapped : ∃ m ∈ c.mappings, m.isComplete = true ∧ m.target = f.name := by simpa [hrequired] using hout
    obtain ⟨m, hm, -, htarget⟩ := hmapped
    exact ⟨m, hm, htarget.trans hname.symm⟩

end Inspection

/-! ## Compiling -/

namespace Inspection

variable {σ : Type} {n : Node} {d : Desk σ}

/-- An inspection that comes to its verdict at a desk without changing it went by a list that is kept there. -/
theorem judged_of_run {object : String} {judge : List FieldInfo → Option NodeProblem}
    (h : (ofObject object judge).run n d = (.ok (), d)) :
    ∃ fields, d.cache.lookup object = some fields ∧ judge fields = none := by
  unfold ofObject at h
  split at h
  · cases congrArg Prod.fst h
  · rw [Desk.run_byFields] at h
    obtain ⟨hverdict, hdesk⟩ := Prod.mk.inj h
    cases hfields : (d.fields object).1 with
    | error f =>
      rw [hfields] at hverdict
      cases hverdict
    | ok fields =>
      rw [hfields] at hverdict
      have hkept := Desk.lookup_of_fields hfields
      rw [hdesk] at hkept
      exact ⟨fields, hkept, verdict_eq_ok_iff.mp hverdict⟩

end Inspection

namespace Session

variable {σ : Type} {s : Session σ} {records : List Record}

/-- Nodes that are checked in turn without a fault are each checked without a fault at the desk that is left, which
stays as it is. -/
theorem check_again_of_checkAll {store : Store} {form : List (String × FormField)} {ids : List String} {d : Desk σ}
    (h : (checkAll store form d ids).1 = .ok ()) :
    ∀ id ∈ ids, store.check form id (checkAll store form d ids).2 = (.ok (), (checkAll store form d ids).2) := by
  induction ids generalizing d with
  | nil => nofun
  | cons id ids ih =>
    rcases hfirst : store.check form id d with ⟨f | ⟨⟩, after⟩
    · rw [checkAll_of_error hfirst] at h
      cases h
    · rw [checkAll_of_ok hfirst] at h ⊢
      refine List.forall_mem_cons.mpr ⟨?_, ih h⟩
      exact Store.check_again hfirst nofun (within_checkAll store form after ids)

/-- **A node of a workflow that compiles passes its inspection at the desk that is left.** -/
theorem run_of_compile (h : s.compile.1 = .ok records) {n : Node} (hn : s.editor.store.node? n.id = some n) :
    (s.editor.store.inspect s.editor.form n).run n s.checkedDesk = (.ok (), s.checkedDesk) := by
  obtain ⟨hisolated, hchecked, -⟩ := compile_fst_eq_ok_iff.mp h
  have hsequence : n ∈ s.editor.sequence := List.mem_mergeSort.mpr (Store.mem_of_node? hn).1
  have hcheck := check_again_of_checkAll hchecked n.id (List.mem_map_of_mem hsequence)
  rw [Store.check, Store.node_eq_ok_iff.mpr hn] at hcheck
  rw [checkedDesk, hisolated]
  exact hcheck

/-- **A workflow that compiles writes whole records.** -/
theorem whole_of_compile (h : s.compile.1 = .ok records) {n : Node} (hn : s.editor.store.node? n.id = some n)
    {c : CreateOrUpdateConfig} (hc : n.config = .createOrUpdate c) :
    ∃ fields, s.compile.2.desk.cache.lookup c.targetObject = some fields ∧ c.Whole s.editor.form fields := by
  have hrun := run_of_compile h hn
  rw [Store.inspect, hc] at hrun
  obtain ⟨fields, hkept, hjudged⟩ := Inspection.judged_of_run hrun
  exact ⟨fields, s.cache_compile ▸ hkept, Inspection.whole_of_writes hjudged⟩

end Session

/-- Writes that are whole are compiled whole. -/
theorem CreateOrUpdateConfig.Whole.get?_mappings {form : List (String × FormField)} {fields : List FieldInfo}
    {c : CreateOrUpdateConfig} (h : c.Whole form fields) :
    Members.get? (Config.createOrUpdate c).toRecord "field_mappings" =
      some (.list (c.mappings.map FieldMapping.toRecord)) := by
  have hall : c.mappings.filter FieldMapping.isComplete = c.mappings := List.filter_eq_self.mpr h.complete
  rw [Config.toRecord, hall]
  rfl

namespace Session

variable {σ : Type}

/-- **Compiled writes are complete.** Whatever editor is made, in every state that a run reaches, in whatever session
and with whatever tokens: if the workflow compiles, a node that writes records has one record, and it lists every
mapping of the node in order. By the fields of the node's object, which are kept after compiling, there are mappings,
each fits its field, and every required field is written. -/
theorem run_writes {e : Editor} (he : e.Made) (desk : Desk σ) (clock : Clock) (tokens : TokenSupply) (isHeard : Bool)
    (events : List Event) (turns : List (Turn σ)) {records : List Record}
    (hrecords : (run ⟨e, desk, clock, tokens, isHeard, events⟩ turns).compile.1 = .ok records) {n : Node}
    (hn : n ∈ (run ⟨e, desk, clock, tokens, isHeard, events⟩ turns).editor.store.nodes) {c : CreateOrUpdateConfig}
    (hc : n.config = .createOrUpdate c) :
    ∃ r fields, (∀ r' ∈ records, r'.nodeId = n.id ↔ r' = r) ∧ r ∈ records ∧
      Members.get? r.config "field_mappings" = some (.list (c.mappings.map FieldMapping.toRecord)) ∧
      (run ⟨e, desk, clock, tokens, isHeard, events⟩ turns).compile.2.desk.cache.lookup c.targetObject = some fields ∧
      c.Whole (run ⟨e, desk, clock, tokens, isHeard, events⟩ turns).editor.form fields := by
  have hgrounded := grounded_run turns ⟨e, desk, clock, tokens, isHeard, events⟩ he.grounded.1
  have hrecorded := recorded_of_compile hgrounded hrecords
  obtain ⟨r, hr, hid, -, hconfig⟩ := hrecorded.exists_of_mem hgrounded.wellFormed hn
  have hnode := hgrounded.wellFormed.node?_eq_some_iff.mpr ⟨hn, rfl⟩
  obtain ⟨fields, hkept, hwhole⟩ := whole_of_compile hrecords hnode hc
  have hnodup : (records.map (·.nodeId)).Nodup := hrecorded.ids_perm.nodup_iff.mpr hgrounded.wellFormed.ids_nodup
  refine ⟨r, fields, fun r' hr' => ⟨fun hsame => ?_, fun hsame => hsame ▸ hid⟩, hr, ?_, hkept, hwhole⟩
  · exact List.inj_on_of_nodup_map hnodup hr' hr (hsame.trans hid.symm)
  · rw [hconfig, hc]
    exact hwhole.get?_mappings

end Session

/-! ## Workflows that write -/

section Writing

variable (p : Point) (mappings : List FieldMapping) (fields : List FieldInfo) (form : List FormField)

/-- The writes of mappings to a person. -/
abbrev CreateOrUpdateConfig.writing : CreateOrUpdateConfig := ⟨"Person", mappings, false, .empty⟩

/-- A person with certain fields is written, from the inputs of a form. -/
def Document.writing : Document where
  formVersion := ""
  nodes := [
    ⟨startId, .start, p, [], none⟩,
    ⟨"person", .createOrUpdate, p, (Config.createOrUpdate (.writing mappings)).toMembers, none⟩,
    ⟨finishId, .finish, p, [], none⟩]
  edges := [⟨none, startId, "person", none⟩, ⟨none, "person", finishId, none⟩]
  formFields := form
  objects := [("Person", fields)]

/-- The store of that document. -/
def Store.writing : Store where
  nodes := [
    .unplaced startId (.default .start) p,
    .unplaced "person" (.createOrUpdate (.writing mappings)) p,
    .unplaced finishId (.default .finish) p]
  links := [.plain startId "person", .plain "person" finishId]
  index := [("estart-person", startId, "person"), ("eperson-end", "person", finishId)]

theorem Store.exists_writing (place : String → Seating) :
    ∃ n ∈ ((writing p mappings).copy.placedAs place).nodes, n.config = .createOrUpdate (.writing mappings) :=
  ⟨_, List.mem_cons_of_mem _ List.mem_cons_self, rfl⟩

variable {p mappings fields form}

/-- The document makes the store with nothing wrong if the writes are found without a problem. -/
theorem Document.makes_writing (hstore : (writing p mappings fields form).store = .ok (.writing p mappings))
    (hjudged : Inspection.writes (FormField.byId form) (.writing mappings) fields = none) :
    (writing p mappings fields form).Makes (.writing p mappings) where
  store := hstore
  accepted := by cbv
  connected place := by cbv
  passes place := by
    have hperson : Inspection.PassesBy [("Person", fields)]
        (.ofObject "Person" (Inspection.writes (FormField.byId form) (.writing mappings))) :=
      .ofObject (by decide) rfl hjudged
    exact List.forall_mem_cons.mpr
      ⟨.settled, List.forall_mem_cons.mpr ⟨hperson, List.forall_mem_singleton.mpr .settled⟩⟩

end Writing

/-- A name and a mail address come from the form, the state is picked, and the notes are fixed. -/
def FieldMapping.profile : List FieldMapping :=
  [⟨"Name", some "name", none, none⟩, ⟨"State", none, none, some "new"⟩, ⟨"Mail", some "mail", none, none⟩,
    ⟨"Notes", none, some "from the form", none⟩]

/-- The fields of a profile: the name and the state are required. -/
def FieldInfo.profile : List FieldInfo :=
  [⟨"Name", "", "string", true, none⟩, ⟨"State", "", "picklist", true, some ["new", "old"]⟩,
    ⟨"Mail", "", "email", false, none⟩, ⟨"Notes", "", "string", false, none⟩]

/-- The inputs of a profile. -/
def FormField.profile : List FormField := [⟨"name", "fullname", "", []⟩, ⟨"mail", "email", "", []⟩]

theorem Document.makes_profile (p : Point) :
    (Document.writing p FieldMapping.profile FieldInfo.profile FormField.profile).Makes
      (.writing p FieldMapping.profile) :=
  makes_writing (by cbv) (by decide +kernel)

/-- A mapping whose picked value and whose input are empty texts, so that its fixed text counts. -/
def FieldMapping.blank : FieldMapping := ⟨"Notes", some "", some "x", some ""⟩

/-- Two fields share a name; only the first is required. -/
def FieldInfo.notes : List FieldInfo :=
  [⟨"Code", "", "string", true, none⟩, ⟨"Code", "", "string", false, none⟩, ⟨"Notes", "", "string", false, none⟩]

/-- An input without a name, which may not feed notes. -/
def FormField.nameless : FormField := ⟨"", "file", "", []⟩

theorem Document.makes_notes (p : Point) :
    (Document.writing p [.blank] FieldInfo.notes [.nameless]).Makes (.writing p [.blank]) :=
  makes_writing (by cbv) (by decide +kernel)

namespace Session

/-- A profile compiles. -/
theorem exists_compile_profile (p : Point) :
    ∃ e records place,
      Editor.openOn (.writing p FieldMapping.profile FieldInfo.profile FormField.profile) .zero false = .ok e ∧
      e.store = (Store.writing p FieldMapping.profile).copy.placedAs place ∧ (informed e).compile.1 = .ok records :=
  exists_compile_of_makes (Document.makes_profile p) (by cbv) .zero false

/-- Notes compile. -/
theorem exists_compile_notes (p : Point) :
    ∃ e records place, Editor.openOn (.writing p [.blank] FieldInfo.notes [.nameless]) .zero false = .ok e ∧
      e.store = (Store.writing p [.blank]).copy.placedAs place ∧ (informed e).compile.1 = .ok records :=
  exists_compile_of_makes (Document.makes_notes p) (by cbv) .zero false

/-- A profile is written whole. -/
theorem run_writes_profile :
    ∃ e records r fields,
      Editor.openOn (.writing .origin FieldMapping.profile FieldInfo.profile FormField.profile) .zero false = .ok e ∧
      (informed e).compile.1 = .ok records ∧ r ∈ records ∧
      Members.get? r.config "field_mappings" = some (.list (FieldMapping.profile.map FieldMapping.toRecord)) ∧
      (informed e).compile.2.desk.cache.lookup "Person" = some fields ∧
      (CreateOrUpdateConfig.writing FieldMapping.profile).Whole e.form fields := by
  obtain ⟨e, records, place, he, hstore, hrecords⟩ := exists_compile_profile .origin
  obtain ⟨n, hn, hc⟩ := hstore ▸ Store.exists_writing .origin FieldMapping.profile place
  obtain ⟨r, fields, -, hr, hlisted, hkept, hwhole⟩ :=
    run_writes (Or.inr ⟨_, _, _, he⟩) _ _ _ _ _ [] hrecords hn hc
  exact ⟨e, records, r, fields, he, hrecords, hr, hlisted, hkept, hwhole⟩

/-- **Empty texts are not judged, and a later field of the same name hides a required one.** A workflow compiles whose
mapping has a picked value, an empty one, for a field that is not a picklist, and an input, with an empty id, that may
not feed the field, and no mapping is for the name of a required field. -/
theorem exists_blank_writes :
    ∃ e records n c fields, Editor.openOn (.writing .origin [.blank] FieldInfo.notes [.nameless]) .zero false = .ok e ∧
      (informed e).compile.1 = .ok records ∧ n ∈ e.store.nodes ∧ n.config = .createOrUpdate c ∧
      (informed e).desk.cache.lookup c.targetObject = some fields ∧
      (∃ m ∈ c.mappings, ∃ value target, m.pick = some value ∧
        (FieldInfo.byName fields).lookup m.target = some target ∧
        Text.lower target.type ∉ Compatibility.picklistTypes) ∧
      (∃ m ∈ c.mappings, ∃ id source target, m.source = some id ∧ e.form.lookup id = some source ∧
        (FieldInfo.byName fields).lookup m.target = some target ∧ Compatibility.mayFeed target source = false) ∧
      ∃ f ∈ fields, f.isRequired = true ∧ ∀ m ∈ c.mappings, m.target ≠ f.name := by
  obtain ⟨e, records, place, he, hstore, hrecords⟩ := exists_compile_notes .origin
  obtain ⟨n, hn, hc⟩ := hstore ▸ Store.exists_writing .origin [.blank] place
  have hkept : (informed e).desk.cache.lookup "Person" = some FieldInfo.notes := by
    rw [informed, Editor.objects_of_openOn he]
    rfl
  have hform : e.form.lookup "" = some FormField.nameless := by
    obtain ⟨t, -, rfl⟩ := Editor.openOn_eq_ok he
    rfl
  have htarget : (FieldInfo.byName FieldInfo.notes).lookup "Notes" = some ⟨"Notes", "", "string", false, none⟩ := rfl
  have hlower : Text.lower "string" = "string" := by decide +kernel
  have hpicklist : Text.lower "string" ∉ Compatibility.picklistTypes := by
    rw [hlower]
    decide
  refine ⟨e, records, n, _, _, he, hrecords, hn, hc, hkept, ?_, ?_, ?_⟩
  · exact ⟨.blank, List.mem_singleton_self _, _, _, rfl, htarget, hpicklist⟩
  · exact ⟨.blank, List.mem_singleton_self _, _, _, _, rfl, hform, htarget, by decide +kernel⟩
  · exact ⟨⟨"Code", "", "string", true, none⟩, List.mem_cons_self, rfl, by decide⟩

end Session

end FormFlow
