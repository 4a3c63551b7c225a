import FormFlow.Proofs.Recompile
import FormFlow.Proofs.Requests
/-!
Compiling a workflow twice.

A desk only gains lists while nodes are checked. So a check that came to a verdict comes to the same verdict at every
desk that has the lists kept by then, and leaves that desk as it is, whatever its source would answer
(`Store.check_again`); and so do the checks up to the first node that fails (`Session.checkAll_again`). Unless a party
outside failed, compiling again gives the same and calls nobody (`Session.compile_again`).
-/

set_option autoImplicit false

namespace FormFlow

variable {σ τ : Type}

namespace Desk

variable {d : Desk σ} {e : Desk τ} {object : String} {fields : List FieldInfo}

/-- The lists of one desk are kept at the other too. -/
def Within (d : Desk σ) (e : Desk τ) : Prop :=
  ∀ object fields, d.cache.lookup object = some fields → e.cache.lookup object = some fields

theorem within_self (d : Desk σ) : d.Within d := fun _ _ h => h

theorem Within.trans {ρ : Type} {c : Desk ρ} (h : c.Within d) (hnext : d.Within e) : c.Within e :=
  fun object fields hkept => hnext object fields (h object fields hkept)

theorem within_fields (d : Desk σ) (object : String) : d.Within (d.fields object).2 := fun _ _ hkept =>
  (lookup_serve (r := .fields object)).mpr (Or.inr ⟨hkept, nofun⟩)

/-- The list that is given is kept. -/
theorem lookup_of_fields (h : (d.fields object).1 = .ok fields) :
    (d.fields object).2.cache.lookup object = some fields := by
  cases hkept : d.cache.lookup object with
  | some list =>
    rw [fields_of_lookup hkept] at h ⊢
    cases h
    exact hkept
  | none =>
    rw [fields_of_lookup_eq_none hkept] at h ⊢
    rw [fetch_fst] at h
    rw [cache_fetch]
    cases houtcome : (d.source d.state object).1.outcome with
    | error fault =>
      rw [houtcome] at h
      cases h
    | ok list =>
      rw [houtcome] at h
      cases h
      exact (Table.lookup_put d.cache object fields object).trans (if_pos rfl)

end Desk

/-! ## Checks -/

theorem Inspection.within_run (n : Node) (d : Desk σ) (i : Inspection) : d.Within (i.run n d).2 := by
  cases i with
  | settled p => exact d.within_self
  | byFields object judge =>
    rw [Desk.run_byFields]
    exact d.within_fields object

/-- An inspection that came to a verdict comes to it again where the lists are kept, and changes nothing there. -/
theorem Inspection.run_again {n : Node} {d after : Desk σ} {e : Desk τ} {i : Inspection}
    {verdict : Except CheckFault Unit} (hrun : i.run n d = (verdict, after))
    (h : ∀ f, verdict ≠ .error (.collaborator f)) (hwithin : after.Within e) : i.run n e = (verdict, e) := by
  cases i with
  | settled p =>
    cases hrun
    rfl
  | byFields object judge =>
    rw [Desk.run_byFields] at hrun ⊢
    obtain ⟨rfl, rfl⟩ := Prod.mk.inj hrun
    cases hfields : (d.fields object).1 with
    | error f =>
      rw [hfields] at h
      exact absurd rfl (h f)
    | ok fields =>
      rw [Desk.fields_of_lookup (hwithin object fields (Desk.lookup_of_fields hfields))]

theorem Store.within_check (s : Store) (form : List (String × FormField)) (id : String) (d : Desk σ) :
    d.Within (s.check form id d).2 := by
  unfold Store.check
  cases s.node id with
  | error f => exact d.within_self
  | ok n => exact Inspection.within_run n d _

/-- So does the check of a node. -/
theorem Store.check_again {s : Store} {form : List (String × FormField)} {id : String} {d after : Desk σ} {e : Desk τ}
    {verdict : Except CheckFault Unit} (hcheck : s.check form id d = (verdict, after))
    (h : ∀ f, verdict ≠ .error (.collaborator f)) (hwithin : after.Within e) : s.check form id e = (verdict, e) := by
  unfold Store.check at hcheck ⊢
  cases hnode : s.node id with
  | error f =>
    rw [hnode] at hcheck
    cases hcheck
    rfl
  | ok n =>
    rw [hnode] at hcheck
    exact Inspection.run_again hcheck h hwithin

namespace Session

variable {store : Store} {form : List (String × FormField)} {id : String} {ids : List String} {d : Desk σ} {e : Desk τ}

theorem checkAll_of_error {after : Desk σ} {f : CheckFault} (h : store.check form id d = (.error f, after)) :
    checkAll store form d (id :: ids) = (.error f, after) := by
  rw [checkAll, h]

theorem checkAll_of_ok {after : Desk σ} (h : store.check form id d = (.ok (), after)) :
    checkAll store form d (id :: ids) = checkAll store form after ids := by
  rw [checkAll, h]

theorem within_checkAll (store : Store) (form : List (String × FormField)) (d : Desk σ) (ids : List String) :
    d.Within (checkAll store form d ids).2 := by
  induction ids generalizing d with
  | nil => exact d.within_self
  | cons id ids ih =>
    have hcheck := store.within_check form id d
    rcases hfirst : store.check form id d with ⟨f | ⟨⟩, after⟩
    · rwa [checkAll_of_error hfirst, ← hfirst]
    · rw [hfirst] at hcheck
      rw [checkAll_of_ok hfirst]
      exact hcheck.trans (ih after)

/-- So do the checks of nodes in turn, up to the first that fails. -/
theorem checkAll_again (h : ∀ f, (checkAll store form d ids).1 ≠ .error (.collaborator f))
    (hwithin : (checkAll store form d ids).2.Within e) :
    checkAll store form e ids = ((checkAll store form d ids).1, e) := by
  induction ids generalizing d with
  | nil => rfl
  | cons id ids ih =>
    rcases hfirst : store.check form id d with ⟨f | ⟨⟩, after⟩
    · rw [checkAll_of_error hfirst] at h hwithin ⊢
      exact checkAll_of_error (Store.check_again hfirst h hwithin)
    · -- Desks only gain lists, so what the first check took is still kept at the end.
      rw [checkAll_of_ok hfirst] at h hwithin ⊢
      have hkept : after.Within e := (within_checkAll store form after ids).trans hwithin
      rw [checkAll_of_ok (Store.check_again hfirst nofun hkept)]
      exact ih h hwithin

/-! ## Compiling -/

/-- The desk after the checks of a compilation. -/
def checkedDesk (s : Session σ) : Desk σ :=
  match s.editor.store.isolated? with
  | some _ => s.desk
  | none => (checkAll s.editor.store s.editor.form s.desk (s.editor.sequence.map (·.id))).2

/-- The session with a source that keeps a record, after some calls. -/
def recording (s : Session σ) (calls : List SchemaSource.Call) : Session (σ × List SchemaSource.Call) :=
  ⟨s.editor, s.desk.recording calls, s.clock, s.tokens, s.isHeard, s.events⟩

/-- The calls of the source that compiling makes. -/
def compileCalls (s : Session σ) : List SchemaSource.Call := (s.recording []).compile.2.desk.state.2

/-- Compiling changes the desk only: by the checks, and by a note of success. -/
theorem compile_snd (s : Session σ) :
    s.compile.2 =
      match s.compile.1 with
      | .ok records =>
        { s with desk := s.checkedDesk }.note (.info "workflow_compiled" [("record_count", .int records.length)])
      | .error _ => { s with desk := s.checkedDesk } := by
  cases hisolated : s.editor.store.isolated? with
  | some n => simp only [compile, checkedDesk, hisolated]
  | none =>
    rcases hchecked : checkAll s.editor.store s.editor.form s.desk (s.editor.sequence.map (·.id))
      with ⟨_ | ⟨⟩, desk⟩
    · simp only [compile, checkedDesk, hisolated, hchecked]
    · cases hwritten : s.editor.store.compileWritten with
      | error f => simp only [compile, checkedDesk, hisolated, hchecked, hwritten]
      | ok records => simp only [compile, checkedDesk, hisolated, hchecked, hwritten]

theorem editor_compile (s : Session σ) : s.compile.2.editor = s.editor := by
  rw [compile_snd]
  cases s.compile.1 <;> rfl

theorem state_compile (s : Session σ) : s.compile.2.desk.state = s.checkedDesk.state := by
  rw [compile_snd]
  cases s.compile.1 <;> rfl

theorem cache_compile (s : Session σ) : s.compile.2.desk.cache = s.checkedDesk.cache := by
  rw [compile_snd]
  cases s.compile.1 <;> rfl

/-- A workflow compiles to the same wherever the lists are kept that it took, and changes nothing there. -/
theorem compile_of_within {s : Session σ} {u : Session τ} (h : ∀ f, s.compile.1 ≠ .error (.collaborator f))
    (heditor : u.editor = s.editor) (hwithin : s.checkedDesk.Within u.desk) :
    u.compile.1 = s.compile.1 ∧ u.checkedDesk = u.desk := by
  rw [compile_fst] at h
  rw [compile_fst, compile_fst]
  unfold checkedDesk at hwithin ⊢
  rw [heditor]
  cases hisolated : s.editor.store.isolated? with
  | some n => exact ⟨rfl, rfl⟩
  | none =>
    simp only [hisolated] at h hwithin
    have hchecked : ∀ f, (checkAll s.editor.store s.editor.form s.desk (s.editor.sequence.map (·.id))).1 ≠
        .error (.collaborator f) := by
      intro f hfault
      rw [hfault] at h
      exact h f rfl
    simp only [checkAll_again hchecked hwithin, and_self]

/-- **Compiling can be repeated.** Unless a party outside failed, compiling again gives the same records, or the same
failure, without a call of the source, and neither time the editor changes. -/
theorem compile_again (s : Session σ) (h : ∀ f, s.compile.1 ≠ .error (.collaborator f)) :
    s.compile.2.compile.1 = s.compile.1 ∧ s.compile.2.compileCalls = [] ∧
      s.compile.2.editor = s.editor ∧ s.compile.2.compile.2.editor = s.editor := by
  have heditor := s.editor_compile
  have hwithin : s.checkedDesk.Within s.compile.2.desk := fun object fields hkept => s.cache_compile ▸ hkept
  obtain ⟨hresult, -⟩ := compile_of_within h heditor hwithin
  -- With a record, the desk stays as it is in the second run, so the record stays empty.
  obtain ⟨-, hdesk⟩ : _ ∧ (s.compile.2.recording []).checkedDesk = _ := compile_of_within h heditor hwithin
  refine ⟨hresult, ?_, heditor, s.compile.2.editor_compile.trans heditor⟩
  rw [compileCalls, state_compile, hdesk]
  rfl

/-- A session with a node that writes records of people and does not map their names. Its source answers once. -/
def unmapped : Session Bool where
  editor := .onStore
    { nodes := [.unplaced startId .start .origin, .unplaced "a" (.createOrUpdate ⟨"Person", [], false, .empty⟩) .origin,
        .unplaced finishId .finish .origin]
      links := [.plain startId "a", .plain "a" finishId]
      index := [("estart-a", startId, "a"), ("ea-end", "a", finishId)] }
    [] .zero
  desk := .fresh (fun answered object =>
    if answered then (SchemaSource.refuse (.noSource object), true)
    else (⟨.ok [⟨"Name", "", "string", true, none⟩], []⟩, true)) false
  clock := ⟨.zero⟩
  tokens := .ofList []
  isHeard := false
  events := []

theorem sequence_unmapped : unmapped.editor.sequence = unmapped.editor.store.nodes :=
  List.mergeSort_of_pairwise (by decide)

theorem compile_unmapped : unmapped.compile.1 = .error (.invalid ⟨"a", "a", .requiredUnmapped ["Name"]⟩) := by
  rw [compile_fst, sequence_unmapped]
  rfl

theorem compile_again_unmapped :
    unmapped.compile.1 = .error (.invalid ⟨"a", "a", .requiredUnmapped ["Name"]⟩) ∧
      unmapped.compileCalls.map (·.object) = ["Person"] ∧
      unmapped.compile.2.compile.1 = unmapped.compile.1 ∧ unmapped.compile.2.compileCalls = [] ∧
      unmapped.compile.2.editor = unmapped.editor ∧ unmapped.compile.2.compile.2.editor = unmapped.editor := by
  refine ⟨compile_unmapped, ?_, compile_again unmapped fun f hf => ?_⟩
  · have hsequence : (unmapped.recording []).editor.sequence = unmapped.editor.store.nodes := sequence_unmapped
    rw [compileCalls, state_compile, checkedDesk, hsequence]
    rfl
  · rw [compile_unmapped] at hf
    cases hf

end Session

end FormFlow
