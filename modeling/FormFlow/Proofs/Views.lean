import FormFlow.Proofs.Repetition
/-!
Sessions that cannot be told apart by a view of their source's state.

A view leaves something of a state out, such as what requests were authorized with. Where the steps of two sources
cannot be told apart by it, neither can desks that work with them, whatever is asked for (`Desk.SameView.fields`),
checks at the desks (`Session.SameView.checkNode`), and compiling and publishing (`Session.SameView.compile`,
`Session.SameView.publish`): the results are the same, and so is all that can be viewed afterwards.
-/

set_option autoImplicit false

namespace FormFlow

variable {σ ρ α : Type} {view : σ → ρ}

/-- Two steps cannot be told apart by a view of their states: from states with the same view they give the same, and
lead to states with the same view. -/
def SameSteps (view : σ → ρ) (f g : σ → α × σ) : Prop :=
  ∀ x y, view x = view y → (f x).1 = (g y).1 ∧ view (f x).2 = view (g y).2

/-! ## Desks -/

namespace Desk

/-- The desks cannot be told apart by a view of their source's state. -/
structure SameView (view : σ → ρ) (d d' : Desk σ) : Prop where
  source : ∀ object, SameSteps view (d.source · object) (d'.source · object)
  state : view d.state = view d'.state
  cache : d.cache = d'.cache
  log : d.log = d'.log

variable {d d' : Desk σ}

theorem SameView.note (h : d.SameView view d') (e : LogEntry) : (d.note e).SameView view (d'.note e) :=
  ⟨h.source, h.state, h.cache, congrArg (· ++ [e]) h.log⟩

theorem SameView.fetch (h : d.SameView view d') (object : String) :
    (d.fetch object).1 = (d'.fetch object).1 ∧ (d.fetch object).2.SameView view (d'.fetch object).2 := by
  obtain ⟨hreply, hnext⟩ := h.source object d.state d'.state h.state
  dsimp only at hreply hnext
  unfold Desk.fetch
  generalize d.source d.state object = step, d'.source d'.state object = step' at hreply hnext
  obtain ⟨⟨outcome, log⟩, next⟩ := step
  obtain ⟨_, next'⟩ := step'
  cases hreply
  rcases outcome with (f | reason) | fields
  · exact ⟨rfl, h.source, hnext, h.cache, congrArg (· ++ log) h.log⟩
  · exact ⟨rfl, h.source, hnext, h.cache, congrArg (· ++ log) h.log⟩
  · exact ⟨rfl, h.source, hnext, congrArg (Members.put · object fields) h.cache,
      congrArg (· ++ log ++ [_]) h.log⟩

theorem SameView.fields (h : d.SameView view d') (object : String) :
    (d.fields object).1 = (d'.fields object).1 ∧ (d.fields object).2.SameView view (d'.fields object).2 := by
  cases hkept : d.cache.lookup object with
  | some fields =>
    rw [fields_of_lookup hkept, fields_of_lookup (h.cache ▸ hkept)]
    exact ⟨rfl, h⟩
  | none =>
    rw [fields_of_lookup_eq_none hkept, fields_of_lookup_eq_none (h.cache ▸ hkept)]
    exact h.fetch object

/-- An inspection comes to the same verdict at such desks. -/
theorem SameView.run (h : d.SameView view d') (n : Node) (i : Inspection) :
    (i.run n d).1 = (i.run n d').1 ∧ (i.run n d).2.SameView view (i.run n d').2 := by
  cases i with
  | settled p => exact ⟨rfl, h⟩
  | byFields object judge =>
    obtain ⟨hanswer, hlater⟩ := h.fields object
    rw [run_byFields, run_byFields, hanswer]
    exact ⟨rfl, hlater⟩

theorem SameView.check (h : d.SameView view d') (s : Store) (form : List (String × FormField)) (id : String) :
    (s.check form id d).1 = (s.check form id d').1 ∧
      (s.check form id d).2.SameView view (s.check form id d').2 := by
  unfold Store.check
  cases s.node id with
  | error f => exact ⟨rfl, h⟩
  | ok n => exact h.run n _

end Desk

/-! ## Sessions -/

namespace Session

/-- The sessions hold one editor, and their desks cannot be told apart. -/
structure SameView (view : σ → ρ) (s s' : Session σ) : Prop where
  editor : s.editor = s'.editor
  desk : s.desk.SameView view s'.desk

variable {s s' : Session σ}

theorem SameView.note (h : s.SameView view s') (e : LogEntry) : (s.note e).SameView view (s'.note e) :=
  ⟨h.editor, h.desk.note e⟩

theorem SameView.checkAll {d d' : Desk σ} (h : d.SameView view d') (store : Store) (form : List (String × FormField))
    (ids : List String) :
    (checkAll store form d ids).1 = (checkAll store form d' ids).1 ∧
      (checkAll store form d ids).2.SameView view (checkAll store form d' ids).2 := by
  induction ids generalizing d d' with
  | nil => exact ⟨rfl, h⟩
  | cons id ids ih =>
    obtain ⟨hverdict, hlater⟩ := h.check store form id
    rcases hfirst : store.check form id d with ⟨_ | ⟨⟩, after⟩ <;>
      rcases hfirst' : store.check form id d' with ⟨_ | ⟨⟩, after'⟩ <;> rw [hfirst, hfirst'] at hverdict hlater <;>
      cases hverdict
    · rw [checkAll_of_error hfirst, checkAll_of_error hfirst']
      exact ⟨rfl, hlater⟩
    · rw [checkAll_of_ok hfirst, checkAll_of_ok hfirst']
      exact ih hlater

/-- A node is checked alike. -/
theorem SameView.checkNode (h : s.SameView view s') (id : String) :
    (s.checkNode id).1 = (s'.checkNode id).1 ∧ (s.checkNode id).2.SameView view (s'.checkNode id).2 := by
  obtain ⟨hverdict, hlater⟩ := h.desk.check s.editor.store s.editor.form id
  unfold Session.checkNode
  rw [← h.editor]
  generalize s.editor.store.check s.editor.form id s.desk = checked,
    s.editor.store.check s.editor.form id s'.desk = checked' at hverdict hlater
  obtain ⟨verdict, desk⟩ := checked
  obtain ⟨_, desk'⟩ := checked'
  cases hverdict
  have hnext : SameView view { s with desk := desk } { s' with editor := s.editor, desk := desk' } := ⟨rfl, hlater⟩
  rcases verdict with (_ | n | _) | ⟨⟩
  · exact ⟨rfl, hnext⟩
  · exact ⟨rfl, hnext.note _⟩
  · exact ⟨rfl, hnext⟩
  · exact ⟨rfl, hnext⟩

/-- **A workflow compiles alike.** -/
theorem SameView.compile (h : s.SameView view s') :
    s.compile.1 = s'.compile.1 ∧ s.compile.2.SameView view s'.compile.2 := by
  have hchecks : s.compile.1 = s'.compile.1 ∧ s.checkedDesk.SameView view s'.checkedDesk := by
    unfold checkedDesk
    rw [compile_fst, compile_fst, ← h.editor]
    cases s.editor.store.isolated? with
    | some n => exact ⟨rfl, h.desk⟩
    | none =>
      obtain ⟨hverdict, hlater⟩ := SameView.checkAll h.desk s.editor.store s.editor.form (s.editor.sequence.map (·.id))
      rw [hverdict]
      exact ⟨rfl, hlater⟩
  obtain ⟨hresult, hdesk⟩ := hchecks
  have hnext : SameView view { s with desk := s.checkedDesk } { s' with desk := s'.checkedDesk } := ⟨h.editor, hdesk⟩
  refine ⟨hresult, ?_⟩
  rw [compile_snd, compile_snd s', ← hresult]
  cases s.compile.1 with
  | error f => exact hnext
  | ok records => exact hnext.note _

/-- **A workflow is published alike**, with tokens that the party outside cannot be told apart by. -/
theorem SameView.publish (h : s.SameView view s') (backend : Backend σ) (formVersion : String) {c c' : Credential}
    (hc : Table.Agree (fun t t' => ∀ records, SameSteps view (backend records formVersion t)
      (backend records formVersion t')) c c') :
    (s.publish backend c formVersion).1 = (s'.publish backend c' formVersion).1 ∧
      (s.publish backend c formVersion).2.SameView view (s'.publish backend c' formVersion).2 := by
  obtain ⟨hresult, hcompiled⟩ := h.compile
  unfold Session.publish
  generalize s.compile = compiled, s'.compile = compiled' at hresult hcompiled
  obtain ⟨result, after⟩ := compiled
  obtain ⟨_, after'⟩ := compiled'
  cases hresult
  cases result with
  | error f => exact ⟨rfl, hcompiled⟩
  | ok records =>
    cases hc with
    | error f => exact ⟨rfl, hcompiled⟩
    | @ok t t' hsteps =>
      obtain ⟨hanswer, hstate⟩ := hsteps records _ _ hcompiled.desk.state
      dsimp only at hanswer hstate ⊢
      generalize backend records formVersion t after.desk.state = step,
        backend records formVersion t' after'.desk.state = step' at hanswer hstate ⊢
      obtain ⟨⟨outcome, log⟩, next⟩ := step
      obtain ⟨_, next'⟩ := step'
      cases hanswer
      have hnext : SameView view { after with desk := { after.desk with state := next, log := after.desk.log ++ log } }
          { after' with desk := { after'.desk with state := next', log := after'.desk.log ++ log } } :=
        ⟨hcompiled.editor, hcompiled.desk.source, hstate, hcompiled.desk.cache, congrArg (· ++ log) hcompiled.desk.log⟩
      cases outcome with
      | error f => exact ⟨rfl, hnext⟩
      | ok receipt => exact ⟨rfl, hnext.note _⟩

end Session

end FormFlow
