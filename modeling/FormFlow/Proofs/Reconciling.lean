import FormFlow.Condition.Basic
import FormFlow.Proofs.Table
/-!
Condition groups whose operators are brought in line with the types of their fields.

Every type offers the operator that a row is reset to, and every type offers the null checks, so a row that is reset
had a value and stays complete (`Condition.isComplete_reset`). What reconciling makes of a group is said row by row
(`Condition.Reconciled`), and a check of the group by the same types has no operator to object to
(`ConditionGroup.reconcile_lawful`).
-/

set_option autoImplicit false

namespace FormFlow

namespace Operator

/-- What the plain operators and those of every row of the table have, the operators of every type have. -/
theorem forType_of_table {P : List String → Prop} (hplain : P plain) (hrows : ∀ row ∈ table, P row.2) (type : String) :
    P (forType type) := by
  unfold forType
  cases hrow : table.lookup (Text.lower type) with
  | none => exact hplain
  | some operators => exact hrows _ (Table.mem_of_lookup hrow)

/-- Every type of field offers the operator of a fresh condition. -/
theorem equals_mem_forType (type : String) : equals ∈ forType type :=
  forType_of_table (P := (equals ∈ ·)) (by decide) (by decide) type

/-- Every type of field offers the null checks. -/
theorem nullChecks_subset_forType (type : String) : nullChecks ⊆ forType type :=
  forType_of_table (P := (nullChecks ⊆ ·)) (by decide) (by decide) type

end Operator

/-! ## Rows -/

namespace Condition

/-- The row's operator is offered by the type of its field, if that is known. -/
def Offered (types : List (String × String)) (c : Condition) : Prop :=
  ∀ type, types.lookup c.field = some type → c.operator ∈ Operator.forType type

/-- The row of a field with a known type that does not offer the operator. -/
def Refused (types : List (String × String)) (c : Condition) : Prop :=
  ∃ type, types.lookup c.field = some type ∧ c.operator ∉ Operator.forType type

/-- What reconciling makes of a row. -/
structure Reconciled (types : List (String × String)) (c d : Condition) : Prop where
  field : d.field = c.field
  value : d.value = c.value
  value2 : d.value2 = c.value2
  /-- Operators that are not offered change, and no others. -/
  changed_iff : d.operator ≠ c.operator ↔ c.Refused types
  reset : d.operator ≠ c.operator → d.operator = Operator.equals
  offered : d.Offered types
  complete : c.isComplete = true → d.isComplete = true

variable {types : List (String × String)} {c : Condition}

theorem offered_iff_not_refused : c.Offered types ↔ ¬ c.Refused types := by
  unfold Offered Refused
  push Not
  rfl

/-- A complete row that is no null check has a value, so it stays complete with an operator that takes one. -/
theorem isComplete_reset (h : c.isComplete = true) (hoperator : c.operator ∉ Operator.nullChecks) :
    isComplete { c with operator := Operator.equals } = true := by
  have hnamed : ¬ (c.field = "" ∨ c.operator = "") := fun hempty => by simp [isComplete, hempty] at h
  have hvalue : c.value.isMissing = false := by
    rw [isComplete, if_neg hnamed, if_neg (by simpa using hoperator)] at h
    split at h
    · exact (by simpa using h : c.value.isMissing = false ∧ _).1
    · simpa using h
  have hfield : ¬ (c.field = "" ∨ Operator.equals = "") := not_or.mpr ⟨(not_or.mp hnamed).1, by decide⟩
  have hcheck : ¬ Operator.nullChecks.contains Operator.equals = true := by decide
  have hrange : Operator.equals ≠ Operator.between := by decide
  rw [isComplete, if_neg hfield, if_neg hcheck, if_neg hrange, hvalue]
  rfl

end Condition

namespace ConditionGroup

variable {types : List (String × String)} {c : Condition} {g : ConditionGroup}

theorem reconcileRow_of_refused (h : c.Refused types) :
    reconcileRow types c = { c with operator := Operator.equals } := by
  obtain ⟨type, htype, hoperator⟩ := h
  simp [reconcileRow, htype, hoperator]

theorem reconcileRow_of_offered (h : c.Offered types) : reconcileRow types c = c := by
  unfold reconcileRow
  cases htype : types.lookup c.field with
  | none => rfl
  | some type => simp [h type htype]

theorem reconciled_reconcileRow (types : List (String × String)) (c : Condition) :
    c.Reconciled types (reconcileRow types c) := by
  by_cases h : c.Refused types
  · rw [reconcileRow_of_refused h]
    have hoffered : Condition.Offered types { c with operator := Operator.equals } :=
      fun type _ => Operator.equals_mem_forType type
    obtain ⟨type, htype, hoperator⟩ := h
    have hchanged : Operator.equals ≠ c.operator := fun e => hoperator (e ▸ Operator.equals_mem_forType type)
    have hcheck : c.operator ∉ Operator.nullChecks :=
      fun hmem => hoperator (Operator.nullChecks_subset_forType type hmem)
    exact {
      field := rfl
      value := rfl
      value2 := rfl
      changed_iff := iff_of_true hchanged ⟨type, htype, hoperator⟩
      reset := fun _ => rfl
      offered := hoffered
      complete := fun hcomplete => Condition.isComplete_reset hcomplete hcheck }
  · have hoffered := Condition.offered_iff_not_refused.mpr h
    rw [reconcileRow_of_offered hoffered]
    exact {
      field := rfl
      value := rfl
      value2 := rfl
      changed_iff := iff_of_false (not_not_intro rfl) h
      reset := fun hchanged => absurd rfl hchanged
      offered := hoffered
      complete := id }

/-! ## Groups -/

theorem offered_reconcile (g : ConditionGroup) (types : List (String × String)) :
    ∀ d ∈ (g.reconcile types).conditions, d.Offered types := by
  intro d hd
  obtain ⟨c, -, rfl⟩ := List.mem_map.mp hd
  exact (reconciled_reconcileRow types c).offered

/-- A group in which every operator is offered is left alone. -/
theorem reconcile_of_offered (h : ∀ c ∈ g.conditions, c.Offered types) : g.reconcile types = g := by
  have hrows : g.conditions.map (reconcileRow types) = g.conditions :=
    (List.map_congr_left fun c hc => reconcileRow_of_offered (h c hc)).trans (List.map_id _)
  rw [reconcile, hrows]

/-- Only a row with a refused operator is found to have one. -/
theorem refused_of_typeFault {row position : Nat} {operator type field : String} {rows : List Condition}
    (h : typeFault types row rows = some (.operatorUnavailable position operator type field)) :
    ∃ c ∈ rows, c.Refused types := by
  induction rows generalizing row with
  | nil => cases h
  | cons c rows ih =>
    have hlater : typeFault types (row + 1) rows = some (.operatorUnavailable position operator type field) →
        ∃ c' ∈ c :: rows, c'.Refused types := fun hrest => by
      obtain ⟨c', hc', hrefused⟩ := ih hrest
      exact ⟨c', List.mem_cons_of_mem _ hc', hrefused⟩
    rw [typeFault] at h
    split at h
    · exact hlater h
    · cases hknown : types.lookup c.field with
      | none => simp [hknown] at h
      | some known =>
        simp only [hknown] at h
        split at h
        · exact hlater h
        · next hoperator => exact ⟨c, List.mem_cons_self, known, hknown, by simpa using hoperator⟩

theorem incompleteFault_ne (row : Nat) (rows : List Condition) (position : Nat) (operator type field : String) :
    incompleteFault row rows ≠ some (.operatorUnavailable position operator type field) := by
  induction rows generalizing row with
  | nil => exact nofun
  | cons c rows ih =>
    rw [incompleteFault]
    split
    · exact ih _
    · exact nofun

theorem customFault_ne (g : ConditionGroup) (position : Nat) (operator type field : String) :
    g.customFault ≠ some (.operatorUnavailable position operator type field) := by
  intro h
  unfold customFault at h
  cases hincomplete : incompleteFault 1 g.conditions with
  | some fault =>
    rw [hincomplete] at h
    exact incompleteFault_ne 1 g.conditions position operator type field (hincomplete.trans h)
  | none =>
    simp only [hincomplete] at h
    split at h
    · split at h <;> cases h
    · obtain ⟨_, -, hfault⟩ := Option.map_eq_some_iff.mp h
      cases hfault

/-- **A check objects to an operator only if a row of the group has one that the type of its field refuses.** -/
theorem refused_of_fault {isRequired : Bool} {known : Option (List (String × String))} {position : Nat}
    {operator type field : String}
    (h : g.fault isRequired known = some (.operatorUnavailable position operator type field)) :
    ∃ types, known = some types ∧ ∃ c ∈ g.conditions, c.Refused types := by
  unfold fault at h
  split at h
  · cases h
  · split at h
    · next fault hfault =>
      cases h
      obtain ⟨types, rfl, htypes⟩ := Option.bind_eq_some_iff.mp hfault
      exact ⟨types, rfl, refused_of_typeFault htypes⟩
    · split at h
      · exact absurd h (customFault_ne g position operator type field)
      · cases h

/-- Where every operator is offered, a check objects to none. -/
theorem fault_ne_of_offered (h : ∀ c ∈ g.conditions, c.Offered types) (isRequired : Bool) (position : Nat)
    (operator type field : String) :
    g.fault isRequired (some types) ≠ some (.operatorUnavailable position operator type field) := by
  intro hfault
  obtain ⟨_, ⟨⟩, c, hc, hrefused⟩ := refused_of_fault hfault
  exact Condition.offered_iff_not_refused.mp (h c hc) hrefused

/-- **Reconciling changes operators that are not offered, and nothing else.** Row by row, a group has the same fields
and values as before, with the operators that were refused reset, so that every operator is offered, and rows that were
complete still are. The rows are joined as before. Doing it again changes nothing, and a check by the same types never
objects to an operator. -/
theorem reconcile_lawful (g : ConditionGroup) (types : List (String × String)) :
    List.Forall₂ (Condition.Reconciled types) g.conditions (g.reconcile types).conditions ∧
      (g.reconcile types).logic = g.logic ∧
      (g.reconcile types).customLogic = g.customLogic ∧
      (g.reconcile types).reconcile types = g.reconcile types ∧
      ∀ isRequired row operator type field,
        (g.reconcile types).fault isRequired (some types) ≠ some (.operatorUnavailable row operator type field) := by
  have hoffered := offered_reconcile g types
  refine ⟨?_, rfl, rfl, reconcile_of_offered hoffered, fault_ne_of_offered hoffered⟩
  refine List.forall₂_map_right_iff.mpr (List.forall₂_same.mpr fun c _ => ?_)
  exact reconciled_reconcileRow types c

end ConditionGroup

end FormFlow
