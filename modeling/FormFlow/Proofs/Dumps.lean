import FormFlow.Document.Workflow
import FormFlow.Record
/-!
What can be written of stores and records.

Parts are written one after the other, so the whole is written exactly if no value in any part is nested too deep: the
document of a store (`Store.snapshot_eq`), and the plain data of records (`Record.dumpAll_eq_ok_iff`).
-/

set_option autoImplicit false

namespace FormFlow

theorem Members.values_append {α : Type} (ms ns : List (String × α)) : values (ms ++ ns) = values ms ++ values ns :=
  List.map_append

namespace Value

/-! ## Levels -/

theorem levelsOfItems_le_iff {items : List Value} {n : Nat} : levelsOfItems items ≤ n ↔ ∀ v ∈ items, v.levels ≤ n := by
  induction items with
  | nil => simp [levelsOfItems]
  | cons v items ih => rw [levelsOfItems, Nat.max_le, ih, List.forall_mem_cons]

theorem levelsOfMembers_le_iff {members : Members} {n : Nat} :
    levelsOfMembers members ≤ n ↔ ∀ v ∈ Members.values members, v.levels ≤ n := by
  induction members with
  | nil => simp [levelsOfMembers, Members.values]
  | cons entry members ih =>
    rw [levelsOfMembers, Nat.max_le, ih, Members.values, Members.values, List.map_cons, List.forall_mem_cons]

theorem one_le_levels (v : Value) : 1 ≤ v.levels := by
  cases v <;> simp [levels]

/-- An item has fewer levels than the list. -/
theorem levels_le_of_mem_list {items : List Value} {v : Value} (hv : v ∈ items) : v.levels ≤ (list items).levels := by
  rw [levels]
  exact Nat.le_succ_of_le (levelsOfItems_le_iff.mp (Nat.le_refl _) v hv)

/-- A member has fewer levels than the record. -/
theorem levels_le_of_mem_record {members : Members} {v : Value} (hv : v ∈ Members.values members) :
    v.levels ≤ (record members).levels := by
  rw [levels]
  exact Nat.le_succ_of_le (levelsOfMembers_le_iff.mp (Nat.le_refl _) v hv)

/-- What a shallow record holds is shallow. -/
theorem isShallow_of_record {members : Members} (h : (record members).isShallow = true) {v : Value}
    (hv : v ∈ Members.values members) : v.isShallow = true := by
  exact decide_eq_true (Nat.le_trans (levels_le_of_mem_record hv) (of_decide_eq_true h))

/-- A list in a list, and so on: as many lists as levels. -/
def nested : Nat → Value
  | 0 => .list []
  | n + 1 => .list [nested n]

theorem levels_nested (n : Nat) : (nested n).levels = n + 1 := by
  induction n with
  | zero => rfl
  | succ n ih => rw [nested, levels, levelsOfItems, levelsOfItems, ih, Nat.max_zero]

/-- Lists that are nested as deep as the limit are too deep. -/
theorem isShallow_nested_iff {n : Nat} : (nested n).isShallow = true ↔ n < levelLimit := by
  rw [isShallow, levels_nested, decide_eq_true_iff, Nat.succ_le_iff]

end Value

/-! ## Stores -/

namespace Store

/-- The values in the configurations of a store. They may have any shape. -/
def freeValues (s : Store) : List Value := s.nodes.flatMap (·.config.freeValues)

/-- **The document of a store is written** unless a value in a configuration is nested too deep. -/
theorem snapshot_eq (s : Store) (formVersion : String) (formFields : List FormField) (objects : ObjectFields) :
    s.snapshot formVersion formFields objects = dumpWith s.freeValues (s.spec formVersion formFields objects) := by
  have hnode : Node.dump = fun n => dumpWith n.config.freeValues n.spec := funext fun n => map_dumpWith n.specWith
  rw [snapshot, hnode, mapM_dumpWith, map_dumpWith]
  rfl

end Store

/-! ## Records -/

/-- A value of a row is no deeper than the row as compiled. -/
theorem Condition.levels_le_toRecord {c : Condition} {v : Value} (hv : v ∈ c.values) :
    v.levels ≤ c.toRecord.levels := by
  by_cases hnull : v = .null
  · rw [hnull]
    exact c.toRecord.one_le_levels
  · refine Value.levels_le_of_mem_record ?_
    rw [Members.values, List.map_append, List.mem_append]
    refine Or.inr (List.mem_map.mpr ?_)
    rcases List.mem_cons.mp hv with rfl | hv
    · exact ⟨("value", c.value), List.mem_filter.mpr ⟨by simp, by simpa using hnull⟩, rfl⟩
    · obtain rfl := List.mem_singleton.mp hv
      exact ⟨("value2", c.value2), List.mem_filter.mpr ⟨by simp, by simpa using hnull⟩, rfl⟩

/-- A value of a row that counts is no deeper than some member of the group as compiled. -/
theorem ConditionGroup.exists_levels_le {g : ConditionGroup} {v : Value} (hv : v ∈ g.exported) :
    ∃ w ∈ Members.values g.toRecord, v.levels ≤ w.levels := by
  obtain ⟨c, hc, hv⟩ := List.mem_flatMap.mp hv
  refine ⟨.list (g.complete.map Condition.toRecord), List.mem_cons_self, ?_⟩
  exact Nat.le_trans (Condition.levels_le_toRecord hv) (Value.levels_le_of_mem_list (List.mem_map_of_mem hc))

theorem FindConfig.exists_levels_le {c : FindConfig} {v : Value} (hv : v ∈ c.conditions.exported) :
    ∃ w ∈ Members.values c.toRecord, v.levels ≤ w.levels := by
  obtain ⟨w, hw, hle⟩ := ConditionGroup.exists_levels_le hv
  refine ⟨w, ?_, hle⟩
  simp only [toRecord, Members.values_append, List.mem_append, hw, or_true, true_or]

/-- A value that is written when a configuration is compiled is no deeper than some member that it is compiled to. -/
theorem Config.exists_levels_le {c : Config} {v : Value} (hv : v ∈ c.exported) :
    ∃ w ∈ Members.values c.toRecord, v.levels ≤ w.levels := by
  cases c with
  | start | finish | path | formatter c => cases hv
  | createOrUpdate c =>
    rw [exported] at hv
    split at hv
    · next henabled =>
      obtain ⟨w, hw, hle⟩ := ConditionGroup.exists_levels_le hv
      refine ⟨w, ?_, hle⟩
      rw [toRecord, henabled, Members.values_append, List.mem_append]
      exact Or.inr (List.mem_cons_of_mem _ hw)
    · cases hv
  | find c => exact FindConfig.exists_levels_le hv
  | filter c =>
    obtain ⟨w, hw, hle⟩ := FindConfig.exists_levels_le hv
    refine ⟨w, ?_, hle⟩
    rw [toRecord, Members.values_append, List.mem_append]
    exact Or.inl hw
  | loop c =>
    obtain ⟨w, hw, hle⟩ := ConditionGroup.exists_levels_le hv
    have hcomplete : c.exitConditions.complete.isEmpty = false := by
      rw [List.isEmpty_eq_false_iff]
      rintro hempty
      rw [exported, ConditionGroup.exported, hempty] at hv
      cases hv
    refine ⟨.record c.exitConditions.toRecord, ?_, Nat.le_trans hle (Value.levels_le_of_mem_record hw)⟩
    simp only [toRecord, Members.values_append, hcomplete, Members.whenever, Bool.not_false, if_true, List.mem_append]
    exact Or.inl (Or.inr List.mem_cons_self)
  | condition c =>
    rw [exported] at hv
    split at hv
    · next hrules =>
      obtain ⟨w, hw, hle⟩ := ConditionGroup.exists_levels_le hv
      refine ⟨w, ?_, hle⟩
      simp only [toRecord, hrules, Members.values_append, Members.whenever, decide_true, if_true, List.mem_append, hw,
        or_true, true_or]
    · cases hv

/-- What is written when a configuration is compiled is shallow if what it is compiled to is. -/
theorem Config.isShallow_of_toRecord {c : Config} (h : ∀ w ∈ Members.values c.toRecord, w.isShallow = true) {v : Value}
    (hv : v ∈ c.exported) : v.isShallow = true := by
  obtain ⟨w, hw, hle⟩ := exists_levels_le hv
  exact decide_eq_true (Nat.le_trans hle (of_decide_eq_true (h w hw)))

namespace Record

/-- The record can be written: no value in it is nested too deep, and no integer has too many digits. -/
structure Writable (r : Record) : Prop where
  shallow : ∀ v ∈ Members.values r.config, v.isShallow = true
  digits : r.toValue.hasDigits = true

/-- Records are written as plain data unless a value in one of them is nested too deep. -/
theorem dumpAll_eq (rs : List Record) :
    dumpAll rs = dumpWith (rs.flatMap fun r => Members.values r.config) (rs.map toValue) :=
  mapM_dumpWith (fun r : Record => Members.values r.config) toValue rs

theorem dumpAll_eq_ok_iff {rs : List Record} {values : List Value} :
    dumpAll rs = .ok values ↔
      (∀ r ∈ rs, ∀ v ∈ Members.values r.config, v.isShallow = true) ∧ rs.map toValue = values := by
  rw [dumpAll_eq, dumpWith_eq_ok_iff, List.forall_mem_flatMap]

end Record

/-- No integer of a list has too many digits if none of an item has. -/
theorem Value.hasDigits_list {items : List Value} :
    (Value.list items).hasDigits = true ↔ ∀ v ∈ items, v.hasDigits = true := by
  rw [hasDigits]
  induction items with
  | nil => simp [hasDigitsInItems]
  | cons v items ih => simp [hasDigitsInItems, ih]

end FormFlow
