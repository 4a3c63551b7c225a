import FormFlow.Config.Data
/-!
Configurations are read back from what is written of them.

Every part of a configuration is written as plain data with all of its fields, so reading meets no default. Reading
what was written gives the same value again, for the values that stand in fields (`Checked` below), for the rows and
groups that configurations are made of, and for whole configurations of every kind (`Config.parse_toMembers`).
-/

set_option autoImplicit false

namespace FormFlow

namespace Checked

variable {α : Type}

/-! ## Values in fields -/

@[simp] theorem nullable_null (r : Reader α) : nullable r .null = .good none := rfl

@[simp] theorem nullable_ofText? (s : Option String) : nullable text (Value.ofText? s) = .good s := by
  cases s with
  | none => rfl
  | some s => rfl

@[simp] theorem nullable_ofInt? (n : Option Int) : nullable int (Value.ofInt? n) = .good n := by
  cases n with
  | none => rfl
  | some n => rfl

/-- A choice is found by its name if it is the first of that name. -/
theorem choice_name {cause : List String → Cause} {name : α → String} {all : List α} {a : α}
    (h : all.find? (fun b => name b == name a) = some a) : choice cause name all (.text (name a)) = .good a := by
  simp only [choice, h]

/-- Items that are read back one by one are read back as a list. -/
theorem itemsFrom_map {r : Reader α} {write : α → Value} {items : List α} (h : ∀ a ∈ items, r (write a) = .good a)
    (position : Nat) : itemsFrom r position (items.map write) = .good items := by
  induction items generalizing position with
  | nil => rfl
  | cons a items ih =>
    rw [List.map_cons, itemsFrom, h a List.mem_cons_self, ih fun b hb => h b (List.mem_cons_of_mem _ hb)]
    rfl

theorem list_map {r : Reader α} {write : α → Value} {items : List α} (h : ∀ a ∈ items, r (write a) = .good a) :
    list r (.list (items.map write)) = .good items :=
  itemsFrom_map h 0

theorem tuple_map {r : Reader α} {write : α → Value} (h : ∀ a, r (write a) = .good a) (items : List α) :
    tuple r (.list (items.map write)) = .good items :=
  itemsFrom_map (fun a _ => h a) 0

theorem tuple_texts (items : List String) : tuple text (Value.texts items) = .good items := by
  have hread : ∀ s : String, text (.text s) = .good s := fun _ => rfl
  exact tuple_map hread items

/-- Values that are read back one by one are read back as a mapping. -/
theorem mapping_map {r : Reader α} {write : α → Value} (h : ∀ a, r (write a) = .good a) (items : List (String × α)) :
    mapping r (.record (items.map fun entry => (entry.1, write entry.2))) = .good items := by
  show entries r _ = _
  induction items with
  | nil => rfl
  | cons entry items ih =>
    rw [List.map_cons, entries, h, ih]
    rfl

end Checked

open Checked (choice_name tuple_map)

/-! ## Rows and groups -/

theorem Condition.read_toValue (c : Condition) : read c.toValue = .good c := by
  simp [read, toValue, Checked.record, Checked.closed, Checked.undeclared, Checked.optional, Members.get?,
    List.lookup_cons, Checked.text, Checked.any]

theorem ConditionGroup.read_toValue (g : ConditionGroup) : read g.toValue = .good g := by
  have hlogic : Checked.choice .notMember Combinator.code Combinator.all (.text g.logic.code) = .good g.logic := by
    cases g.logic <;> rfl
  simp [read, toValue, Checked.record, Checked.closed, Checked.undeclared, Checked.optional, Members.get?,
    List.lookup_cons, Checked.text, tuple_map Condition.read_toValue, hlogic]

theorem FieldMapping.read_toValue (m : FieldMapping) : read m.toValue = .good m := by
  simp [read, toValue, toMembers, Checked.record, Checked.closed, Checked.undeclared, Checked.optional, Members.get?,
    List.lookup_cons, Checked.text]

theorem Literal.nullable_toValue (l : Literal) : Checked.nullable read l.toValue = .good (some l) := by
  cases l with
  | text _ | int _ | float _ => rfl

/-- A query is read back, whatever stands after it. -/
theorem FindConfig.readFields_toMembers (c : FindConfig) (rest : Members) :
    readFields (c.toMembers ++ rest) = .good c := by
  have horder :
      Checked.choice .notMember SortOrder.code SortOrder.all (.text c.sortOrder.code) = .good c.sortOrder := by
    cases c.sortOrder <;> rfl
  simp [readFields, toMembers, Checked.optional, Members.get?, List.lookup_cons, Checked.text,
    ConditionGroup.read_toValue, horder]

theorem Checked.nullable_category (category : Option Category) :
    nullable (choice .notMember Category.code Category.all) (Value.ofText? (category.map Category.code)) =
      .good category := by
  cases category with
  | none => rfl
  | some category => cases category <;> rfl

namespace Config

/-! ## Configurations -/

/-- The fields that are written are the fields of the kind, and they give the configuration again. -/
theorem readFields_toMembers (c : Config) : readFields c.toMembers c.kind = .good c := by
  cases c with
  | start => rfl
  | finish => rfl
  | path => rfl
  | createOrUpdate c =>
    simp [readFields, toMembers, kind, Checked.closed, Checked.undeclared, Checked.optional, Members.get?,
      List.lookup_cons, Checked.text, Checked.bool, ConditionGroup.read_toValue, tuple_map FieldMapping.read_toValue]
  | find c =>
    have hdeclared : Checked.undeclared c.toMembers FindConfig.fieldNames = [] := by
      simp [Checked.undeclared, FindConfig.toMembers, FindConfig.fieldNames]
    have hread := c.readFields_toMembers []
    rw [List.append_nil] at hread
    simp only [readFields, toMembers, kind, Checked.closed, hdeclared, hread, Checked.map_good]
  | filter c =>
    have hdeclared : Checked.undeclared (c.query.toMembers ++ [("source_find_node", Value.ofText? c.sourceFind)])
        (FindConfig.fieldNames ++ ["source_find_node"]) = [] := by
      simp [Checked.undeclared, FindConfig.toMembers, FindConfig.fieldNames]
    have hsource : Members.get? (c.query.toMembers ++ [("source_find_node", Value.ofText? c.sourceFind)])
        "source_find_node" = some (Value.ofText? c.sourceFind) := by
      simp [FindConfig.toMembers, Members.get?, List.lookup_cons]
    simp [readFields, toMembers, kind, Checked.closed, hdeclared, FindConfig.readFields_toMembers, Checked.optional,
      hsource]
  | loop c =>
    simp [readFields, toMembers, kind, Checked.closed, Checked.undeclared, Checked.optional, Members.get?,
      List.lookup_cons, Checked.text, Checked.bool, ConditionGroup.read_toValue]
  | formatter c =>
    obtain ⟨category, operation, input, second, useLiteral, literal, options⟩ := c
    cases literal with
    | none =>
      simp [readFields, toMembers, kind, Checked.closed, Checked.undeclared, Checked.optional, Members.get?,
        List.lookup_cons, Checked.text, Checked.bool, Checked.nullable_category, readMembers]
    | some l =>
      simp [readFields, toMembers, kind, Checked.closed, Checked.undeclared, Checked.optional, Members.get?,
        List.lookup_cons, Checked.text, Checked.bool, Checked.nullable_category, readMembers, Literal.nullable_toValue]
  | condition c =>
    have hmode : Checked.choice .notMember BranchMode.code BranchMode.all (.text c.branchMode.code) =
        .good c.branchMode := by
      cases c.branchMode <;> rfl
    simp [readFields, toMembers, kind, Checked.closed, Checked.undeclared, Checked.optional, Members.get?,
      List.lookup_cons, Checked.text, ConditionGroup.read_toValue, hmode]

/-- No configuration has a field of the name that its kind is written under. -/
theorem get?_toMembers_kind (c : Config) : Members.get? c.toMembers "kind" = none := by
  cases c <;> simp [toMembers, FindConfig.toMembers, Members.get?, List.lookup_cons]

theorem without_toMembers (c : Config) : Members.without c.toMembers "kind" = c.toMembers := by
  refine List.filter_eq_self.mpr fun entry hentry => ?_
  have hother := List.lookup_eq_none_iff.mp (get?_toMembers_kind c) entry hentry
  exact bne_iff_ne.mpr (bne_iff_ne.mp hother).symm

/-- **What is written of a configuration is read back as that configuration.** -/
theorem parse_toMembers (c : Config) : parse c.kind c.toMembers = .ok c := by
  unfold parse
  rw [get?_toMembers_kind, without_toMembers, readFields_toMembers]
  rfl

end Config

end FormFlow
