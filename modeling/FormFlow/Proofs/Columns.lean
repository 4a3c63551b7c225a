import FormFlow.Proofs.Configuration
import FormFlow.Proofs.Readers
import FormFlow.Proofs.RoundTrip
/-!
The fields of configurations as columns of data.

A field is read and written again on its own: what stands for it in the data is brought into the form that it is
written in, and nothing is as good as its initial value (`Column`). The fields of a kind are a list of columns, and
what is written of a configuration that is read are its cells (`Config.toMembers_readFields`). So a statement about
every field of every kind is a statement about one column, and an induction on a list of them.
-/

set_option autoImplicit false

namespace FormFlow

/-- A field as data: its name, what is written of it when it is not there, and what is written of it when it is. -/
structure Column where
  name : String
  initial : Value
  normal : Reader Value

namespace Column

variable {α : Type} {ms ms' : Members} {columns : List Column} {row : Members}

/-- The column of a field with a default, read and written as given. -/
def of (name : String) (default : α) (read : Reader α) (write : α → Value) : Column :=
  ⟨name, write default, fun v => write <$> read v⟩

/-- What is written of a field of a record. -/
def cell (ms : Members) (column : Column) : Checked Value :=
  Checked.optional ms column.name column.initial column.normal

/-- What is written of the fields of a record, in the order of the columns. -/
def cells (ms : Members) : List Column → Checked Members
  | [] => pure []
  | column :: columns => (fun v row => (column.name, v) :: row) <$> column.cell ms <*> cells ms columns

theorem cell_of (ms : Members) (name : String) (default : α) (read : Reader α) (write : α → Value) :
    (of name default read write).cell ms = write <$> Checked.optional ms name default read :=
  Checked.optional_map write ms name default read

/-- Of a field no more matters than what stands under its name. -/
theorem cell_congr {column : Column} (h : Members.get? ms column.name = Members.get? ms' column.name) :
    column.cell ms = column.cell ms' := by
  unfold cell Checked.optional
  rw [h]

/-- Fields are read if each of them is, and their names are those of the columns. -/
theorem cells_eq_good : cells ms columns = .good row ↔
    List.Forall₂ (fun column entry => column.name = entry.1 ∧ column.cell ms = .good entry.2) columns row := by
  induction columns generalizing row with
  | nil =>
    rw [List.forall₂_nil_left_iff]
    exact ⟨fun h => (Checked.good.inj h).symm, fun h => congrArg _ h.symm⟩
  | cons column columns ih =>
    rw [cells, Checked.seq_eq_good, List.forall₂_cons_left_iff]
    constructor
    · rintro ⟨_, rest, hcell, hrest, rfl⟩
      obtain ⟨v, hv, rfl⟩ := Checked.map_eq_good.mp hcell
      exact ⟨(column.name, v), rest, ⟨rfl, hv⟩, ih.mp hrest, rfl⟩
    · rintro ⟨⟨_, v⟩, rest, ⟨rfl, hv⟩, hrest, rfl⟩
      exact ⟨_, rest, Checked.map_eq_good.mpr ⟨v, hv, rfl⟩, ih.mpr hrest, rfl⟩

theorem cells_congr (h : ∀ column ∈ columns, column.cell ms = column.cell ms') :
    cells ms columns = cells ms' columns := by
  induction columns with
  | nil => rfl
  | cons column columns ih =>
    rw [cells, cells, h column List.mem_cons_self, ih fun other hother => h other (List.mem_cons_of_mem _ hother)]

/-- Records of which the same is written have the same in every field. -/
theorem cell_eq_of_cells (h : cells ms columns = .good row) (h' : cells ms' columns = .good row) {column : Column}
    (hcolumn : column ∈ columns) : column.cell ms = column.cell ms' := by
  have hcells := cells_eq_good.mp h
  have hcells' := cells_eq_good.mp h'
  clear h h'
  induction hcells with
  | nil => cases hcolumn
  | cons hfirst _ ih =>
    obtain ⟨hfirst', hrest'⟩ := List.forall₂_cons.mp hcells'
    rcases List.mem_cons.mp hcolumn with rfl | hlater
    · exact hfirst.2.trans hfirst'.2.symm
    · exact ih hlater hrest'

/-- What is written under a name is the same for records that have the same in the field of that name. -/
theorem get?_of_cells {row' : Members} (h : cells ms columns = .good row) (h' : cells ms' columns = .good row')
    {name : String} (hsame : ∀ column ∈ columns, column.name = name → column.cell ms = column.cell ms') :
    Members.get? row name = Members.get? row' name := by
  have hcells := cells_eq_good.mp h
  have hcells' := cells_eq_good.mp h'
  clear h h'
  induction hcells generalizing row' with
  | nil =>
    rw [List.forall₂_nil_left_iff.mp hcells']
  | @cons column entry columns row hcell _ ih =>
    obtain ⟨entry', rest', hcell', hrest', rfl⟩ := List.forall₂_cons_left_iff.mp hcells'
    obtain ⟨key, v⟩ := entry
    obtain ⟨key', v'⟩ := entry'
    obtain ⟨rfl, hv⟩ := hcell
    obtain ⟨rfl, hv'⟩ := hcell'
    have hlater := ih (fun other hother => hsame other (List.mem_cons_of_mem _ hother)) hrest'
    rw [Members.get?, Members.get?, List.lookup_cons, List.lookup_cons]
    by_cases hname : column.name = name
    · have hvalue : v = v' := Checked.good.inj (hv.symm.trans ((hsame column List.mem_cons_self hname).trans hv'))
      rw [hname, hvalue, BEq.rfl]
    · rw [beq_false_of_ne (Ne.symm hname)]
      exact hlater

end Column

/-! ## The fields of configurations -/

open Column (cells)

namespace FindConfig

/-- The fields of a query. -/
def columns : List Column := [
  .of "target_object" "" Checked.text .text,
  .of "conditions" .empty ConditionGroup.read ConditionGroup.toValue,
  .of "return_limit" none (Checked.nullable Checked.int) Value.ofInt?,
  .of "sort_field" none (Checked.nullable Checked.text) Value.ofText?,
  .of "sort_order" .ascending (Checked.choice .notMember SortOrder.code SortOrder.all) fun order => .text order.code]

end FindConfig

namespace Config

/-- The fields of a kind, in the order in which they are read and written. -/
def columns : Kind → List Column
  | .start | .finish | .path => []
  | .createOrUpdate => [
    .of "target_object" "" Checked.text .text,
    .of "field_mappings" [] (Checked.tuple FieldMapping.read) fun ms => .list (ms.map FieldMapping.toValue),
    .of "enable_conditions" false Checked.bool .bool,
    .of "conditions" .empty ConditionGroup.read ConditionGroup.toValue]
  | .find => FindConfig.columns
  | .filter => FindConfig.columns ++ [.of "source_find_node" none (Checked.nullable Checked.text) Value.ofText?]
  | .loop => [
    .of "loop_collection" none (Checked.nullable Checked.text) Value.ofText?,
    .of "item_variable" "item" Checked.text .text,
    .of "max_iterations" none (Checked.nullable Checked.int) Value.ofInt?,
    .of "include_index" false Checked.bool .bool,
    .of "include_counter" false Checked.bool .bool,
    .of "exit_conditions" .empty ConditionGroup.read ConditionGroup.toValue,
    .of "description" "" Checked.text .text]
  | .formatter => [
    .of "category" none (Checked.nullable (Checked.choice .notMember Category.code Category.all)) fun category =>
      Value.ofText? (category.map Category.code),
    .of "operation" "" Checked.text .text,
    .of "input_field" "" Checked.text .text,
    .of "second_input_field" none (Checked.nullable Checked.text) Value.ofText?,
    .of "use_literal_input" false Checked.bool .bool,
    .of "literal_value" none (Checked.nullable Literal.read) fun
      | some l => l.toValue
      | none => .null,
    .of "options" [] readMembers .record]
  | .condition => [
    .of "branch_mode" .rules (Checked.choice .notMember BranchMode.code BranchMode.all) fun mode => .text mode.code,
    .of "target_object" "" Checked.text .text,
    .of "conditions" .empty ConditionGroup.read ConditionGroup.toValue,
    .of "path_node_id" none (Checked.nullable Checked.text) Value.ofText?,
    .of "target_node_id" none (Checked.nullable Checked.text) Value.ofText?]

/-- The names of the fields of a kind. -/
def names (kind : Kind) : List String := (columns kind).map (·.name)

/-- **What is written of a configuration that is read are the cells of the columns of its kind.** -/
theorem toMembers_readFields (ms : Members) (kind : Kind) :
    toMembers <$> readFields ms kind = Checked.closed ms (names kind) (cells ms (columns kind)) := by
  cases kind with
  | start | finish | path => exact (Checked.closed_map toMembers ms [] _).symm
  | createOrUpdate | find | filter | loop | formatter | condition =>
    rw [readFields, ← Checked.closed_map]
    congr 1
    simp only [FindConfig.readFields, columns, FindConfig.columns, List.cons_append, List.nil_append, cells,
      Column.cell_of]
    simp only [Column.of, functor_norm, seq_pure, Function.comp_def]
    rfl

/-- Configurations of a kind of which the same is written are the same. -/
theorem eq_of_toMembers {c d : Config} (hkind : c.kind = d.kind) (h : c.toMembers = d.toMembers) : c = d := by
  have hc := readFields_toMembers c
  rw [hkind, h, readFields_toMembers] at hc
  exact (Checked.good.inj hc).symm

/-- A configuration is read where nothing is undeclared, and every field is read as it is written. -/
theorem readFields_eq_good {ms : Members} {kind : Kind} {c : Config} : readFields ms kind = .good c ↔
    c.kind = kind ∧ Checked.undeclared ms (names kind) = [] ∧ cells ms (columns kind) = .good c.toMembers := by
  rw [← Checked.closed_eq_good, ← toMembers_readFields, Checked.map_eq_good]
  constructor
  · intro h
    exact ⟨readFields_kind ms kind c h, c, h, rfl⟩
  · rintro ⟨rfl, d, hd, hsame⟩
    rwa [eq_of_toMembers (readFields_kind _ _ d hd) hsame] at hd

/-- Reading looks at nothing else but what is not declared and the cells. -/
theorem readFields_congr {ms ms' : Members} {kind : Kind}
    (hundeclared : Checked.undeclared ms (names kind) = Checked.undeclared ms' (names kind))
    (hcells : ∀ column ∈ columns kind, column.cell ms = column.cell ms') :
    readFields ms kind = readFields ms' kind := by
  have hwritten : toMembers <$> readFields ms kind = toMembers <$> readFields ms' kind := by
    rw [toMembers_readFields, toMembers_readFields, Column.cells_congr hcells, Checked.closed_congr hundeclared]
  have hkind := readFields_kind ms kind
  have hkind' := readFields_kind ms' kind
  cases hread : readFields ms kind with
  | good c =>
    cases hread' : readFields ms' kind with
    | good d =>
      rw [hread, hread'] at hwritten
      rw [eq_of_toMembers ((hkind c hread).trans (hkind' d hread').symm) (Checked.good.inj hwritten)]
    | bad ps => simp [hread, hread'] at hwritten
  | bad ps =>
    cases hread' : readFields ms' kind with
    | good d => simp [hread, hread'] at hwritten
    | bad ps' => simpa [hread, hread'] using hwritten

end Config
end FormFlow
