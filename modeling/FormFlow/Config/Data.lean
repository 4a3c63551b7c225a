import FormFlow.Config.Basic
import FormFlow.Value.Dump
/-!
Configurations as plain data, and back.

`Config.toValue` writes every field of a configuration, `Config.parse` reads one of a given kind: fields that are not
there get their defaults, names that do not belong to the kind are refused. `Config.merge` overlays members on a
configuration and reads the result. `Config.dump` writes the fields for a document, which holds no values that are
nested too deep.
-/

set_option autoImplicit false

namespace FormFlow

namespace FieldMapping

def read : Reader FieldMapping :=
  Checked.record "FieldMapping" fun ms =>
    Checked.closed ms ["target_field", "source_field_id", "literal_value", "picklist_value"] <|
      FieldMapping.mk
        <$> Checked.optional ms "target_field" "" Checked.text
        <*> Checked.optional ms "source_field_id" none (Checked.nullable Checked.text)
        <*> Checked.optional ms "literal_value" none (Checked.nullable Checked.text)
        <*> Checked.optional ms "picklist_value" none (Checked.nullable Checked.text)

/-- The members of a mapping, all of them. -/
def toMembers (m : FieldMapping) : Members := [
  ("target_field", .text m.target),
  ("source_field_id", Value.ofText? m.source),
  ("literal_value", Value.ofText? m.literal),
  ("picklist_value", Value.ofText? m.pick)]

def toValue (m : FieldMapping) : Value := .record m.toMembers

/-- The mapping as compiled: what is not there is left out. -/
def toRecord (m : FieldMapping) : Value :=
  .record (m.toMembers.filter fun (_, v) => v ≠ .null)

end FieldMapping

namespace Literal

/-- Reads a fixed input. A truth value becomes a number; what is neither text nor number has a problem with each of
the three shapes. -/
def read : Reader Literal
  | .text s => .good (.text s)
  | .int n => .good (.int n)
  | .float x => .good (.float x)
  | .bool b => .good (.int (if b then 1 else 0))
  | _ => .bad [⟨["str"], .notText⟩, ⟨["int"], .notInt⟩, ⟨["float"], .notFloat⟩]

def toValue : Literal → Value
  | text s => .text s
  | int n => .int n
  | float x => .float x

end Literal

/-- A mapping from names to values of any shape. -/
def readMembers : Reader Members
  | .record ms => .good ms
  | _ => Checked.fail .notMapping

namespace FindConfig

/-- The names of the fields of a query. -/
def fieldNames : List String := ["target_object", "conditions", "return_limit", "sort_field", "sort_order"]

/-- Reads the fields of a query. -/
def readFields (ms : Members) : Checked FindConfig :=
  FindConfig.mk
    <$> Checked.optional ms "target_object" "" Checked.text
    <*> Checked.optional ms "conditions" .empty ConditionGroup.read
    <*> Checked.optional ms "return_limit" none (Checked.nullable Checked.int)
    <*> Checked.optional ms "sort_field" none (Checked.nullable Checked.text)
    <*> Checked.optional ms "sort_order" .ascending (Checked.choice .notMember SortOrder.code SortOrder.all)

def toMembers (c : FindConfig) : Members := [
  ("target_object", .text c.targetObject),
  ("conditions", c.conditions.toValue),
  ("return_limit", Value.ofInt? c.returnLimit),
  ("sort_field", Value.ofText? c.sortField),
  ("sort_order", .text c.sortOrder.code)]

end FindConfig

namespace Config

/-- Why plain data is no configuration of a kind. -/
inductive Fault where
  /-- The data names a kind that there is not. -/
  | unknownKind (given : Value)
  /-- The data names another kind. -/
  | otherKind (given expected : Kind)
  | problems (ps : List Problem)
  deriving DecidableEq, Repr

def readFields (ms : Members) : Kind → Checked Config
  | .start => Checked.closed ms [] (.good start)
  | .finish => Checked.closed ms [] (.good finish)
  | .path => Checked.closed ms [] (.good path)
  | .createOrUpdate =>
    Checked.closed ms ["target_object", "field_mappings", "enable_conditions", "conditions"] <|
      (fun object mappings enable conditions => createOrUpdate ⟨object, mappings, enable, conditions⟩)
        <$> Checked.optional ms "target_object" "" Checked.text
        <*> Checked.optional ms "field_mappings" [] (Checked.tuple FieldMapping.read)
        <*> Checked.optional ms "enable_conditions" false Checked.bool
        <*> Checked.optional ms "conditions" .empty ConditionGroup.read
  | .find => Checked.closed ms FindConfig.fieldNames (find <$> FindConfig.readFields ms)
  | .filter =>
    Checked.closed ms (FindConfig.fieldNames ++ ["source_find_node"]) <|
      (fun query source => filter ⟨query, source⟩)
        <$> FindConfig.readFields ms
        <*> Checked.optional ms "source_find_node" none (Checked.nullable Checked.text)
  | .loop =>
    Checked.closed ms
      ["loop_collection", "item_variable", "max_iterations", "include_index", "include_counter", "exit_conditions",
        "description"] <|
      (fun collection item most index counter exits description =>
          loop ⟨collection, item, most, index, counter, exits, description⟩)
        <$> Checked.optional ms "loop_collection" none (Checked.nullable Checked.text)
        <*> Checked.optional ms "item_variable" "item" Checked.text
        <*> Checked.optional ms "max_iterations" none (Checked.nullable Checked.int)
        <*> Checked.optional ms "include_index" false Checked.bool
        <*> Checked.optional ms "include_counter" false Checked.bool
        <*> Checked.optional ms "exit_conditions" .empty ConditionGroup.read
        <*> Checked.optional ms "description" "" Checked.text
  | .formatter =>
    Checked.closed ms
      ["category", "operation", "input_field", "second_input_field", "use_literal_input", "literal_value", "options"] <|
      (fun category operation input second useLiteral literal options =>
          formatter ⟨category, operation, input, second, useLiteral, literal, options⟩)
        <$> Checked.optional ms "category" none
          (Checked.nullable (Checked.choice .notMember Category.code Category.all))
        <*> Checked.optional ms "operation" "" Checked.text
        <*> Checked.optional ms "input_field" "" Checked.text
        <*> Checked.optional ms "second_input_field" none (Checked.nullable Checked.text)
        <*> Checked.optional ms "use_literal_input" false Checked.bool
        <*> Checked.optional ms "literal_value" none (Checked.nullable Literal.read)
        <*> Checked.optional ms "options" [] readMembers
  | .condition =>
    Checked.closed ms ["branch_mode", "target_object", "conditions", "path_node_id", "target_node_id"] <|
      (fun mode object conditions pathNode targetNode => condition ⟨mode, object, conditions, pathNode, targetNode⟩)
        <$> Checked.optional ms "branch_mode" .rules (Checked.choice .notMember BranchMode.code BranchMode.all)
        <*> Checked.optional ms "target_object" "" Checked.text
        <*> Checked.optional ms "conditions" .empty ConditionGroup.read
        <*> Checked.optional ms "path_node_id" none (Checked.nullable Checked.text)
        <*> Checked.optional ms "target_node_id" none (Checked.nullable Checked.text)

/-- The kind that a member `kind` names. -/
def declaredKind (v : Value) : Except Fault Kind :=
  match v with
  | .text s =>
    match Kind.ofCode? s with
    | some k => .ok k
    | none => .error (.unknownKind v)
  | _ => .error (.unknownKind v)

/-- Reads a configuration of a kind. A member `kind` has to name that kind. -/
def parse (kind : Kind) (ms : Members) : Except Fault Config := do
  match Members.get? ms "kind" with
  | none => pure ()
  | some v =>
    let declared ← declaredKind v
    if declared ≠ kind then throw (.otherKind declared kind)
  match (readFields (Members.without ms "kind") kind).under kind.code with
  | .good c => pure c
  | .bad ps => throw (.problems ps)

/-- The configuration of a fresh node. -/
def default : Kind → Config
  | .start => start
  | .finish => finish
  | .createOrUpdate => createOrUpdate ⟨"", [], false, .empty⟩
  | .find => find ⟨"", .empty, none, none, .ascending⟩
  | .filter => filter ⟨⟨"", .empty, none, none, .ascending⟩, none⟩
  | .loop => loop ⟨none, "item", none, false, false, .empty, ""⟩
  | .formatter => formatter ⟨none, "", "", none, false, none, []⟩
  | .condition => condition ⟨.rules, "", .empty, none, none⟩
  | .path => path

/-- The fields of a configuration as plain data, without its kind. -/
def toMembers : Config → Members
  | start | finish | path => []
  | createOrUpdate c => [
    ("target_object", .text c.targetObject),
    ("field_mappings", .list (c.mappings.map FieldMapping.toValue)),
    ("enable_conditions", .bool c.enableConditions),
    ("conditions", c.conditions.toValue)]
  | find c => c.toMembers
  | filter c => c.query.toMembers ++ [("source_find_node", Value.ofText? c.sourceFind)]
  | loop c => [
    ("loop_collection", Value.ofText? c.collection),
    ("item_variable", .text c.itemVariable),
    ("max_iterations", Value.ofInt? c.maxIterations),
    ("include_index", .bool c.includeIndex),
    ("include_counter", .bool c.includeCounter),
    ("exit_conditions", c.exitConditions.toValue),
    ("description", .text c.description)]
  | formatter c => [
    ("category", Value.ofText? (c.category.map Category.code)),
    ("operation", .text c.operation),
    ("input_field", .text c.input),
    ("second_input_field", Value.ofText? c.secondInput),
    ("use_literal_input", .bool c.useLiteral),
    ("literal_value", match c.literal with
      | some l => l.toValue
      | none => .null),
    ("options", .record c.options)]
  | condition c => [
    ("branch_mode", .text c.branchMode.code),
    ("target_object", .text c.targetObject),
    ("conditions", c.conditions.toValue),
    ("path_node_id", Value.ofText? c.pathNode),
    ("target_node_id", Value.ofText? c.targetNode)]

/-- The configuration as plain data, its kind first. -/
def toValue (c : Config) : Value :=
  .record (("kind", .text c.kind.code) :: c.toMembers)

/-- The values in a configuration that may have any shape. -/
def freeValues : Config → List Value
  | start | finish | path => []
  | createOrUpdate c => c.conditions.values
  | find c => c.conditions.values
  | filter c => c.query.conditions.values
  | loop c => c.exitConditions.values
  | formatter c => Members.values c.options
  | condition c => c.conditions.values

/-- The fields of a configuration as they are written. -/
def dump (c : Config) : Except DumpFault Members := dumpWith c.freeValues c.toMembers

/-- Overlays members on a configuration. A member replaces the stored value as a whole. -/
def merge (c : Config) (overlay : Members) : Except Fault Config :=
  parse c.kind (Members.putAll (("kind", .text c.kind.code) :: c.toMembers) overlay)

def Fault.message : Fault → String
  | unknownKind given => given.shown ++ " is not a valid NodeKind"
  | otherKind given expected =>
    "Configuration is for kind '" ++ given.code ++ "', expected '" ++ expected.code ++ "'"
  | problems ps => Problem.summary "" ps

end Config

end FormFlow
