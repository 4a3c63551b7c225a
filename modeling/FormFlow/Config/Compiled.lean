import FormFlow.Config.Data
/-!
Configurations as compiled into records: the fields that count for the kind, and of those only the ones that are set.
-/

set_option autoImplicit false

namespace FormFlow

/-- A member that is there only under a condition. -/
def Members.whenever (present : Bool) (ms : Members) : Members :=
  if present then ms else []

namespace FindConfig

/-- The members that a query has in front of what narrows it. -/
def toRecord (c : FindConfig) : Members :=
  [("target_object", .text c.targetObject)] ++ c.conditions.toRecord ++
    (match c.returnLimit with
      | some n => [("return_limit", .int n)]
      | none => []) ++
    (match c.sortField with
      | some field =>
        Members.whenever (field != "") [("sort_field", .text field), ("sort_order", .text c.sortOrder.code)]
      | none => [])

end FindConfig

namespace Config

def toRecord : Config → Members
  | start | finish | path => []
  | createOrUpdate c =>
    [("target_object", .text c.targetObject),
      ("field_mappings", .list ((c.mappings.filter FieldMapping.isComplete).map FieldMapping.toRecord))] ++
      Members.whenever c.enableConditions (("enable_conditions", .bool true) :: c.conditions.toRecord)
  | find c => c.toRecord
  | filter c =>
    c.query.toRecord ++
      (match c.sourceFind with
        | some source => Members.whenever (source != "") [("source_find_node", .text source)]
        | none => [])
  | loop c =>
    [("loop_collection", Value.ofText? c.collection),
      ("item_variable", .text c.itemVariable),
      ("include_index", .bool c.includeIndex),
      ("include_counter", .bool c.includeCounter)] ++
      (match c.maxIterations with
        | some n => [("max_iterations", .int n)]
        | none => []) ++
      Members.whenever (!c.exitConditions.complete.isEmpty)
        [("exit_conditions", .record c.exitConditions.toRecord)] ++
      Members.whenever (c.description != "") [("description", .text c.description)]
  | formatter c =>
    [("category", Value.ofText? (c.category.map Category.code)),
      ("operation", .text c.operation),
      ("input_field", .text c.input),
      ("options", .record c.options)] ++
      if c.useLiteral then
        [("literal_value", match c.literal with
          | some l => l.toValue
          | none => .null)]
      else match c.secondInput with
        | some second => Members.whenever (second != "") [("second_input_field", .text second)]
        | none => []
  | condition c =>
    [("branch_mode", .text c.branchMode.code)] ++
      Members.whenever (c.branchMode = .rules)
        (Members.whenever (c.targetObject != "") [("target_object", .text c.targetObject)] ++ c.conditions.toRecord) ++
      (match c.pathNode with
        | some p => [("path_node_id", .text p), ("target_node_id", Value.ofText? c.targetNode)]
        | none => [])

/-- The values of any shape that are written when a configuration is compiled: those of rows that count. -/
def exported : Config → List Value
  | start | finish | path | formatter _ => []
  | createOrUpdate c => if c.enableConditions then c.conditions.exported else []
  | find c => c.conditions.exported
  | filter c => c.query.conditions.exported
  | loop c => c.exitConditions.exported
  | condition c => if c.branchMode = .rules then c.conditions.exported else []

end Config

end FormFlow
