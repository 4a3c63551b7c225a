import FormFlow.Checked.Records
import FormFlow.Condition.Logic
import FormFlow.Condition.Operators
/-!
Condition groups: rows of a field, an operator and up to two values, and the logic that joins them.

A group may hold rows that are not complete yet. Such rows are stored, left out of compiled records, and reported when
the group is checked for saving.
-/

set_option autoImplicit false

namespace FormFlow

/-- One row of a condition group. -/
structure Condition where
  field : String
  operator : String
  value : Value
  value2 : Value
  deriving DecidableEq, Repr

/-- How the rows of a group are joined. -/
inductive Combinator where
  | and
  | or
  | custom
  deriving DecidableEq, Repr

/-- Rows and what joins them. -/
structure ConditionGroup where
  conditions : List Condition
  logic : Combinator
  /-- The expression over row numbers that counts when the logic is custom. -/
  customLogic : String
  deriving DecidableEq, Repr

namespace Combinator

def all : List Combinator := [and, or, custom]

def code : Combinator → String
  | and => "AND"
  | or => "OR"
  | custom => "Custom"

end Combinator

namespace Condition

/-- Whether the row can be compiled: it names a field and an operator, and has the values that the operator takes. -/
def isComplete (c : Condition) : Bool :=
  if c.field = "" ∨ c.operator = "" then false
  else if Operator.nullChecks.contains c.operator then true
  else if c.operator = Operator.between then !c.value.isMissing && !c.value2.isMissing
  else !c.value.isMissing

def read : Reader Condition :=
  Checked.record "Condition" fun ms =>
    Checked.closed ms ["field", "operator", "value", "value2"] <|
      Condition.mk
        <$> Checked.optional ms "field" "" Checked.text
        <*> Checked.optional ms "operator" Operator.equals Checked.text
        <*> Checked.optional ms "value" .null Checked.any
        <*> Checked.optional ms "value2" .null Checked.any

/-- The values of the row, of any shape. -/
def values (c : Condition) : List Value := [c.value, c.value2]

def toValue (c : Condition) : Value :=
  .record [("field", .text c.field), ("operator", .text c.operator), ("value", c.value), ("value2", c.value2)]

/-- The row as compiled: values that are not there are left out. -/
def toRecord (c : Condition) : Value :=
  .record <| [("field", .text c.field), ("operator", .text c.operator)] ++
    [("value", c.value), ("value2", c.value2)].filter fun (_, v) => v ≠ .null

end Condition

namespace ConditionGroup

/-- A group without rows. -/
def empty : ConditionGroup := ⟨[], .and, ""⟩

/-- The rows that can be compiled, in their order. -/
def complete (g : ConditionGroup) : List Condition :=
  g.conditions.filter Condition.isComplete

def read : Reader ConditionGroup :=
  Checked.record "ConditionGroup" fun ms =>
    Checked.closed ms ["conditions", "logic", "custom_logic"] <|
      ConditionGroup.mk
        <$> Checked.optional ms "conditions" [] (Checked.tuple Condition.read)
        <*> Checked.optional ms "logic" .and (Checked.choice .notMember Combinator.code Combinator.all)
        <*> Checked.optional ms "custom_logic" "" Checked.text

/-- The values of all rows. -/
def values (g : ConditionGroup) : List Value := g.conditions.flatMap Condition.values

/-- The values of the rows that can be compiled. -/
def exported (g : ConditionGroup) : List Value := g.complete.flatMap Condition.values

def toValue (g : ConditionGroup) : Value :=
  .record [
    ("conditions", .list (g.conditions.map Condition.toValue)),
    ("logic", .text g.logic.code),
    ("custom_logic", .text g.customLogic)]

/-- The group as compiled: complete rows only, and the expression where it counts. -/
def toRecord (g : ConditionGroup) : Members :=
  [("conditions", .list (g.complete.map Condition.toRecord)), ("logic", .text g.logic.code)] ++
    if g.logic = .custom then [("custom_logic", .text (Text.strip g.customLogic))] else []

/-- A row whose operator its field's type does not offer gets the one that every type offers. A row of an unknown
field stays. -/
def reconcileRow (types : List (String × String)) (c : Condition) : Condition :=
  match types.lookup c.field with
  | some type => if (Operator.forType type).contains c.operator then c else { c with operator := Operator.equals }
  | none => c

/-- The group with every row reconciled to the types of its fields. -/
def reconcile (g : ConditionGroup) (types : List (String × String)) : ConditionGroup :=
  { g with conditions := g.conditions.map (reconcileRow types) }

/-- What is wrong with a group that is to be saved. -/
inductive Fault where
  | noCompleteRow
  | unknownField (row : Nat) (field : String)
  | operatorUnavailable (row : Nat) (operator type field : String)
  | incompleteRow (row : Nat)
  | expressionMissing
  | expression (fault : Logic.Fault)
  deriving DecidableEq, Repr

def Fault.message : Fault → String
  | noCompleteRow => "Please add at least one complete condition."
  | unknownField row field => "Condition " ++ toString row ++ " references unknown field '" ++ field ++ "'."
  | operatorUnavailable row operator type field =>
    "Condition " ++ toString row ++ ": operator '" ++ operator ++ "' is not available for " ++ type ++ " field '" ++
      field ++ "'."
  | incompleteRow row =>
    "Condition " ++ toString row ++ " is incomplete; complete or remove it before using custom logic."
  | expressionMissing => "Please provide a custom logic expression."
  | expression fault => "Invalid custom logic: " ++ fault.message

/-- The first complete row, counted from `row`, with an unknown field or an operator that its field does not offer. -/
def typeFault (types : List (String × String)) (row : Nat) : List Condition → Option Fault
  | [] => none
  | c :: rest =>
    if !c.isComplete then typeFault types (row + 1) rest
    else match types.lookup c.field with
      | none => some (.unknownField row c.field)
      | some type =>
        if (Operator.forType type).contains c.operator then typeFault types (row + 1) rest
        else some (.operatorUnavailable row c.operator type c.field)

/-- The first row, counted from `row`, that is not complete. -/
def incompleteFault (row : Nat) : List Condition → Option Fault
  | [] => none
  | c :: rest => if c.isComplete then incompleteFault (row + 1) rest else some (.incompleteRow row)

/-- What is wrong with the expression of a group whose logic is custom. The expression numbers all rows, so all have
to be complete. -/
def customFault (g : ConditionGroup) : Option Fault :=
  match incompleteFault 1 g.conditions with
  | some fault => some fault
  | none =>
    if Text.isBlankText g.customLogic then
      if g.conditions.length > 1 then some .expressionMissing else none
    else (Logic.check g.customLogic g.conditions.length).map .expression

/-- The first fault of a group. Operators are checked only where the types of the fields are known. -/
def fault (g : ConditionGroup) (isRequired : Bool) (types : Option (List (String × String))) : Option Fault :=
  if isRequired && g.complete.isEmpty then some .noCompleteRow
  else match types.bind fun ts => typeFault ts 1 g.conditions with
    | some fault => some fault
    | none => if g.logic = .custom then g.customFault else none

end ConditionGroup

end FormFlow
