import FormFlow.Config.Basic
/-!
What keeps a node from being saved.
-/

set_option autoImplicit false

namespace FormFlow

/-- The fewest and the most records that a query may be limited to. -/
def leastLimit : Int := 1
def mostLimit : Int := 100

/-- A problem with the configuration of a node. Rows of mappings and conditions are counted from one. -/
inductive NodeProblem where
  | objectMissing
  | requiredUnmapped (fields : List String)
  | mappingIncomplete (row : Nat)
  | noMapping
  | unknownTarget (row : Nat) (field object : String)
  | notPicklist (row : Nat) (target : String)
  | valueNotAllowed (row : Nat) (value target : String)
  | sourceIncompatible (row : Nat) (source sourceType target targetType : String)
  | conditions (fault : ConditionGroup.Fault)
  | exitConditions (fault : ConditionGroup.Fault)
  | limitOutOfRange
  | unknownSortField (field object : String)
  | findMissing
  | findNotBefore (find : String)
  | collectionMissing
  | collectionNotBefore (collection : String) (available : List String)
  | tooFewIterations
  | inputMissing
  | categoryMissing
  | unknownOperation (operation : String) (category : Category)
  | inputTypeRefused (type operation : String)
  | secondTypeRefused (type operation : String)
  | optionsMissing (operation : String) (options : List String)
  | literalMissing
  | secondInputMissing
  deriving DecidableEq, Repr

namespace NodeProblem

/-- The wording of an input whose type an operation does not take. -/
def typeRefused (which type operation : String) : String :=
  which ++ " field type (" ++ type ++ ") is not compatible with operation " ++ operation ++ "."

/-- The wording of a problem with a row of the mappings. -/
def inRow (row : Nat) (rest : String) : String := "Mapping " ++ toString row ++ rest

def message : NodeProblem → String
  | objectMissing => "Please select a target object."
  | requiredUnmapped fields => "Please map all required fields: " ++ ", ".intercalate fields
  | mappingIncomplete row =>
    inRow row " is incomplete: choose a target field and a form field, literal, or picklist value."
  | noMapping => "Please add at least one complete field mapping."
  | unknownTarget row field object => inRow row (": '" ++ field ++ "' is not a field of " ++ object ++ ".")
  | notPicklist row target => inRow row (": " ++ target ++ " is not a picklist field.")
  | valueNotAllowed row value target =>
    inRow row (": '" ++ value ++ "' is not an allowed value for " ++ target ++ ".")
  | sourceIncompatible row source sourceType target targetType =>
    inRow row (": form field '" ++ source ++ "' (" ++ sourceType ++ ") cannot be mapped to " ++ target ++ " (" ++
      targetType ++ ").")
  | conditions fault => fault.message
  | exitConditions fault => "Exit conditions: " ++ fault.message
  | limitOutOfRange =>
    "Return limit must be a number between " ++ toString leastLimit ++ " and " ++ toString mostLimit ++ "."
  | unknownSortField field object => "Sort field '" ++ field ++ "' is not a field of " ++ object ++ "."
  | findMissing => "Please select a Find node."
  | findNotBefore find =>
    "Invalid source Find node '" ++ find ++ "': it must be a Find node upstream of this filter."
  | collectionMissing => "Please select a loop collection and provide a current item variable name."
  | collectionNotBefore collection available =>
    let listed := if available.isEmpty then "none" else ", ".intercalate available
    "Invalid loop collection '" ++ collection ++ "': select a Find node upstream of this loop (available: " ++
      listed ++ ")."
  | tooFewIterations => "Max iterations must be a positive number."
  | inputMissing => "Please provide an input field and operation."
  | categoryMissing => "Please select a formatter category."
  | unknownOperation operation category =>
    "Operation '" ++ operation ++ "' is not a " ++ category.code ++ " operation (choose from " ++
      ", ".intercalate ((Operation.table category).map (·.1)) ++ ")."
  | inputTypeRefused type operation => typeRefused "Selected input" type operation
  | secondTypeRefused type operation => typeRefused "Second input" type operation
  | optionsMissing operation options =>
    "Operation " ++ operation ++ " requires option(s): " ++ ", ".intercalate options
  | literalMissing => "Please provide a literal value for the second input."
  | secondInputMissing => "Please provide a second input field or enable literal input."

end NodeProblem

/-- A node that cannot be saved. -/
structure InvalidNode where
  id : String
  name : String
  problem : NodeProblem
  deriving DecidableEq, Repr

def InvalidNode.message (n : InvalidNode) : String :=
  n.name ++ " (" ++ n.id ++ "): " ++ n.problem.message

end FormFlow
