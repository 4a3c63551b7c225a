import FormFlow.Compatibility
import FormFlow.Condition.Basic
import FormFlow.Kind
/-!
The configuration of a node: one shape for each kind.

Storage is loose. A mapping that is half filled in or an object that is not chosen yet is a valid configuration; what
a node needs to be saved is decided elsewhere.
-/

set_option autoImplicit false

namespace FormFlow

/-- A field of the record store and what feeds it: an input of the form, a fixed text, or a value of a picklist. -/
structure FieldMapping where
  target : String
  source : Option String
  literal : Option String
  pick : Option String
  deriving DecidableEq, Repr

namespace FieldMapping

/-- Which of its sources a mapping uses. -/
inductive SourceKind where
  | formField
  | picklist
  | literal
  deriving DecidableEq, Repr

/-- The name of a kind of source. -/
def SourceKind.code : SourceKind → String
  | formField => "form_field"
  | picklist => "picklist"
  | literal => "literal"

/-- Whether a text is there and not empty. -/
def filled (s : Option String) : Bool :=
  s.getD "" != ""

/-- The source that counts: the input of the form, then the picklist's value, then the fixed text. -/
def sourceKind (m : FieldMapping) : Option SourceKind :=
  if filled m.source then some .formField
  else if filled m.pick then some .picklist
  else if filled m.literal then some .literal
  else none

/-- Whether the mapping names its field and has a source. -/
def isComplete (m : FieldMapping) : Bool :=
  m.target != "" && m.sourceKind.isSome

end FieldMapping

/-- The order in which found records are sorted. -/
inductive SortOrder where
  | ascending
  | descending
  deriving DecidableEq, Repr

namespace SortOrder

def all : List SortOrder := [ascending, descending]

def code : SortOrder → String
  | ascending => "ASC"
  | descending => "DESC"

end SortOrder

/-- How a Condition decides whether its branch runs. -/
inductive BranchMode where
  | rules
  | alwaysRun
  | fallback
  deriving DecidableEq, Repr

namespace BranchMode

def all : List BranchMode := [rules, alwaysRun, fallback]

def code : BranchMode → String
  | rules => "Rules"
  | alwaysRun => "AlwaysRun"
  | fallback => "Fallback"

end BranchMode

/-- A fixed second input of a formatter. -/
inductive Literal where
  | text (s : String)
  | int (n : Int)
  | float (x : Float)
  deriving DecidableEq, Repr

/-- Writes records of an object. -/
structure CreateOrUpdateConfig where
  targetObject : String
  mappings : List FieldMapping
  enableConditions : Bool
  conditions : ConditionGroup
  deriving DecidableEq, Repr

/-- Finds records of an object. -/
structure FindConfig where
  targetObject : String
  conditions : ConditionGroup
  returnLimit : Option Int
  sortField : Option String
  sortOrder : SortOrder
  deriving DecidableEq, Repr

/-- Narrows what a Find before it found. -/
structure FilterConfig where
  query : FindConfig
  sourceFind : Option String
  deriving DecidableEq, Repr

/-- Runs over what a Find before it found. -/
structure LoopConfig where
  collection : Option String
  itemVariable : String
  maxIterations : Option Int
  includeIndex : Bool
  includeCounter : Bool
  exitConditions : ConditionGroup
  description : String
  deriving DecidableEq, Repr

/-- Reshapes one or two inputs. -/
structure FormatterConfig where
  category : Option Category
  operation : String
  input : String
  secondInput : Option String
  useLiteral : Bool
  literal : Option Literal
  options : Members
  deriving DecidableEq, Repr

/-- Guards a branch. A guard that was drawn by connecting a Path knows the Path and the target it stands between. -/
structure ConditionConfig where
  branchMode : BranchMode
  targetObject : String
  conditions : ConditionGroup
  pathNode : Option String
  targetNode : Option String
  deriving DecidableEq, Repr

/-- The configuration of a node. -/
inductive Config where
  | start
  | finish
  | createOrUpdate (c : CreateOrUpdateConfig)
  | find (c : FindConfig)
  | filter (c : FilterConfig)
  | loop (c : LoopConfig)
  | formatter (c : FormatterConfig)
  | condition (c : ConditionConfig)
  | path
  deriving DecidableEq, Repr

namespace Config

def kind : Config → Kind
  | start => .start
  | finish => .finish
  | createOrUpdate _ => .createOrUpdate
  | find _ => .find
  | filter _ => .filter
  | loop _ => .loop
  | formatter _ => .formatter
  | condition _ => .condition
  | path => .path

/-- The object of the record store that the node works on; empty for kinds without one. -/
def targetObject : Config → String
  | createOrUpdate c => c.targetObject
  | find c => c.targetObject
  | filter c => c.query.targetObject
  | condition c => c.targetObject
  | _ => ""

/-- The Path that a guard belongs to. -/
def guardedPath : Config → Option String
  | condition c => c.pathNode
  | _ => none

/-- The collection that a Loop runs over, if one is chosen. -/
def collection : Config → Option String
  | loop c => Text.filled? c.collection
  | _ => none

/-- The configuration with no collection chosen. -/
def withoutCollection : Config → Config
  | loop c => loop { c with collection := none }
  | c => c

end Config

end FormFlow
