/-!
The kinds of nodes in a workflow.
-/

set_option autoImplicit false

namespace FormFlow

/-- What a node does. `start` and `finish` bound the workflow: each is there once and is never deleted. -/
inductive Kind where
  | start
  | finish
  | createOrUpdate
  | find
  | filter
  | loop
  | formatter
  | condition
  | path
  deriving DecidableEq, Repr

namespace Kind

/-- Every kind, in the order in which messages list them. -/
def all : List Kind :=
  [start, finish, createOrUpdate, find, filter, loop, formatter, condition, path]

def code : Kind → String
  | start => "start"
  | finish => "end"
  | createOrUpdate => "create_or_update"
  | find => "find"
  | filter => "filter"
  | loop => "loop"
  | formatter => "formatter"
  | condition => "condition"
  | path => "path"

/-- The first part of the labels of a kind. -/
def labelStem : Kind → String
  | start => "Start"
  | finish => "End"
  | createOrUpdate => "CreateOrUpdate"
  | find => "Find"
  | filter => "Filter"
  | loop => "Loop"
  | formatter => "Formatter"
  | condition => "Cond"
  | path => "Path"

/-- The name of a kind in the editor. -/
def displayName : Kind → String
  | start => "Start"
  | finish => "End"
  | createOrUpdate => "Create/Update"
  | find => "Find"
  | filter => "Filter"
  | loop => "Loop"
  | formatter => "Formatter"
  | condition => "Condition"
  | path => "Path"

/-- Whether the kind bounds the workflow. -/
def isSentinel : Kind → Bool
  | start | finish => true
  | _ => false

/-- The kind of a name. -/
def ofCode? (s : String) : Option Kind :=
  all.find? fun k => k.code == s

end Kind

end FormFlow
