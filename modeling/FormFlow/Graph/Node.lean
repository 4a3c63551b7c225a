import FormFlow.Config.Basic
/-!
The nodes and edges of a workflow.
-/

set_option autoImplicit false

namespace FormFlow

/-- A place on the canvas. -/
structure Point where
  x : Float
  y : Float
  deriving DecidableEq, Repr

namespace Point

def origin : Point := ⟨0.0, 0.0⟩

/-- The place half way between two others. -/
def midpoint (a b : Point) : Point := ⟨(a.x + b.x) / 2.0, (a.y + b.y) / 2.0⟩

end Point

/-- A node of a workflow. Its order, level and labels follow from the graph; a node that was not placed yet has
none. -/
structure Node where
  id : String
  position : Point
  config : Config
  order : Option Int
  level : Option Nat
  label : String
  displayLabel : String
  deriving DecidableEq, Repr

/-- A directed edge. The two edges of a branch share a group. -/
structure Edge where
  id : String
  source : String
  target : String
  group : Option String
  deriving DecidableEq, Repr

/-- The id of the node that opens a workflow. -/
def startId : String := "start"

/-- The id of the node that closes a workflow. -/
def finishId : String := "end"

namespace Node

/-- A node that was not placed yet. -/
def unplaced (id : String) (config : Config) (position : Point) : Node :=
  ⟨id, position, config, none, none, "", ""⟩

/-- The kind of a node is the one that its configuration has the shape of. -/
def kind (n : Node) : Kind := n.config.kind

/-- The name of a node in messages: the first of its labels and its id that is not empty. -/
def name (n : Node) : String :=
  if n.displayLabel ≠ "" then n.displayLabel
  else if n.label ≠ "" then n.label
  else n.id

end Node

namespace Edge

/-- The id of an edge that is given none. -/
def idFor (source target : String) : String := "e" ++ source ++ "-" ++ target

/-- An edge outside all branches under the id that follows from its ends. -/
def plain (source target : String) : Edge := ⟨idFor source target, source, target, none⟩

end Edge

end FormFlow
