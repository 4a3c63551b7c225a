/-!
What an editor announces: changes of the workflow, and warnings about state that was repaired.

Subscribers are called in the order in which they subscribed, each for one topic, up to the first that fails.
-/

set_option autoImplicit false

namespace FormFlow

/-- A change of a workflow. -/
inductive Change where
  | addNode
  | connect
  | disconnectEdge
  | deleteNode
  | updateConfig
  deriving DecidableEq, Repr

def Change.code : Change → String
  | addNode => "add_node"
  | connect => "connect"
  | disconnectEdge => "disconnect_edge"
  | deleteNode => "delete_node"
  | updateConfig => "update_node_config"

/-- A Loop whose collection was cleared because its Find is out of reach. -/
structure Warning where
  loopName : String
  loopId : String
  find : String
  deriving DecidableEq, Repr

namespace Warning

def code : String := "stale_loop_collection"

def message (w : Warning) : String :=
  "Loop " ++ w.loopName ++ " (" ++ w.loopId ++ ") can no longer iterate Find node '" ++ w.find ++
    "'; its collection was cleared."

/-- The nodes that a warning is about. -/
def nodeIds (w : Warning) : List String := [w.loopId, w.find]

end Warning

/-- An announcement. -/
inductive Event where
  /-- A change was made to nodes; the workflow has so many nodes and edges now. -/
  | changed (change : Change) (nodeIds : List String) (nodes edges : Nat)
  | warned (warning : Warning)
  deriving DecidableEq, Repr

/-- What a subscriber listens to. -/
inductive Topic where
  | changes
  | warnings
  deriving DecidableEq, Repr

/-- The topic of an announcement. -/
def Event.topic : Event → Topic
  | changed .. => .changes
  | warned _ => .warnings

/-- A subscriber, who may fail at every announcement. -/
structure Subscriber where
  topic : Topic
  name : String
  fails : Bool
  deriving DecidableEq, Repr

namespace Subscriber

/-- The wording of a failure. -/
def failureMessage (s : Subscriber) : String := "handler " ++ s.name ++ " failed"

/-- The subscribers that are called for a topic, and the one of them that fails. -/
def called (topic : Topic) : List Subscriber → List Subscriber × Option Subscriber
  | [] => ([], none)
  | s :: rest =>
    if s.topic ≠ topic then called topic rest
    else if s.fails then ([s], some s)
    else
      let (more, failed) := called topic rest
      (s :: more, failed)

end Subscriber

end FormFlow
