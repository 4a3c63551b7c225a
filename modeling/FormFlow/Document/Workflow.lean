import FormFlow.Document.Basic
import FormFlow.Graph.Store
/-!
From documents to stores and back.

A store built from a document has both sentinels, whether they are written or not. Whether its graph keeps the rules
of a workflow is checked elsewhere. The snapshot of a store is a document that gives the same nodes and edges again;
there is none if a value in a configuration is nested too deep to be written.
-/

set_option autoImplicit false

namespace FormFlow

namespace Document

/-- Why a document gives no store. -/
inductive Fault where
  | config (node : String) (fault : Config.Fault)
  | graph (fault : StructureFault)
  deriving DecidableEq, Repr

/-- The wording of a configuration that does not fit its node. -/
def configMessage (node : String) (fault : Config.Fault) : String :=
  "Invalid configuration for node '" ++ node ++ "': " ++ fault.message

def Fault.message : Fault → String
  | config node fault => configMessage node fault
  | graph fault => fault.message

/-- A node of the store as written. -/
def nodeOf (n : NodeSpec) : Except Fault Node :=
  match Config.parse n.kind n.config with
  | .ok c => .ok { Node.unplaced n.id c n.position with order := n.order }
  | .error f => .error (.config n.id f)

/-- Lifts a fault of the graph. -/
def ofStructure {α : Type} : Except StructureFault α → Except Fault α
  | .ok a => .ok a
  | .error f => .error (.graph f)

/-- Adds a sentinel that is not written. -/
def addMissing (d : Document) (id : String) (kind : Kind) (s : Store) : Except Fault Store :=
  if d.nodes.any fun n => n.id == id then .ok s
  else ofStructure (s.addNode (Node.unplaced id (.default kind) .origin))

/-- Adds a node as written. -/
def addSpec (s : Store) (n : NodeSpec) : Except Fault Store := do
  ofStructure (s.addNode (← nodeOf n))

/-- The store of a document: the start if it is not written, the nodes, the end if it is not written, the edges. -/
def store (d : Document) : Except Fault Store := do
  let s ← d.addMissing startId .start .empty
  let s ← d.nodes.foldlM addSpec s
  let s ← d.addMissing finishId .finish s
  ofStructure (d.edges.foldlM (fun s e => s.addEdge e.edge) s)

end Document

namespace Node

/-- The node as it is written with the fields of its configuration. -/
def specWith (n : Node) (config : Members) : NodeSpec := ⟨n.id, n.kind, n.position, config, n.order⟩

/-- The node as it is written. -/
def spec (n : Node) : NodeSpec := n.specWith n.config.toMembers

/-- The node as it is written, if its configuration can be. -/
def dump (n : Node) : Except DumpFault NodeSpec := n.config.dump.map n.specWith

end Node

namespace Edge

/-- The edge as it is written. -/
def spec (e : Edge) : EdgeSpec := ⟨some e.id, e.source, e.target, e.group⟩

end Edge

namespace Store

/-- The store as it is written with its nodes. -/
def specWith (s : Store) (formVersion : String) (formFields : List FormField) (objects : ObjectFields)
    (nodes : List NodeSpec) : Document :=
  ⟨formVersion, nodes, s.edges.map Edge.spec, formFields, objects⟩

/-- The store as it is written. -/
def spec (s : Store) (formVersion : String) (formFields : List FormField) (objects : ObjectFields) : Document :=
  s.specWith formVersion formFields objects (s.nodes.map Node.spec)

/-- The store as it is written, node by node, if all of them can be. -/
def snapshot (s : Store) (formVersion : String) (formFields : List FormField) (objects : ObjectFields) :
    Except DumpFault Document :=
  (s.nodes.mapM Node.dump).map (s.specWith formVersion formFields objects)

end Store

end FormFlow
