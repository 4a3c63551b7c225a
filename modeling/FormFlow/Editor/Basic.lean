import FormFlow.Clock
import FormFlow.Document.Workflow
import FormFlow.Event
import FormFlow.Graph.Structure
/-!
The editor of one workflow.

An editor holds the placed graph, what it knows of the form and of objects, the connection that it accepted last, and
the warnings so far. It is opened fresh, with the two sentinels, or on a document whose graph keeps the rules.
-/

set_option autoImplicit false

namespace FormFlow

/-- Two ends, and when they were connected. -/
structure Connection where
  source : String
  target : String
  time : Seconds
  deriving DecidableEq, Repr

/-- An editor. -/
structure Editor where
  store : Store
  form : List (String × FormField)
  objects : ObjectFields
  /-- Whether there is a source of field lists. -/
  hasSource : Bool
  /-- How long a repeat of the last connection is ignored. -/
  window : Seconds
  lastConnect : Option Connection
  warnings : List Warning
  deriving DecidableEq, Repr

/-- Why an editor cannot be opened on a document. -/
inductive OpenFault where
  | document (fault : Document.Fault)
  | placement (fault : Digraph.PlacementFault)
  deriving DecidableEq, Repr

namespace Editor

/-- An editor on a store that is placed. -/
def onStore (store : Store) (formFields : List FormField) (window : Seconds) : Editor :=
  ⟨store, FormField.byId formFields, [], false, window, none, []⟩

/-- The editor of a workflow that has its sentinels only. -/
def fresh (formFields : List FormField) (window : Seconds) : Except OpenFault Editor :=
  match Store.withSentinels.recompute with
  | .ok s => .ok (onStore s formFields window)
  | .error f => .error (.placement f)

/-- The store of a document as an editor holds it: its graph keeps the rules, and every node is placed. -/
def openStore (d : Document) : Except OpenFault Store :=
  match d.store with
  | .error f => .error (.document f)
  | .ok s =>
    match s.checkStructure with
    | .error f => .error (.document (.graph f))
    | .ok () =>
      match s.copy.recompute with
      | .error f => .error (.placement f)
      | .ok s => .ok s

/-- Opens a document. The document's own objects are a source of field lists if no other is given. -/
def openOn (d : Document) (window : Seconds) (sourceGiven : Bool) : Except OpenFault Editor :=
  (openStore d).map fun s =>
    { onStore s d.formFields window with
      objects := d.objects
      hasSource := sourceGiven || !d.objects.isEmpty }

/-- The workflow as a document, if it can be written. -/
def document (e : Editor) (formVersion : String) : Except DumpFault Document :=
  e.store.snapshot formVersion (e.form.map (·.2)) e.objects

/-- The nodes in the order in which they run. -/
def sequence (e : Editor) : List Node :=
  e.store.nodes.mergeSort fun a b => a.order.getD 0 ≤ b.order.getD 0

/-- Whether a connection repeats the last one inside the window. -/
def isRepeat (e : Editor) (source target : String) (now : Seconds) : Bool :=
  match e.lastConnect with
  | some c => c.source == source && c.target == target && (now.sub c.time).lt e.window
  | none => false

end Editor

end FormFlow
