import FormFlow.Config.Data
import FormFlow.Graph.Node
/-!
Workflow documents: the written form of a workflow.

A document lists nodes with their configurations as plain data, edges, the inputs of the form, and the fields of the
objects that the workflow works on, so that it can be checked without a connection to the record store. A document
that was read has distinct node ids and distinct edge ids. It may hold values that are nested too deep to be written
again.
-/

set_option autoImplicit false

namespace FormFlow

/-- A node as written. Its order is the last one that was computed; it keeps unreached nodes in their sequence. -/
structure NodeSpec where
  id : String
  kind : Kind
  position : Point
  config : Members
  order : Option Int
  deriving DecidableEq, Repr

/-- An edge as written. -/
structure EdgeSpec where
  id : Option String
  source : String
  target : String
  group : Option String
  deriving DecidableEq, Repr

/-- A workflow as written. -/
structure Document where
  formVersion : String
  nodes : List NodeSpec
  edges : List EdgeSpec
  formFields : List FormField
  objects : ObjectFields
  deriving DecidableEq, Repr

namespace Point

def read : Reader Point :=
  Checked.record "PositionSpec" fun ms =>
    Checked.closed ms ["x", "y"] <|
      Point.mk <$> Checked.optional ms "x" 0.0 Checked.float <*> Checked.optional ms "y" 0.0 Checked.float

def toValue (p : Point) : Value := .record [("x", .float p.x), ("y", .float p.y)]

end Point

namespace NodeSpec

def read : Reader NodeSpec :=
  Checked.record "NodeSpec" fun ms =>
    Checked.closed ms ["id", "kind", "position", "config", "order"] <|
      NodeSpec.mk
        <$> Checked.required ms "id" Checked.filledText
        <*> Checked.required ms "kind" (Checked.choice .notMember Kind.code Kind.all)
        <*> Checked.optional ms "position" .origin Point.read
        <*> Checked.optional ms "config" [] readMembers
        <*> Checked.optional ms "order" none (Checked.nullable Checked.int)

def toMembers (n : NodeSpec) : Members := [
  ("id", .text n.id),
  ("kind", .text n.kind.code),
  ("position", n.position.toValue),
  ("config", .record n.config),
  ("order", Value.ofInt? n.order)]

end NodeSpec

namespace EdgeSpec

def read : Reader EdgeSpec :=
  Checked.record "EdgeSpec" fun ms =>
    Checked.closed ms ["id", "source", "target", "branch_group_id"] <|
      EdgeSpec.mk
        <$> Checked.optional ms "id" none (Checked.nullable Checked.text)
        <*> Checked.required ms "source" Checked.text
        <*> Checked.required ms "target" Checked.text
        <*> Checked.optional ms "branch_group_id" none (Checked.nullable Checked.text)

def toMembers (e : EdgeSpec) : Members := [
  ("id", Value.ofText? e.id),
  ("source", .text e.source),
  ("target", .text e.target),
  ("branch_group_id", Value.ofText? e.group)]

/-- The edge itself: without an id it gets the one that follows from its ends, and an empty group is none. -/
def edge (e : EdgeSpec) : Edge :=
  ⟨(Text.filled? e.id).getD (Edge.idFor e.source e.target), e.source, e.target, Text.filled? e.group⟩

end EdgeSpec

namespace Document

/-- The document of a workflow that has nothing of its own. -/
def blank : Document := ⟨"", [], [], [], []⟩

/-- The first id that an earlier item of a list has already. -/
def firstRepeated (seen : List String) : List String → Option String
  | [] => none
  | id :: rest => if seen.contains id then some id else firstRepeated (id :: seen) rest

/-- The ids that occur more than once, each once, in order of their characters. -/
def repeated (ids : List String) : List String :=
  (ids.filter fun id => 1 < ids.count id).eraseDups.mergeSort fun a b => !(b < a)

def edgeIds (d : Document) : List String := d.edges.map fun e => e.edge.id

/-- What makes the ids of a document ambiguous. -/
def idFault (d : Document) : Option String :=
  match firstRepeated [] (d.nodes.map (·.id)) with
  | some id => some ("Duplicate node id '" ++ id ++ "'")
  | none =>
    match repeated d.edgeIds with
    | [] => none
    | ids => some ("Duplicate edge id(s): " ++ ", ".intercalate ids)

def readFields (ms : Members) : Checked Document :=
  Checked.closed ms ["form_version_id", "nodes", "edges", "form_fields", "objects"] <|
    Document.mk
      <$> Checked.optional ms "form_version_id" "" Checked.text
      <*> Checked.optional ms "nodes" [] (Checked.list NodeSpec.read)
      <*> Checked.optional ms "edges" [] (Checked.list EdgeSpec.read)
      <*> Checked.optional ms "form_fields" [] (Checked.list FormField.read)
      <*> Checked.optional ms "objects" [] (Checked.mapping (Checked.list FieldInfo.read))

/-- Reads a document. Ids are compared once the fields were read. -/
def read : Reader Document :=
  Checked.record "WorkflowDocument" fun ms =>
    match readFields ms with
    | .bad ps => .bad ps
    | .good d =>
      match d.idFault with
      | some reason => Checked.fail (.refused reason)
      | none => .good d

/-- The members that have a value. -/
def present (ms : Members) : Members := ms.filter fun (_, v) => v ≠ .null

/-- The document as plain data; `keep` chooses the members of nodes, edges and fields that are written. -/
def toValueWith (keep : Members → Members) (d : Document) : Value :=
  let kept : Value → Value
    | .record ms => .record (keep ms)
    | v => v
  .record [
    ("form_version_id", .text d.formVersion),
    ("nodes", .list (d.nodes.map fun n => .record (keep n.toMembers))),
    ("edges", .list (d.edges.map fun e => .record (keep e.toMembers))),
    ("form_fields", .list (d.formFields.map FormField.toValue)),
    ("objects", .record (d.objects.map fun (name, fields) => (name, .list (fields.map fun f => kept f.toValue))))]

/-- The values in the configurations of nodes. They may have any shape. -/
def freeValues (d : Document) : List Value := d.nodes.flatMap fun n => Members.values n.config

/-- The document as plain data, every member written. -/
def toValue (d : Document) : Except DumpFault Value := dumpWith d.freeValues (d.toValueWith id)

/-- The document as plain data, members without a value left out: the form that is stored. -/
def stored (d : Document) : Except DumpFault Value := dumpWith d.freeValues (d.toValueWith present)

end Document

end FormFlow
