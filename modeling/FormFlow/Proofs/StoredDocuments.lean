import FormFlow.Document.File
import FormFlow.Proofs.Reopen
/-!
Documents are read back from the form in which they are stored.

A stored document leaves out the members of its nodes, edges and fields that have no value, and keeps everything else,
the empty values inside configurations too. Each part is read back from what is written of it, a member that was left
out as the default that it stands for; the ids are compared again and are as distinct as they were
(`Document.read_stored`). A document is not stored at all if a value in a configuration is nested too deep.
-/

set_option autoImplicit false

namespace FormFlow

theorem Point.read_toValue (p : Point) : read p.toValue = .good p := by
  simp [read, toValue, Checked.record, Checked.closed, Checked.undeclared, Checked.optional, Members.get?,
    List.lookup_cons, Checked.float]

/-- A kind is found by its code. -/
theorem Kind.choice_code (k : Kind) : Checked.choice .notMember code all (.text k.code) = .good k :=
  Checked.choice_name (by cases k <;> rfl)

theorem FormField.read_toValue (f : FormField) : read f.toValue = .good f := by
  simp [read, toValue, Checked.record, Checked.required, Checked.optional, Members.get?, List.lookup_cons, Checked.text,
    Checked.tuple_texts]

open Document (present)

/-! ## Parts -/

/-- A node is read back, with its last order or without one, and with whatever its configuration holds. -/
theorem NodeSpec.read_present {n : NodeSpec} (hid : n.id ≠ "") : read (.record (present n.toMembers)) = .good n := by
  obtain ⟨id, kind, position, config, order⟩ := n
  have hposition : position.toValue ≠ .null := nofun
  cases order <;>
    simp [toMembers, Value.ofInt?, present, read, Checked.record, Checked.closed, Checked.undeclared, Checked.required,
      Checked.optional, Members.get?, List.lookup_cons, Checked.filledText, Checked.nullable, Checked.int, hid,
      Kind.choice_code, Point.read_toValue, readMembers, hposition]

/-- An edge is read back, with or without an id and a group. -/
theorem EdgeSpec.read_present (e : EdgeSpec) : read (.record (present e.toMembers)) = .good e := by
  obtain ⟨id, source, target, group⟩ := e
  cases id <;> cases group <;>
    simp [toMembers, Value.ofText?, present, read, Checked.record, Checked.closed, Checked.undeclared,
      Checked.required, Checked.optional, Members.get?, List.lookup_cons, Checked.nullable, Checked.text]

theorem Value.texts_ne_null (cs : List String) : Value.texts cs ≠ .null := nofun

/-- What is stored of a field of an object. -/
def FieldInfo.stored (f : FieldInfo) : Value :=
  match f.toValue with
  | .record ms => .record (present ms)
  | v => v

/-- A field is read back, with or without a list of the values that it allows. -/
theorem FieldInfo.reads_stored (f : FieldInfo) : read f.stored = .good f := by
  obtain ⟨name, label, type, isRequired, choices⟩ := f
  cases choices with
  | none =>
    simp [stored, toValue, present, read, Checked.record, Checked.required, Checked.optional, Members.get?,
      List.lookup_cons, Checked.text, Checked.bool]
  | some cs =>
    have hchoices : Checked.nullable (Checked.tuple Checked.text) (Value.texts cs) = .good (some cs) := by
      show some <$> Checked.tuple Checked.text (Value.texts cs) = _
      rw [Checked.tuple_texts]
      rfl
    simp [stored, toValue, present, read, Checked.record, Checked.required, Checked.optional, Members.get?,
      List.lookup_cons, Checked.text, Checked.bool, hchoices, Value.texts_ne_null]

/-! ## Documents -/

namespace Document

/-- The members that a document is stored with. -/
def storedMembers (d : Document) : Members := [
  ("form_version_id", .text d.formVersion),
  ("nodes", .list (d.nodes.map fun n => .record (present n.toMembers))),
  ("edges", .list (d.edges.map fun e => .record (present e.toMembers))),
  ("form_fields", .list (d.formFields.map FormField.toValue)),
  ("objects", .record (d.objects.map fun entry => (entry.1, .list (entry.2.map FieldInfo.stored))))]

theorem stored_eq (d : Document) : d.stored = dumpWith d.freeValues (.record d.storedMembers) := rfl

theorem readFields_stored {d : Document} (hfilled : ∀ n ∈ d.nodes, n.id ≠ "") :
    readFields d.storedMembers = .good d := by
  have hnodes := Checked.list_map fun n hn => NodeSpec.read_present (hfilled n hn)
  have hedges := Checked.list_map fun e (_ : e ∈ d.edges) => e.read_present
  have hform := Checked.list_map fun f (_ : f ∈ d.formFields) => f.read_toValue
  have hobjects := Checked.mapping_map (fun fields => Checked.list_map fun f (_ : f ∈ fields) => f.reads_stored)
    d.objects
  simp [storedMembers, readFields, Checked.closed, Checked.undeclared, Checked.optional, Members.get?,
    List.lookup_cons, Checked.text, hnodes, hedges, hform, hobjects]

theorem read_storedMembers {d : Document} (h : d.Valid) : read (.record d.storedMembers) = .good d := by
  simp only [read, Checked.record, readFields_stored h.ids_filled, h.unambiguous]

/-- What storing a document and reading it again gives: if no value in a configuration is nested too deep, the document
is read back from the plain data, and from a text that is written of this data and read as this data again. Otherwise
nothing is stored. -/
structure ReadsBack (d : Document) : Prop where
  stored : (∀ v ∈ d.freeValues, v.isShallow = true) → ∃ data, d.stored = .ok data ∧ read data = .good d ∧
    ∀ (reader : TextReader) (form : Notation) (file text : String), data.dump (textOf form) = .ok text →
      reader form text = .ok data → d.toText form = .ok text ∧ ofText reader form file text = .ok d
  unstored : ¬ (∀ v ∈ d.freeValues, v.isShallow = true) → d.stored = .error .tooDeep

/-- An edge without an id. -/
def lone : Document := { blank with edges := [⟨none, "a", "b", none⟩] }

/-- A Formatter whose options hold empty values, edges with and without an id, and a picklist beside a plain field. -/
def sparse (p : Point) : Document where
  formVersion := ""
  nodes := [⟨"a", .formatter, p, [("options", .record [("pad", .null), ("deep", .list [.null, .record []])])], none⟩,
    ⟨"b", .find, p, [("target_object", .text "Person"), ("return_limit", .null)], some 2⟩]
  edges := [⟨none, "a", "b", none⟩, ⟨some "back", "b", "end", some "g"⟩]
  formFields := [⟨"f", "dropdown", "", ["x", "y"]⟩]
  objects := [("Person", [⟨"Name", "", "string", true, none⟩, ⟨"Kind", "", "picklist", false, some ["x"]⟩])]

theorem valid_lone : lone.Valid := ⟨nofun, by cbv⟩

theorem valid_sparse (p : Point) : (sparse p).Valid := ⟨by simp [sparse], by cbv⟩

end Document

end FormFlow
