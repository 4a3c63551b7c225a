import FormFlow.Checked.Records
/-!
The fields on both ends of a workflow: those of the record store's objects and the inputs of the form.
-/

set_option autoImplicit false

namespace FormFlow

/-- A field of an object of the record store. -/
structure FieldInfo where
  name : String
  label : String
  type : String
  isRequired : Bool
  /-- The allowed values of a picklist, if they are known. -/
  choices : Option (List String)
  deriving DecidableEq, Repr

/-- An input of the form. -/
structure FormField where
  id : String
  type : String
  label : String
  /-- The choices of an input that offers some. -/
  options : List String
  deriving DecidableEq, Repr

/-- The fields of objects by the object's name. -/
abbrev ObjectFields := List (String × List FieldInfo)

namespace FieldInfo

/-- The name of a field in messages: its own, and its label where that differs. -/
def displayName (f : FieldInfo) : String :=
  if f.label ≠ "" ∧ f.label ≠ f.name then f.name ++ " (" ++ f.label ++ ")" else f.name

/-- Reads a field; members that are not declared are passed over. -/
def read : Reader FieldInfo :=
  Checked.record "FieldInfo" fun ms =>
    FieldInfo.mk
      <$> Checked.required ms "name" Checked.text
      <*> Checked.optional ms "label" "" Checked.text
      <*> Checked.required ms "type" Checked.text
      <*> Checked.optional ms "required" false Checked.bool
      <*> Checked.optional ms "picklist_values" none (Checked.nullable (Checked.tuple Checked.text))

def toValue (f : FieldInfo) : Value :=
  .record [
    ("name", .text f.name),
    ("label", .text f.label),
    ("type", .text f.type),
    ("required", .bool f.isRequired),
    ("picklist_values", match f.choices with
      | some cs => Value.texts cs
      | none => .null)]

/-- The fields of an object by name. Of two fields of one name the later one counts, at the first one's place. -/
def byName (fields : List FieldInfo) : List (String × FieldInfo) :=
  Members.ofPairs (fields.map fun f => (f.name, f))

/-- The types of an object's fields by name. -/
def typesByName (fields : List FieldInfo) : List (String × String) :=
  Members.ofPairs (fields.map fun f => (f.name, f.type))

end FieldInfo

namespace FormField

/-- Reads an input; members that are not declared are passed over. -/
def read : Reader FormField :=
  Checked.record "FormField" fun ms =>
    FormField.mk
      <$> Checked.required ms "id" Checked.text
      <*> Checked.required ms "type" Checked.text
      <*> Checked.optional ms "label" "" Checked.text
      <*> Checked.optional ms "options" [] (Checked.tuple Checked.text)

def toValue (f : FormField) : Value :=
  .record [
    ("id", .text f.id),
    ("type", .text f.type),
    ("label", .text f.label),
    ("options", Value.texts f.options)]

/-- The inputs of a form by id. Of two inputs of one id the later one counts, at the first one's place. -/
def byId (fields : List FormField) : List (String × FormField) :=
  Members.ofPairs (fields.map fun f => (f.id, f))

end FormField

end FormFlow
