import FormFlow.Graph.Store
import FormFlow.Inspection.Problem
/-!
The inspection of a node before it is saved.

An inspection names the first problem of a configuration. Nodes that work on an object of the record store are judged
by the object's fields, so an inspection is either settled at once or asks for the fields of one object; nothing is
fetched here, and nothing is changed.
-/

set_option autoImplicit false

namespace FormFlow

/-- A judgement on a node, or the object whose fields it takes. -/
inductive Inspection where
  | settled (problem : Option NodeProblem)
  | byFields (object : String) (judge : List FieldInfo → Option NodeProblem)

namespace Inspection

/-- A problem under a condition. -/
def when (bad : Bool) (problem : NodeProblem) : Option NodeProblem :=
  if bad then some problem else none

/-- Whether an optional text is not there or blank. -/
def isMissing (s : Option String) : Bool := (Value.ofText? s).isMissing

/-- The texts in order of their characters. -/
def sorted (ids : List String) : List String := ids.mergeSort fun a b => !(b < a)

/-- The display names of the required fields that no complete mapping writes. -/
def unmapped (fields : List (String × FieldInfo)) (mappings : List FieldMapping) : List String :=
  let mapped := (mappings.filter FieldMapping.isComplete).map (·.target)
  (fields.filter fun (_, f) => f.isRequired && !mapped.contains f.name).map fun (_, f) => f.displayName

/-- The problem of a picklist's value: its field is no picklist, or does not allow it. -/
def pickProblem (row : Nat) (target : FieldInfo) (value : String) : Option NodeProblem :=
  when (!Compatibility.isPicklist target.type) (.notPicklist row target.displayName)
    <|> match target.choices with
      | some choices => when (!choices.contains value) (.valueNotAllowed row value target.displayName)
      | none => none

/-- The problem of an input of the form that feeds a field. Inputs that are not listed are not judged. -/
def sourceProblem (form : List (String × FormField)) (row : Nat) (target : FieldInfo) (id : String) :
    Option NodeProblem :=
  match form.lookup id with
  | some source =>
    when (!Compatibility.mayFeed target source)
      (.sourceIncompatible row (if source.label ≠ "" then source.label else source.id) source.type target.displayName
        target.type)
  | none => none

/-- The first problem of a complete mapping against the fields of its object. -/
def mappingProblem (form : List (String × FormField)) (fields : List (String × FieldInfo)) (object : String)
    (m : FieldMapping) (row : Nat) : Option NodeProblem :=
  match fields.lookup m.target with
  | none => some (.unknownTarget row m.target object)
  | some target =>
    ((Text.filled? m.pick).bind (pickProblem row target))
      <|> ((Text.filled? m.source).bind (sourceProblem form row target))

/-- The first problem of a node that writes records. -/
def writes (form : List (String × FormField)) (c : CreateOrUpdateConfig) (all : List FieldInfo) :
    Option NodeProblem :=
  let fields := FieldInfo.byName all
  let left := unmapped fields c.mappings
  let rows := c.mappings.zipIdx 1
  when (!left.isEmpty) (.requiredUnmapped left)
    <|> rows.findSome? (fun (m, row) => when (!m.isComplete) (.mappingIncomplete row))
    <|> when c.mappings.isEmpty .noMapping
    <|> rows.findSome? (fun (m, row) => mappingProblem form fields c.targetObject m row)
    <|> if c.enableConditions then
      (c.conditions.fault true (some (FieldInfo.typesByName all))).map .conditions
    else none

/-- The first problem of a query. -/
def query (c : FindConfig) (all : List FieldInfo) : Option NodeProblem :=
  ((c.conditions.fault true (some (FieldInfo.typesByName all))).map .conditions)
    <|> (c.returnLimit.bind fun n => when (n < leastLimit || mostLimit < n) .limitOutOfRange)
    <|> ((Text.filled? c.sortField).bind fun field =>
      when (!all.any fun f => f.name == field) (.unknownSortField field c.targetObject))

/-- The problem of the Find that a Filter narrows: there is one before it and none is chosen, or the chosen one is not
before it. -/
def narrowed (finds : List String) (source : Option String) : Option NodeProblem :=
  if isMissing source then when (!finds.isEmpty) .findMissing
  else source.bind fun find => when (!finds.contains find) (.findNotBefore find)

/-- The first problem of a Loop. -/
def loop (finds : List String) (c : LoopConfig) : Option NodeProblem :=
  when (isMissing c.collection || Text.isBlankText c.itemVariable) .collectionMissing
    <|> (c.collection.bind fun ref => when (!finds.contains ref) (.collectionNotBefore ref (sorted finds)))
    <|> (c.maxIterations.bind fun n => when (n < 1) .tooFewIterations)
    <|> (c.exitConditions.fault false none).map .exitConditions

/-- The problem of an input whose type an operation does not take. Inputs that are not listed are not judged. -/
def inputProblem (form : List (String × FormField)) (accepted : List String) (id : String)
    (problem : String → NodeProblem) : Option NodeProblem :=
  (form.lookup id).bind fun f => when (!accepted.contains f.type) (problem f.type)

/-- Whether an option is not set: text may be empty only where that means something. -/
def optionUnset (options : Members) (option : String) : Bool :=
  match Members.get? options option with
  | none => true
  | some v => if Operation.mayBeEmpty option then v = .null else v.isMissing

/-- The problem of the second input of an operation that takes two. -/
def secondProblem (c : FormatterConfig) : Option NodeProblem :=
  if !Operation.takesTwo c.operation then none
  else if c.useLiteral then
    when ((c.literal.map Literal.toValue).getD .null).isMissing .literalMissing
  else when (isMissing c.secondInput) .secondInputMissing

/-- The first problem of a formatter whose operation is known, with the types of input that it takes. -/
def operation (form : List (String × FormField)) (c : FormatterConfig) (accepted : List String) :
    Option NodeProblem :=
  let unset := (Operation.requiredOptions c.operation).filter (optionUnset c.options)
  inputProblem form accepted c.input (.inputTypeRefused · c.operation)
    <|> when (!unset.isEmpty) (.optionsMissing c.operation unset)
    <|> secondProblem c
    <|> if c.useLiteral then none
      else (Text.filled? c.secondInput).bind fun id =>
        inputProblem form accepted id (.secondTypeRefused · c.operation)

/-- The first problem of a formatter. -/
def formatter (form : List (String × FormField)) (c : FormatterConfig) : Option NodeProblem :=
  if Text.isBlankText c.input || Text.isBlankText c.operation then some .inputMissing
  else match c.category with
    | none => some .categoryMissing
    | some category =>
      match Operation.inputTypes? category c.operation with
      | none => some (.unknownOperation c.operation category)
      | some accepted => operation form c accepted

/-- An inspection by the fields of an object, which has to be chosen. -/
def ofObject (object : String) (judge : List FieldInfo → Option NodeProblem) : Inspection :=
  if Text.isBlankText object then settled (some .objectMissing) else byFields object judge

/-- The inspection of a guard. Guards that do not decide by rules pass; rules are typed only under an object. -/
def guard (c : ConditionConfig) : Inspection :=
  if c.branchMode ≠ .rules then settled none
  else if c.targetObject = "" then settled ((c.conditions.fault true none).map .conditions)
  else byFields c.targetObject fun all =>
    (c.conditions.fault true (some (FieldInfo.typesByName all))).map .conditions

end Inspection

namespace Store

/-- The inspection of a node in its graph. -/
def inspect (s : Store) (form : List (String × FormField)) (n : Node) : Inspection :=
  match n.config with
  | .start | .finish | .path => .settled none
  | .createOrUpdate c => .ofObject c.targetObject (Inspection.writes form c)
  | .find c => .ofObject c.targetObject (Inspection.query c)
  | .filter c =>
    .ofObject c.query.targetObject fun all =>
      Inspection.query c.query all <|> Inspection.narrowed (s.findsBefore n.id) c.sourceFind
  | .loop c => .settled (Inspection.loop (s.findsBefore n.id) c)
  | .formatter c => .settled (Inspection.formatter form c)
  | .condition c => Inspection.guard c

end Store

end FormFlow
