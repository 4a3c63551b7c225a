/-!
Reading plain data into types, with every problem collected.

A reader turns a `Value` into a `Checked` value: either the value of the type, or all the problems of the data, each
with the path of names and positions that leads to it. Problems come in the order in which the parts are read: the
declared fields first, then the names that are not declared.
-/

set_option autoImplicit false

namespace FormFlow

/-- What is wrong with a piece of data. -/
inductive Cause where
  | missing
  | undeclared
  | notRecord (type : String)
  | notMapping
  | notList
  | notTuple
  | notText
  | emptyText
  | notMember (choices : List String)
  | notLiteral (choices : List String)
  | notBool
  | unreadableBool
  | notInt
  | unreadableInt
  | fractionalInt
  | oversizedInt
  | notFinite
  | notFloat
  | unreadableFloat
  | notAbove (bound : Nat)
  | below (bound : Nat)
  | refused (reason : String)
  deriving DecidableEq, Repr

namespace Cause

/-- The choices as a message lists them, each in quotes, the last after `or`. -/
def listed (choices : List String) : String :=
  let quoted := choices.map fun c => "'" ++ c ++ "'"
  match quoted.reverse with
  | [] => ""
  | [only] => only
  | last :: before => ", ".intercalate before.reverse ++ " or " ++ last

def code : Cause → String
  | missing => "missing"
  | undeclared => "extra_forbidden"
  | notRecord _ => "model_type"
  | notMapping => "dict_type"
  | notList => "list_type"
  | notTuple => "tuple_type"
  | notText => "string_type"
  | emptyText => "string_too_short"
  | notMember _ => "enum"
  | notLiteral _ => "literal_error"
  | notBool => "bool_type"
  | unreadableBool => "bool_parsing"
  | notInt => "int_type"
  | unreadableInt => "int_parsing"
  | fractionalInt => "int_from_float"
  | oversizedInt => "int_parsing_size"
  | notFinite => "finite_number"
  | notFloat => "float_type"
  | unreadableFloat => "float_parsing"
  | notAbove _ => "greater_than"
  | below _ => "greater_than_equal"
  | refused _ => "value_error"

def message : Cause → String
  | missing => "Field required"
  | undeclared => "Extra inputs are not permitted"
  | notRecord type => "Input should be a valid dictionary or instance of " ++ type
  | notMapping => "Input should be a valid dictionary"
  | notList => "Input should be a valid list"
  | notTuple => "Input should be a valid tuple"
  | notText => "Input should be a valid string"
  | emptyText => "String should have at least 1 character"
  | notMember choices => "Input should be " ++ listed choices
  | notLiteral choices => "Input should be " ++ listed choices
  | notBool => "Input should be a valid boolean"
  | unreadableBool => "Input should be a valid boolean, unable to interpret input"
  | notInt => "Input should be a valid integer"
  | unreadableInt => "Input should be a valid integer, unable to parse string as an integer"
  | fractionalInt => "Input should be a valid integer, got a number with a fractional part"
  | oversizedInt => "Unable to parse input string as an integer, exceeded maximum size"
  | notFinite => "Input should be a finite number"
  | notFloat => "Input should be a valid number"
  | unreadableFloat => "Input should be a valid number, unable to parse string as a number"
  | notAbove bound => "Input should be greater than " ++ toString bound
  | below bound => "Input should be greater than or equal to " ++ toString bound
  | refused reason => "Value error, " ++ reason

end Cause

/-- A problem and the path to it. -/
structure Problem where
  path : List String
  cause : Cause
  deriving DecidableEq, Repr

namespace Problem

/-- The path between points, or another text for the empty path, and the wording. -/
def describe (root : String) (p : Problem) : String :=
  (if p.path.isEmpty then root else ".".intercalate p.path) ++ ": " ++ p.cause.message

/-- Problems in one line. -/
def summary (root : String) (ps : List Problem) : String :=
  "; ".intercalate (ps.map (describe root))

end Problem

/-- A value that was read, or the problems of its data. -/
inductive Checked (α : Type) where
  | good (value : α)
  | bad (problems : List Problem)
  deriving DecidableEq, Repr

namespace Checked

variable {α β : Type}

/-- Applies a function to the value. -/
def map (f : α → β) : Checked α → Checked β
  | good a => good (f a)
  | bad ps => bad ps

/-- Applies a read function to a read value; the problems of both are kept, in order. -/
def app : Checked (α → β) → Checked α → Checked β
  | good f, good a => good (f a)
  | good _, bad ps => bad ps
  | bad ps, good _ => bad ps
  | bad ps, bad qs => bad (ps ++ qs)

instance : Functor Checked where
  map := map

instance : Applicative Checked where
  pure := good
  seq f x := app f (x ())

/-- The problems moved under a name. -/
def under (name : String) : Checked α → Checked α
  | good a => good a
  | bad ps => bad (ps.map fun p => ⟨name :: p.path, p.cause⟩)

/-- One problem with the data itself. -/
def fail (cause : Cause) : Checked α :=
  bad [⟨[], cause⟩]

/-- A rule on a value that was read. -/
def ensure (ok : α → Bool) (cause : α → Cause) : Checked α → Checked α
  | good a => if ok a then good a else fail (cause a)
  | bad ps => bad ps

/-- The problems; none of a value that was read. -/
def problems : Checked α → List Problem
  | good _ => []
  | bad ps => ps

@[simp] theorem map_good (f : α → β) (a : α) : f <$> (good a) = good (f a) := rfl
@[simp] theorem map_bad (f : α → β) (ps : List Problem) : f <$> (bad ps : Checked α) = bad ps := rfl
@[simp] theorem seq_good (f : α → β) (a : α) : good f <*> good a = good (f a) := rfl
@[simp] theorem seq_good_bad (f : α → β) (ps : List Problem) : good f <*> bad ps = bad ps := rfl
@[simp] theorem seq_bad_good (ps : List Problem) (a : α) : (bad ps : Checked (α → β)) <*> good a = bad ps := rfl
@[simp] theorem seq_bad_bad (ps qs : List Problem) : (bad ps : Checked (α → β)) <*> bad qs = bad (ps ++ qs) := rfl
@[simp] theorem under_good (name : String) (a : α) : under name (good a) = good a := rfl

end Checked

end FormFlow
