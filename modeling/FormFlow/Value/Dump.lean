import FormFlow.Value.Basic
/-!
What can be written out.

A value of any shape is written level by level, and beyond a number of levels it is taken to hold itself: what is
nested deeper is read and kept, but cannot be written. Integers are written as text, and those of too many digits have
none.
-/

set_option autoImplicit false

namespace FormFlow

/-- Why data cannot be written. -/
inductive DumpFault where
  /-- A value is nested too deep. -/
  | tooDeep
  /-- An integer has too many digits. -/
  | tooLong
  deriving DecidableEq, Repr

def DumpFault.message : DumpFault → String
  | tooDeep => "Circular reference detected (depth exceeded)"
  | tooLong =>
    "Exceeds the limit (4300 digits) for integer string conversion; use sys.set_int_max_str_digits() to increase " ++
      "the limit"

/-- The number of levels that are written of a value. -/
def levelLimit : Nat := 255

/-- The number of digits that are written of an integer. -/
def digitLimit : Nat := 4300

namespace Value

mutual
/-- The levels of a value. A value that holds no other has one. -/
def levels : Value → Nat
  | .null | .bool _ | .int _ | .float _ | .text _ => 1
  | .list items => levelsOfItems items + 1
  | .record members => levelsOfMembers members + 1

/-- The levels of the deepest of some items. -/
def levelsOfItems : List Value → Nat
  | [] => 0
  | v :: rest => max v.levels (levelsOfItems rest)

/-- The levels of the deepest of some members. -/
def levelsOfMembers : List (String × Value) → Nat
  | [] => 0
  | (_, v) :: rest => max v.levels (levelsOfMembers rest)
end

/-- Whether all levels of a value are written. -/
def isShallow (v : Value) : Bool := v.levels ≤ levelLimit

mutual
/-- Whether no integer of a value has too many digits. -/
def hasDigits : Value → Bool
  | .int n => n.natAbs < Nat.pow 10 digitLimit
  | .null | .bool _ | .float _ | .text _ => true
  | .list items => hasDigitsInItems items
  | .record members => hasDigitsInMembers members

/-- Whether no integer of some items has too many digits. -/
def hasDigitsInItems : List Value → Bool
  | [] => true
  | v :: rest => v.hasDigits && hasDigitsInItems rest

/-- Whether no integer of some members has too many digits. -/
def hasDigitsInMembers : List (String × Value) → Bool
  | [] => true
  | (_, v) :: rest => v.hasDigits && hasDigitsInMembers rest
end

/-- A text of a value, if its integers have one. -/
def dump (write : Value → String) (v : Value) : Except DumpFault String :=
  if v.hasDigits then .ok (write v) else .error .tooLong

end Value

/-- What is written of something that holds values of any shape. -/
def dumpWith {α : Type} (values : List Value) (written : α) : Except DumpFault α :=
  if values.all Value.isShallow then .ok written else .error .tooDeep

variable {α : Type} {values : List Value} {written a : α} {f : DumpFault}

theorem dumpWith_of_forall (h : ∀ v ∈ values, v.isShallow = true) : dumpWith values written = .ok written :=
  if_pos (List.all_eq_true.mpr h)

/-- Nothing is written if a value is nested too deep. -/
theorem dumpWith_of_not_forall (h : ¬ ∀ v ∈ values, v.isShallow = true) :
    dumpWith values written = .error .tooDeep :=
  if_neg (mt List.all_eq_true.mp h)

theorem dumpWith_eq_ok_iff :
    dumpWith values written = .ok a ↔ (∀ v ∈ values, v.isShallow = true) ∧ written = a := by
  by_cases h : ∀ v ∈ values, v.isShallow = true
  · rw [dumpWith_of_forall h, Except.ok.injEq, and_iff_right h]
  · rw [dumpWith_of_not_forall h]
    exact iff_of_false nofun fun hboth => h hboth.1

theorem map_dumpWith {β : Type} (f : α → β) : (dumpWith values written).map f = dumpWith values (f written) := by
  unfold dumpWith
  split <;> rfl

/-- What is written one after the other is written together. -/
theorem mapM_dumpWith {β : Type} (values : β → List Value) (written : β → α) (xs : List β) :
    xs.mapM (fun x => dumpWith (values x) (written x)) = dumpWith (xs.flatMap values) (xs.map written) := by
  induction xs with
  | nil => rfl
  | cons x xs ih =>
    rw [List.mapM_cons, ih, List.flatMap_cons, List.map_cons]
    unfold dumpWith
    rw [List.all_append]
    cases (values x).all Value.isShallow <;> cases (xs.flatMap values).all Value.isShallow <;> rfl

end FormFlow
