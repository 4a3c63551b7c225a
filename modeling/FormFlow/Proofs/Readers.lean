import Mathlib.Control.Basic
import FormFlow.Checked.Records
/-!
How readers compose.

Reading is applicative: parts that are read one after the other, with all their problems in order, may be grouped in
any way, and a function of what is read may be taken in at any place. So a change of what is read can be made where a
field is read, or after a record is.
-/

set_option autoImplicit false

namespace FormFlow.Checked

variable {α β : Type}

instance : LawfulFunctor Checked where
  map_const := rfl
  id_map x := by cases x <;> rfl
  comp_map g h x := by cases x <;> rfl

instance : LawfulApplicative Checked where
  seqLeft_eq x y := by cases x <;> cases y <;> rfl
  seqRight_eq x y := by cases x <;> cases y <;> rfl
  pure_seq g x := by cases x <;> rfl
  map_pure g x := rfl
  seq_pure g x := by cases g <;> rfl
  seq_assoc x g h := by
    -- Only where all three have problems do they have to be appended.
    cases x <;> cases g <;> cases h <;> simp

theorem seq_eq_good {f : Checked (α → β)} {x : Checked α} {b : β} :
    f <*> x = .good b ↔ ∃ g a, f = .good g ∧ x = .good a ∧ g a = b := by
  cases f <;> cases x <;> simp

theorem map_eq_good {f : α → β} {x : Checked α} {b : β} : f <$> x = .good b ↔ ∃ a, x = .good a ∧ f a = b := by
  cases x <;> simp

theorem under_map (k : α → β) (name : String) (x : Checked α) : (k <$> x).under name = k <$> x.under name := by
  cases x <;> rfl

theorem closed_map (k : α → β) (ms : Members) (declared : List String) (x : Checked α) :
    closed ms declared (k <$> x) = k <$> closed ms declared x := by
  unfold closed
  cases x with
  | good a =>
    rw [map_good]
    split <;> simp_all
  | bad ps =>
    rw [map_bad]
    split <;> simp_all

/-- Reading a record of declared fields looks at nothing else in it but what is not declared. -/
theorem closed_congr {ms ms' : Members} {declared : List String} (h : undeclared ms declared = undeclared ms' declared)
    (x : Checked α) : closed ms declared x = closed ms' declared x := by
  unfold closed
  rw [h]

/-- A record is read if no name in it is undeclared and its fields are read. -/
theorem closed_eq_good {ms : Members} {declared : List String} {x : Checked α} {a : α} :
    closed ms declared x = .good a ↔ undeclared ms declared = [] ∧ x = .good a := by
  unfold closed
  cases undeclared ms declared with
  | nil => simp
  | cons p ps => cases x <;> simp

theorem optional_map (k : α → β) (ms : Members) (name : String) (default : α) (r : Reader α) :
    optional ms name (k default) (fun v => k <$> r v) = k <$> optional ms name default r := by
  rw [optional, optional]
  cases Members.get? ms name with
  | none => rfl
  | some v => exact under_map k name (r v)

theorem optional_map_none (k : α → β) (ms : Members) (name : String) (r : Reader (Option α)) :
    optional ms name none (fun v => Option.map k <$> r v) = Option.map k <$> optional ms name none r :=
  optional_map (Option.map k) ms name none r

end FormFlow.Checked
