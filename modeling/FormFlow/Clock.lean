import FormFlow.Value.Spoken
/-!
Time for the editor: seconds on a clock that is only moved forward.
-/

set_option autoImplicit false

namespace FormFlow

/-- A number of seconds: whole, or with a fraction. -/
inductive Seconds where
  | whole (n : Int)
  | real (x : Float)
  deriving DecidableEq, Repr

namespace Seconds

/-- The seconds as a double. -/
def toFloat : Seconds → Float
  | whole n => Decimal.ofInt n
  | real x => x

/-- The sum; it is whole if both parts are. -/
def add : Seconds → Seconds → Seconds
  | whole m, whole n => whole (m + n)
  | a, b => real (a.toFloat + b.toFloat)

/-- The difference; it is whole if both parts are. -/
def sub : Seconds → Seconds → Seconds
  | whole m, whole n => whole (m - n)
  | a, b => real (a.toFloat - b.toFloat)

/-- Whether one number of seconds is less than another. -/
def lt : Seconds → Seconds → Bool
  | whole m, whole n => m < n
  | a, b => a.toFloat < b.toFloat

def toValue : Seconds → Value
  | whole n => .int n
  | real x => .float x

/-- No time. -/
def zero : Seconds := real 0.0

end Seconds

/-- A clock. -/
structure Clock where
  now : Seconds
  deriving DecidableEq, Repr

namespace Clock

/-- The wording of a step back. -/
def backMessage (step : Seconds) : String :=
  "Cannot advance clock by negative amount: " ++ step.toValue.spoken

/-- Moves a clock forward. A step back is refused. -/
def advance (c : Clock) (step : Seconds) : Option Clock :=
  if step.lt (.whole 0) then none else some ⟨c.now.add step⟩

end Clock

end FormFlow
