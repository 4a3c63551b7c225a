/-!
The fewest decimal digits that read back as a given double.

A double stands for the interval of reals that round to it. On each decimal grid the two neighbours of the double's
value are tried, from one digit to seventeen; the first grid with a neighbour inside the interval wins, and of two
inside the nearer one.
-/

set_option autoImplicit false

namespace FormFlow.Decimal

/-- The number `digits * 10 ^ exponent`. -/
structure Scaled where
  digits : Nat
  exponent : Int
  deriving DecidableEq, Repr

/-- The reals that round to a double: its value and the two ends of the interval, as numerators over one denominator,
and whether the ends belong to it. -/
structure Interval where
  low : Nat
  value : Nat
  high : Nat
  denominator : Nat
  closed : Bool

/-- The interval of `mantissa * 2 ^ exponent`. The gap below a power of two is half the gap above it. -/
def Interval.of (mantissa : Nat) (exponent : Int) : Interval :=
  let below := if mantissa == Nat.pow 2 52 && exponent > -1074 then 1 else 2
  let scale := Nat.pow 2 exponent.toNat
  { low := (4 * mantissa - below) * scale
    value := 4 * mantissa * scale
    high := (4 * mantissa + 2) * scale
    denominator := 4 * Nat.pow 2 (-exponent).toNat
    closed := mantissa % 2 == 0 }

/-- How many decimal digits a number has. -/
def digitCount (n : Nat) : Nat :=
  (Nat.toDigits 10 n).length

/-- The exponent of the leading digit of `numerator / denominator`. -/
def leadingExponent (numerator denominator : Nat) : Int :=
  let guess : Int := digitCount numerator - digitCount denominator
  let reached := Nat.pow 10 guess.toNat * denominator ≤ numerator * Nat.pow 10 (-guess).toNat
  if reached then guess else guess - 1

/-- Whether `digits * 10 ^ exponent` lies in the interval. -/
def Interval.holds (i : Interval) (digits : Nat) (exponent : Int) : Bool :=
  let point := digits * Nat.pow 10 exponent.toNat * i.denominator
  let scale := Nat.pow 10 (-exponent).toNat
  if i.closed then i.low * scale ≤ point && point ≤ i.high * scale
  else i.low * scale < point && point < i.high * scale

/-- The neighbour of the value on the grid `10 ^ exponent` that lies in the interval. -/
def Interval.pick (i : Interval) (exponent : Int) : Option Nat :=
  let unit := Nat.pow 10 exponent.toNat * i.denominator
  let scaled := i.value * Nat.pow 10 (-exponent).toNat
  let under := scaled / unit
  let rest := scaled % unit
  match i.holds under exponent, i.holds (under + 1) exponent with
  | true, true => some (if 2 * rest < unit || (2 * rest == unit && under % 2 == 0) then under else under + 1)
  | true, false => some under
  | false, true => some (under + 1)
  | false, false => none

/-- Tries the grids of `count`, `count + 1`, … digits, at most `tries` of them. -/
def Interval.search (i : Interval) (lead : Int) (count : Nat) : Nat → Option Scaled
  | 0 => none
  | tries + 1 =>
    let exponent := lead - count + 1
    match i.pick exponent with
    | some digits => some ⟨digits, exponent⟩
    | none => i.search lead (count + 1) tries

/-- Trailing zeros moved into the exponent. -/
def Scaled.trim (s : Scaled) : Scaled :=
  let zeros := ((Nat.toDigits 10 s.digits).reverse.takeWhile (· == '0')).length
  if s.digits == 0 then ⟨0, 0⟩ else ⟨s.digits / Nat.pow 10 zeros, s.exponent + zeros⟩

/-- The shortest digits that read back as `mantissa * 2 ^ exponent`. Seventeen always do. -/
def shortest (mantissa : Nat) (exponent : Int) : Scaled :=
  if mantissa == 0 then ⟨0, 0⟩
  else
    let i := Interval.of mantissa exponent
    match i.search (leadingExponent i.value i.denominator) 1 17 with
    | some s => s.trim
    | none => ⟨mantissa * Nat.pow 2 exponent.toNat, 0⟩

end FormFlow.Decimal
