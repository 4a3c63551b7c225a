/-!
The parts of a double: sign, mantissa and exponent, read off its bits.
-/

set_option autoImplicit false

namespace FormFlow.Decimal

/-- A finite double is `mantissa * 2 ^ exponent` with its sign in front. -/
structure Parts where
  negative : Bool
  mantissa : Nat
  exponent : Int
  deriving DecidableEq, Repr

/-- What a double stands for. -/
inductive Reading where
  | finite (parts : Parts)
  | infinite (negative : Bool)
  | notANumber
  deriving DecidableEq, Repr

/-- The sign bit, the eleven bits of the exponent and the 52 bits of the fraction, put together. -/
def Reading.ofBits (bits : Nat) : Reading :=
  let negative := bits / Nat.pow 2 63 == 1
  let exponent : Nat := bits / Nat.pow 2 52 % Nat.pow 2 11
  let fraction := bits % Nat.pow 2 52
  if exponent == 2047 then
    if fraction == 0 then .infinite negative else .notANumber
  else if exponent == 0 then .finite ⟨negative, fraction, -1074⟩
  else .finite ⟨negative, Nat.pow 2 52 + fraction, (exponent : Int) - 1075⟩

/-- The reading of a double. -/
def reading (x : Float) : Reading :=
  .ofBits x.toBits.toNat

/-- The integer that a finite double equals, if it is one. -/
def Parts.whole? (p : Parts) : Option Int :=
  let sign : Int := if p.negative then -1 else 1
  if 0 ≤ p.exponent then some (sign * (p.mantissa * Nat.pow 2 p.exponent.toNat : Nat))
  else
    let unit := Nat.pow 2 (-p.exponent).toNat
    if p.mantissa % unit == 0 then some (sign * (p.mantissa / unit : Nat)) else none

/-- The integer that a double equals, if it is one. -/
def whole? (x : Float) : Option Int :=
  match reading x with
  | .finite p => p.whole?
  | _ => none

end FormFlow.Decimal
