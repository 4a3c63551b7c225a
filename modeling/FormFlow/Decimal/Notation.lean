import FormFlow.Decimal.Binary
import FormFlow.Decimal.Shortest
/-!
Doubles as text, and back.

A double is written with the fewest digits that read back: positionally from 1e-4 up to 1e16, and with an exponent of
at least two digits outside. A whole number keeps its `.0`.
-/

set_option autoImplicit false

namespace FormFlow.Decimal

/-- The exponents of ten at which positional notation begins and at which it has ended. -/
def positionalFrom : Int := -4
def positionalBelow : Int := 16

/-- Digits with the point after the first `point` of them, filled up with zeros on either side. -/
def positional (digits : List Char) (point : Int) : List Char :=
  if point ≤ 0 then '0' :: '.' :: (List.replicate (-point).toNat '0' ++ digits)
  else
    let p := point.toNat
    let whole := digits.take p ++ List.replicate (p - digits.length) '0'
    let fraction := digits.drop p
    whole ++ '.' :: (if fraction.isEmpty then ['0'] else fraction)

/-- Digits with the point after the first one, and the exponent of ten that puts it there. -/
def scientific (digits : List Char) (exponent : Int) : List Char :=
  let size := Nat.toDigits 10 exponent.natAbs
  let mark := if exponent < 0 then '-' else '+'
  let fraction := digits.drop 1
  digits.take 1 ++ (if fraction.isEmpty then [] else '.' :: fraction) ++
    'e' :: mark :: (List.replicate (2 - size.length) '0' ++ size)

/-- A decimal number without its sign. -/
def Scaled.layout (s : Scaled) : List Char :=
  let digits := Nat.toDigits 10 s.digits
  let lead := s.exponent + digits.length - 1
  if s.digits == 0 then ['0', '.', '0']
  else if positionalFrom ≤ lead && lead < positionalBelow then positional digits (lead + 1)
  else scientific digits lead

/-- The text of a double. -/
def write (x : Float) : String :=
  match reading x with
  | .notANumber => "nan"
  | .infinite negative => if negative then "-inf" else "inf"
  | .finite p =>
    let body := (shortest p.mantissa p.exponent).layout
    .ofList (if p.negative then '-' :: body else body)

/-- The double next to `digits * 10 ^ exponent`. Beyond the range of doubles it is infinite, far below it zero. -/
def round (negative : Bool) (digits : Nat) (exponent : Int) : Float :=
  let lead := exponent + digitCount digits
  let size : Float :=
    if digits == 0 || lead < -400 then 0.0
    else if lead > 400 then 1.0 / 0.0
    else Float.ofScientific digits (exponent < 0) exponent.natAbs
  if negative then -size else size

/-- The double next to an integer. -/
def ofInt (n : Int) : Float :=
  round (n < 0) n.natAbs 0

/-- The value of a run of decimal digits. -/
def digitsValue (cs : List Char) : Nat :=
  cs.foldl (fun n c => 10 * n + (c.toNat - '0'.toNat)) 0

/-- Splits a sign off; no sign counts as plus. -/
def splitSign : List Char → Bool × List Char
  | '-' :: rest => (true, rest)
  | '+' :: rest => (false, rest)
  | cs => (false, cs)

/-- Splits the leading digits off. -/
def splitDigits (cs : List Char) : List Char × List Char :=
  (cs.takeWhile Char.isDigit, cs.dropWhile Char.isDigit)

/-- Reads `digits`, `digits.digits`, `.digits` or `digits.`, then an optional exponent, to the end of the text. -/
def readUnsigned (negative : Bool) (cs : List Char) : Option Float :=
  let (whole, rest) := splitDigits cs
  let (fraction, rest) :=
    match rest with
    | '.' :: more => splitDigits more
    | _ => ([], rest)
  if whole.isEmpty && fraction.isEmpty then none
  else
    let digits := digitsValue (whole ++ fraction)
    let places : Int := fraction.length
    match rest with
    | [] => some (round negative digits (-places))
    | e :: more =>
      if e == 'e' || e == 'E' then
        let (below, power) := splitSign more
        if power.isEmpty || !power.all Char.isDigit then none
        else
          let size : Int := digitsValue power
          some (round negative digits ((if below then -size else size) - places))
      else none

/-- Reads a decimal literal with an optional sign. -/
def readLiteral (cs : List Char) : Option Float :=
  let (negative, rest) := splitSign cs
  readUnsigned negative rest

end FormFlow.Decimal
