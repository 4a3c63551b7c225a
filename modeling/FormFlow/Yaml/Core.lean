import FormFlow.Yaml.Shape
/-!
What a plain scalar stands for in the core of YAML, where only `true` and `false` are truth values, a leading zero does
not change the base of a number, and an exponent needs no point.
-/

set_option autoImplicit false

namespace FormFlow.Yaml

/-- The words for true and for false in the core. -/
def coreTrueWords : List String := ["true", "True", "TRUE"]
def coreFalseWords : List String := ["false", "False", "FALSE"]

/-- Whether there is a digit among digits of a base and underscores. -/
def isRun (base : Nat) (cs : List Char) : Bool := cs.all (isDigitOf base) && !(bare cs).isEmpty

/-- The value of an integer of the core without sign. -/
def coreNatural? : List Char → Option Nat
  | '0' :: 'b' :: ds => if isRun 2 ds then some (valueIn 2 ds) else none
  | '0' :: 'o' :: ds => if isRun 8 ds then some (valueIn 8 ds) else none
  | '0' :: 'x' :: ds => if isRun 16 ds then some (valueIn 16 ds) else none
  | cs => if isRun 10 cs then some (valueIn 10 cs) else none

/-- Whether the characters are an exponent; `isFree` exponents need no sign. -/
def isExponent (isFree : Bool) : List Char → Bool
  | e :: rest =>
    let ds := match rest with
      | '-' :: ds | '+' :: ds => ds
      | ds => if isFree then ds else []
    (e == 'e' || e == 'E') && !ds.isEmpty && ds.all Char.isDigit
  | [] => false

/-- The value of a double of the core without sign. -/
def coreUnsigned? (cs : List Char) : Option Float :=
  let whole := cs.takeWhile (isDigitOf 10)
  let rest := cs.drop whole.length
  let isNumber := match rest with
    | '.' :: more =>
      let fraction := more.takeWhile (isDigitOf 10)
      let power := more.drop fraction.length
      if whole.isEmpty then !(bare fraction).isEmpty && (power.isEmpty || isExponent false power)
      else isWhole whole && (power.isEmpty || isExponent true power)
    | _ => isWhole whole && isExponent true rest
  if isNumber then Decimal.readUnsigned false (bare cs) else none

/-- The value of a double of the core. -/
def coreFloat? (cs : List Char) : Option Float :=
  let (negative, body) := Decimal.splitSign cs
  let word := String.ofList body
  if [".inf", ".Inf", ".INF"].contains word then some (if negative then -1.0 / 0.0 else 1.0 / 0.0)
  else if body.length == cs.length && [".nan", ".NaN", ".NAN"].contains word then some (0.0 / 0.0)
  else (coreUnsigned? body).map fun x => if negative then -x else x

/-- The shape of a plain scalar in the core. -/
def Shape.ofCore (s : String) : Shape :=
  let cs := s.toList
  if coreTrueWords.contains s then .bool true
  else if coreFalseWords.contains s then .bool false
  else if nullWords.contains s then .null
  else if s = "=" then .valueMark
  else if s = "<<" then .mergeMark
  else
    let (negative, body) := Decimal.splitSign cs
    match (if cs.head? == some '_' then none else coreNatural? body) with
    | some n => .int (if negative then -n else n)
    | none =>
      match coreFloat? cs with
      | some x => .float x
      | none => if isDate cs then .date else .text

end FormFlow.Yaml
