import FormFlow.Decimal.Notation
import FormFlow.Text.Digits
import FormFlow.Text.Pieces
/-!
What a plain scalar of YAML stands for.

Words such as `yes`, `off` and `~` are truth values and no value; numbers may be written in four bases, by sixties, and
with underscores; a text in the shape of a date is one. Everything else is text. A text that has another shape when it
is written plainly needs quotes.
-/

set_option autoImplicit false

namespace FormFlow.Yaml

/-- What a plain scalar stands for. -/
inductive Shape where
  | text
  | null
  | bool (b : Bool)
  | int (n : Int)
  | float (x : Float)
  | date
  /-- The sign that stands for the value of a mapping itself. -/
  | valueMark
  /-- The sign that merges a mapping into another. -/
  | mergeMark
  deriving DecidableEq, Repr

/-- The words for true, for false and for no value. -/
def trueWords : List String := ["yes", "Yes", "YES", "true", "True", "TRUE", "on", "On", "ON"]
def falseWords : List String := ["no", "No", "NO", "false", "False", "FALSE", "off", "Off", "OFF"]
def nullWords : List String := ["", "~", "null", "Null", "NULL"]

/-- A digit of a base, or an underscore. -/
def isDigitOf (base : Nat) (c : Char) : Bool := c == '_' || Text.isDigitOf base c

/-- The characters without underscores. -/
def bare (cs : List Char) : List Char := cs.filter (· != '_')

/-- The value of digits of a base with underscores between them. -/
def valueIn (base : Nat) (cs : List Char) : Nat :=
  Text.valueIn base (bare cs)

/-- A number below sixty in one digit or two. -/
def isSixtieth : List Char → Bool
  | [a] => a.isDigit
  | [a, b] => '0' ≤ a && a ≤ '5' && b.isDigit
  | _ => false

/-- Whether the characters are a digit and then digits and underscores. -/
def isWhole : List Char → Bool
  | c :: rest => c.isDigit && rest.all (isDigitOf 10)
  | [] => false

/-- The value of an integer without sign. -/
def natural? : List Char → Option Nat
  | '0' :: 'b' :: ds => if !ds.isEmpty && ds.all (isDigitOf 2) then some (valueIn 2 ds) else none
  | '0' :: 'x' :: ds => if !ds.isEmpty && ds.all (isDigitOf 16) then some (valueIn 16 ds) else none
  | '0' :: ds => if ds.all (isDigitOf 8) then some (valueIn 8 ds) else none
  | cs =>
    match Text.pieces ':' cs with
    | first :: sixties =>
      if isWhole first && sixties.all isSixtieth then
        some (sixties.foldl (fun n p => 60 * n + valueIn 10 p) (valueIn 10 first))
      else none
    | [] => none

/-- Whether the characters are an exponent, with its sign, or nothing. -/
def isPower : List Char → Bool
  | [] => true
  | e :: sign :: ds =>
    (e == 'e' || e == 'E') && (sign == '-' || sign == '+') && !ds.isEmpty && ds.all Char.isDigit
  | _ => false

/-- A double by sixties: the value of each part, the last one with a fraction. -/
def sixtyFloat (parts : List (List Char)) : Float :=
  let value := fun p => (Decimal.readUnsigned false (bare p)).getD 0.0
  (parts.reverse.foldl (fun (sum, base) p => (sum + value p * base, base * 60.0)) ((0.0, 1.0) : Float × Float)).1

/-- The value of a double without sign; one that starts with its point cannot follow a sign. -/
def unsigned? (signed : Bool) (cs : List Char) : Option Float :=
  match Text.cut (· == '.') cs with
  | (_, none) => none
  | (whole, some rest) =>
    let fraction := rest.takeWhile (isDigitOf 10)
    let power := rest.dropWhile (isDigitOf 10)
    match whole with
    | [] =>
      if !signed && isWhole fraction && isPower power then Decimal.readUnsigned false (bare cs) else none
    | _ =>
      if isWhole whole && isPower power then Decimal.readUnsigned false (bare cs)
      else
        match Text.pieces ':' whole with
        | first :: next :: more =>
          if isWhole first && (next :: more).all isSixtieth && power.isEmpty then
            some (sixtyFloat (Text.pieces ':' cs))
          else none
        | _ => none

/-- The value of a double. -/
def float? (cs : List Char) : Option Float :=
  let (negative, body) := Decimal.splitSign cs
  let signed := body.length < cs.length
  let word := String.ofList body
  if [".inf", ".Inf", ".INF"].contains word then some (if negative then -1.0 / 0.0 else 1.0 / 0.0)
  else if !signed && [".nan", ".NaN", ".NAN"].contains word then some (0.0 / 0.0)
  else (unsigned? signed body).map fun x => if negative then -x else x

/-- What is left after at least `least` and at most `most` digits. -/
def afterDigits (least most : Nat) (cs : List Char) : Option (List Char) :=
  let ds := (cs.take most).takeWhile Char.isDigit
  if least ≤ ds.length then some (cs.drop ds.length) else none

/-- What is left after a character. -/
def after (c : Char) : List Char → Option (List Char)
  | d :: rest => if d = c then some rest else none
  | [] => none

/-- A blank inside a time. -/
def isTimeGap (c : Char) : Bool := c == ' ' || c == '\t'

/-- Whether the characters name a time zone, or nothing. -/
def isZone (cs : List Char) : Bool :=
  if cs.isEmpty then true
  else
    match cs.dropWhile isTimeGap with
    | ['Z'] => true
    | sign :: rest =>
      if sign == '-' || sign == '+' then
        match afterDigits 1 2 rest with
        | some [] => true
        | some rest => ((after ':' rest).bind (afterDigits 2 2)) == some []
        | none => false
      else false
    | [] => false

/-- What is left after the clock of a time: hours, minutes, seconds and their fraction. -/
def afterClock (cs : List Char) : Option (List Char) := do
  let cs ← afterDigits 1 2 cs
  let cs ← afterDigits 2 2 (← after ':' cs)
  let cs ← afterDigits 2 2 (← after ':' cs)
  return match cs with
    | '.' :: rest => rest.dropWhile Char.isDigit
    | _ => cs

/-- What is left between the day and the clock of a time. -/
def afterGap : List Char → Option (List Char)
  | c :: rest =>
    if c == 'T' || c == 't' then some rest
    else if isTimeGap c then some (rest.dropWhile isTimeGap)
    else none
  | [] => none

/-- Whether the characters have the shape of a date, or of a date and a time. -/
def isDate (cs : List Char) : Bool :=
  let month := (afterDigits 4 4 cs).bind (after '-')
  let day := (month.bind (afterDigits 2 2)).bind fun r => (after '-' r).bind (afterDigits 2 2)
  let loose := (month.bind (afterDigits 1 2)).bind fun r => (after '-' r).bind (afterDigits 1 2)
  day == some [] || (((loose.bind afterGap).bind afterClock).map isZone).getD false

/-- The shape of a plain scalar. -/
def Shape.of (s : String) : Shape :=
  let cs := s.toList
  if trueWords.contains s then .bool true
  else if falseWords.contains s then .bool false
  else if nullWords.contains s then .null
  else if s = "=" then .valueMark
  else if s = "<<" then .mergeMark
  else
    let (negative, body) := Decimal.splitSign cs
    match natural? body with
    | some n => .int (if negative then -n else n)
    | none =>
      match float? cs with
      | some x => .float x
      | none => if isDate cs then .date else .text

end FormFlow.Yaml
