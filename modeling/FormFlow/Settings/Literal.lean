import FormFlow.Decimal.Notation
import FormFlow.Text.Digits
import FormFlow.Value.Basic
/-!
What the text of an environment variable stands for.

A text that is a TOML value is that value: a number, a truth value, a text in quotes, a list or a record in braces.
Every other text stands for itself. A truth value may begin with a capital.

A reader of a part takes the characters from where the part begins, and gives the part and the characters after it.
-/

set_option autoImplicit false

namespace FormFlow.Literal

/-- A blank between values. -/
def isGap (c : Char) : Bool := c == ' ' || c == '\t'

/-- A blank or a line break between the values of a list. -/
def isWideGap (c : Char) : Bool := isGap c || c == '\n'

/-- A character that text in quotes cannot hold as it is. -/
def isControl (c : Char) : Bool := (c.toNat < 0x20 && c != '\t') || c.toNat == 0x7F

/-- The digits that go on, with single underscores between them, and the rest. -/
def moreDigits (base : Nat) : List Char → List Char × List Char
  | [] => ([], [])
  | '_' :: c :: rest =>
    if Text.isDigitOf base c then
      let (ds, rest) := moreDigits base rest
      (c :: ds, rest)
    else ([], '_' :: c :: rest)
  | c :: rest =>
    if Text.isDigitOf base c then
      let (ds, rest) := moreDigits base rest
      (c :: ds, rest)
    else ([], c :: rest)

/-- At least one digit. -/
def digits (base : Nat) : List Char → Option (List Char × List Char)
  | c :: rest => if Text.isDigitOf base c then some (moreDigits base (c :: rest)) else none
  | [] => none

/-- The bases that are marked by a letter after a zero. -/
def bases : List (Char × Nat) := [('x', 16), ('o', 8), ('b', 2)]

/-- A number with its base marked. -/
def basedNumber : List Char → Option (Value × List Char)
  | '0' :: mark :: rest => do
    let base ← bases.lookup mark
    let (ds, rest) ← digits base rest
    return (.int (Text.valueIn base ds), rest)
  | _ => none

/-- The digits before the point of a decimal number: a zero stands alone. -/
def wholePart : List Char → Option (List Char × List Char)
  | '0' :: rest => some (['0'], rest)
  | cs => digits 10 cs

/-- A point and digits, or nothing. -/
def fractionPart : List Char → List Char × List Char
  | '.' :: rest =>
    match digits 10 rest with
    | some (ds, rest) => ('.' :: ds, rest)
    | none => ([], '.' :: rest)
  | cs => ([], cs)

/-- A sign, or nothing. -/
def signPart : List Char → List Char × List Char
  | '-' :: rest => (['-'], rest)
  | '+' :: rest => (['+'], rest)
  | cs => ([], cs)

/-- An exponent, or nothing. -/
def powerPart : List Char → List Char × List Char
  | e :: rest =>
    let (sign, rest') := signPart rest
    match (if e == 'e' || e == 'E' then digits 10 rest' else none) with
    | some (ds, rest) => ('e' :: (sign ++ ds), rest)
    | none => ([], e :: rest)
  | [] => ([], [])

/-- A decimal number: an integer, or a double if it has a fraction or an exponent. -/
def decimalNumber (cs : List Char) : Option (Value × List Char) := do
  let (sign, cs) := signPart cs
  let (whole, cs) ← wholePart cs
  let (fraction, cs) := fractionPart cs
  let (power, cs) := powerPart cs
  if fraction.isEmpty && power.isEmpty then
    let n : Int := Text.valueIn 10 whole
    return (.int (if sign == ['-'] then -n else n), cs)
  else
    return (.float (← Decimal.readLiteral (sign ++ whole ++ fraction ++ power)), cs)

/-- What is left after a word. -/
def afterWord (word : String) (cs : List Char) : Option (List Char) :=
  if word.toList.isPrefixOf cs then some (cs.drop word.length) else none

def words : List (String × Value) := [
  ("true", .bool true), ("false", .bool false), ("inf", .float (1.0 / 0.0)), ("+inf", .float (1.0 / 0.0)),
  ("-inf", .float (-1.0 / 0.0)), ("nan", .float (0.0 / 0.0)), ("+nan", .float (0.0 / 0.0)),
  ("-nan", .float (0.0 / 0.0))]

/-- A value that is written as a word. -/
def word (cs : List Char) : Option (Value × List Char) :=
  words.findSome? fun (w, v) => (afterWord w cs).map fun rest => (v, rest)

/-- The characters that stand for others after a backslash. -/
def escapes : List (Char × Char) := [
  ('b', '\x08'), ('t', '\t'), ('n', '\n'), ('f', '\x0c'), ('r', '\r'), ('"', '"'), ('\\', '\\')]

/-- The character of hexadecimal digits after a backslash; halves of characters have none. -/
def escapedCode (count : Nat) (cs : List Char) : Option Char :=
  let ds := cs.take count
  let code := Text.valueIn 16 ds
  if ds.length == count && ds.all (Text.isDigitOf 16) && (code < 0xD800 || (0xDFFF < code && code ≤ 0x10FFFF)) then
    some (Char.ofNat code)
  else none

/-- The rest of a text in double quotes; `skip` characters are passed over first. -/
def quotedFrom : (skip : Nat) → List Char → Option (List Char × List Char)
  | _, [] => none
  | skip + 1, _ :: rest => quotedFrom skip rest
  | 0, '"' :: rest => some ([], rest)
  | 0, '\\' :: 'u' :: rest => do
    let c ← escapedCode 4 rest
    let (cs, rest) ← quotedFrom 4 rest
    return (c :: cs, rest)
  | 0, '\\' :: 'U' :: rest => do
    let c ← escapedCode 8 rest
    let (cs, rest) ← quotedFrom 8 rest
    return (c :: cs, rest)
  | 0, '\\' :: mark :: rest => do
    let c ← escapes.lookup mark
    let (cs, rest) ← quotedFrom 0 rest
    return (c :: cs, rest)
  | 0, c :: rest =>
    if isControl c || c == '\\' then none
    else (quotedFrom 0 rest).map fun (cs, rest) => (c :: cs, rest)

/-- A text in quotes on one line. -/
def quoted : List Char → Option (String × List Char)
  | '"' :: rest =>
    if rest.take 2 == ['"', '"'] then none
    else (quotedFrom 0 rest).map fun (cs, rest) => (.ofList cs, rest)
  | '\'' :: rest =>
    let body := rest.takeWhile (· != '\'')
    if rest.take 2 == ['\'', '\''] || body.length == rest.length || body.any isControl then none
    else some (.ofList body, rest.drop (body.length + 1))
  | _ => none

/-- A value of one word, number or text. -/
def scalar (cs : List Char) : Option (Value × List Char) :=
  ((quoted cs).map fun (s, rest) => (.text s, rest)) <|> basedNumber cs <|> decimalNumber cs <|> word cs

/-- A character of a name without quotes. -/
def isBare (c : Char) : Bool := c.isAlphanum || c == '_' || c == '-'

def name (cs : List Char) : Option (String × List Char) :=
  match quoted cs with
  | some r => some r
  | none =>
    let bare := cs.takeWhile isBare
    if bare.isEmpty then none else some (.ofList bare, cs.drop bare.length)

mutual
/-- A value. Every bracket that is opened takes one of `fuel`. -/
def value (fuel : Nat) (cs : List Char) : Option (Value × List Char) :=
  match fuel, cs with
  | fuel + 1, '[' :: rest => (listItems fuel (rest.dropWhile isWideGap)).map fun (vs, rest) => (.list vs, rest)
  | fuel + 1, '\x7b' :: rest =>
    match rest.dropWhile isGap with
    | '\x7d' :: rest => some (.record [], rest)
    | rest => (recordMembers fuel rest).map fun (ms, rest) => (.record ms, rest)
  | _, cs => scalar cs

/-- The items of a list up to its bracket. -/
def listItems (fuel : Nat) (cs : List Char) : Option (List Value × List Char) :=
  match fuel, cs with
  | _, ']' :: rest => some ([], rest)
  | 0, _ => none
  | fuel + 1, cs =>
    match value fuel cs with
    | none => none
    | some (v, rest) =>
      match rest.dropWhile isWideGap with
      | ']' :: rest => some ([v], rest)
      | ',' :: rest => (listItems fuel (rest.dropWhile isWideGap)).map fun (vs, rest) => (v :: vs, rest)
      | _ => none

/-- The members of a record up to its brace. A name is written once. -/
def recordMembers (fuel : Nat) (cs : List Char) : Option (Members × List Char) :=
  match fuel with
  | 0 => none
  | fuel + 1 => do
    let (k, rest) ← name cs
    match rest.dropWhile isGap with
    | '=' :: rest =>
      let (v, rest) ← value fuel (rest.dropWhile isGap)
      match rest.dropWhile isGap with
      | '\x7d' :: rest => return ([(k, v)], rest)
      | ',' :: rest =>
        let (ms, rest) ← recordMembers fuel (rest.dropWhile isGap)
        if (Members.get? ms k).isSome then none else return ((k, v) :: ms, rest)
      | _ => none
    | _ => none
end

/-- Whether nothing but blanks and a remark follows a value. -/
def isRemark (cs : List Char) : Bool :=
  match cs.dropWhile isGap with
  | [] => true
  | '#' :: rest => !rest.any isControl
  | rest => rest.all isWideGap

/-- The truth value that a text names with a capital. -/
def capital? (s : String) : Option Bool :=
  match Text.strip s with
  | "True" => some true
  | "False" => some false
  | _ => none

/-- The value that a text stands for. -/
def ofText (s : String) : Value :=
  match capital? s with
  | some b => .bool b
  | none =>
    let cs := s.toList.dropWhile isGap
    match value (cs.length + 1) cs with
    | some (v, rest) => if isRemark rest then v else .text s
    | none => .text s

end FormFlow.Literal
