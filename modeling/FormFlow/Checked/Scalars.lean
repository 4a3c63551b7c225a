import FormFlow.Value.Spoken
import FormFlow.Checked.Basic
/-!
Readers of single values.

Numbers and truth values are read leniently: a truth value may be written as a number or a word, a number as text or
as a truth value. Text is read from text alone.
-/

set_option autoImplicit false

namespace FormFlow

/-- A reader of plain data. -/
abbrev Reader (α : Type) := Value → Checked α

namespace Checked

def any : Reader Value := .good

def text : Reader String
  | .text s => .good s
  | _ => fail .notText

/-- Text of at least one character. -/
def filledText : Reader String
  | .text s => if s = "" then fail .emptyText else .good s
  | _ => fail .notText

/-- Nothing, or what the reader reads. -/
def nullable {α : Type} (r : Reader α) : Reader (Option α)
  | .null => .good none
  | v => some <$> r v

/-- One of named choices, found by its name. -/
def choice {α : Type} (cause : List String → Cause) (name : α → String) (all : List α) : Reader α
  | .text s =>
    match all.find? fun a => name a == s with
    | some a => .good a
    | none => fail (cause (all.map name))
  | _ => fail (cause (all.map name))

/-- The bound on the size of integers that are taken from doubles and truth values: 64 bits with a sign. -/
def wordBound : Int := Nat.pow 2 63

/-- An ASCII letter in lower case, any other character as it is. -/
def asciiLower (s : String) : String :=
  .ofList (s.toList.map Char.toLower)

/-- The words for false and for true, in any case of their ASCII letters. -/
def falseWords : List String := ["0", "off", "f", "false", "n", "no"]
def trueWords : List String := ["1", "on", "t", "true", "y", "yes"]

/-- A truth value from a whole number. -/
def boolOfInt (n : Int) : Checked Bool :=
  if n = 0 then .good false
  else if n = 1 then .good true
  else if -wordBound ≤ n ∧ n < wordBound then fail .unreadableBool
  else fail .notBool

/-- A truth value. -/
def bool : Reader Bool
  | .bool b => .good b
  | .int n => boolOfInt n
  | .float x =>
    match Decimal.whole? x with
    | some n => boolOfInt n
    | none => fail .notBool
  | .text s =>
    let word := asciiLower s
    if falseWords.contains word then .good false
    else if trueWords.contains word then .good true
    else fail .unreadableBool
  | _ => fail .notBool

/-- Whether every underscore stands alone between two other characters. -/
def underscoresSeparate : List Char → Bool
  | [] => true
  | '_' :: _ => false
  | [_] => true
  | _ :: '_' :: rest =>
    match rest with
    | [] => false
    | '_' :: _ => false
    | _ => underscoresSeparate rest
  | _ :: rest => underscoresSeparate rest

def withoutUnderscores (cs : List Char) : List Char :=
  cs.filter (· != '_')

/-- Reads an integer text: a sign, digits with single underscores between them, and a fraction of zeros alone. -/
def intOfText (s : String) : Option Int :=
  let (negative, body) := Decimal.splitSign (Text.trimBy Text.isWhiteSpace s.toList)
  let whole := body.takeWhile fun c => c.isDigit || c == '_'
  let fractionOk :=
    match body.dropWhile fun c => c.isDigit || c == '_' with
    | [] => true
    | '.' :: zeros => !zeros.isEmpty && zeros.all (· == '0')
    | _ => false
  if whole.isEmpty || !underscoresSeparate whole || !fractionOk then none
  else
    let n : Int := Decimal.digitsValue (withoutUnderscores whole)
    some (if negative then -n else n)

/-- An integer. -/
def int : Reader Int
  | .int n => .good n
  | .bool b => .good (if b then 1 else 0)
  | .float x =>
    match Decimal.reading x, Decimal.whole? x with
    | .finite _, some n => if -wordBound < n ∧ n < wordBound then .good n else fail .oversizedInt
    | .finite _, none => fail .fractionalInt
    | _, _ => fail .notFinite
  | .text s =>
    match intOfText s with
    | some n => .good n
    | none => fail .unreadableInt
  | _ => fail .notInt

/-- The words for the doubles outside the reals, in lower case and without sign. -/
def specialFloat? (word : String) : Option Float :=
  if word == "inf" || word == "infinity" then some (1.0 / 0.0)
  else if word == "nan" then some (0.0 / 0.0)
  else none

/-- Reads a decimal text: a literal with single underscores anywhere inside, or a word for infinity or no number. -/
def floatOfText (s : String) : Option Float :=
  let cs := Text.trimBy Text.isWhiteSpace s.toList
  if cs.isEmpty || !underscoresSeparate cs then none
  else
    let (negative, body) := Decimal.splitSign (withoutUnderscores cs)
    match specialFloat? (asciiLower (.ofList body)) with
    | some x => some (if negative then -x else x)
    | none => Decimal.readUnsigned negative body

/-- A double. -/
def float : Reader Float
  | .float x => .good x
  | .int n =>
    let x := Decimal.ofInt n
    match Decimal.reading x with
    | .finite _ => .good x
    | _ => fail .notFloat
  | .bool b => .good (if b then 1.0 else 0.0)
  | .text s =>
    match floatOfText s with
    | some x => .good x
    | none => fail .unreadableFloat
  | _ => fail .notFloat

end Checked

end FormFlow
