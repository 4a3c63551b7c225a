import FormFlow.Text.Blank
import FormFlow.Decimal.Notation
/-!
Custom logic: an expression that joins the rows of a condition group by their numbers.

The text is cut into the longest tokens: parentheses, runs of ASCII digits, runs of ASCII letters, and any other
character that is not blank on its own. `check` reads the tokens once, with a flag for what has to come next and a
count of open parentheses, and names the first thing that is wrong.
-/

set_option autoImplicit false

namespace FormFlow.Logic

/-- A token of an expression. -/
inductive Token where
  | leftParen
  | rightParen
  | number (digits : List Char)
  | word (letters : List Char)
  | sign (c : Char)
  deriving DecidableEq, Repr

def Token.chars : Token → List Char
  | leftParen => ['(']
  | rightParen => [')']
  | number digits => digits
  | word letters => letters
  | sign c => [c]

def Token.text (t : Token) : String := .ofList t.chars

/-- Whether a word joins two operands: AND or OR, in any case. -/
def Token.isJoiner : Token → Bool
  | word letters =>
    let upper := letters.map Char.toUpper
    upper == ['A', 'N', 'D'] || upper == ['O', 'R']
  | _ => false

/-- The tokens of an expression. -/
def tokens : List Char → List Token
  | [] => []
  | c :: rest =>
    if Text.isBlank c then tokens rest
    else if c = '(' then .leftParen :: tokens rest
    else if c = ')' then .rightParen :: tokens rest
    else if c.isDigit then .number (c :: rest.takeWhile Char.isDigit) :: tokens (rest.dropWhile Char.isDigit)
    else if c.isAlpha then .word (c :: rest.takeWhile Char.isAlpha) :: tokens (rest.dropWhile Char.isAlpha)
    else .sign c :: tokens rest
  termination_by cs => cs.length
  decreasing_by
    · exact Nat.lt_succ_self _
    · exact Nat.lt_succ_self _
    · exact Nat.lt_succ_self _
    · exact Nat.lt_succ_of_le (List.dropWhile_sublist _).length_le
    · exact Nat.lt_succ_of_le (List.dropWhile_sublist _).length_le
    · exact Nat.lt_succ_self _

/-- What is wrong with an expression. -/
inductive Fault where
  | blank
  | noSuchRow (row : Nat) (rows : Int)
  | operandExpected (position : Nat) (found : Token)
  | joinerExpected (position : Nat) (found : Token)
  | unmatchedClose
  | unmatchedOpen
  | endsEarly
  deriving DecidableEq, Repr

def Fault.message : Fault → String
  | blank => "Custom logic expression is required."
  | noSuchRow row rows =>
    "Condition " ++ toString row ++ " does not exist; use numbers between 1 and " ++ toString rows ++ "."
  | operandExpected position found =>
    "Invalid token at position " ++ toString position ++ ": expected a condition number or '(', got '" ++
      found.text ++ "'."
  | joinerExpected position found =>
    "Invalid token at position " ++ toString position ++ ": expected 'AND', 'OR' or ')', got '" ++ found.text ++ "'."
  | unmatchedClose => "Unmatched closing parenthesis."
  | unmatchedOpen => "Unmatched opening parenthesis."
  | endsEarly => "Expression ends unexpectedly; missing a condition number."

/-- Reads the tokens from a position on. `operandNext` says that an operand has to come, `depth` counts the open
parentheses. -/
def scan (rows : Int) (position : Nat) (operandNext : Bool) (depth : Nat) : List Token → Option Fault
  | [] => if operandNext then some .endsEarly else if depth ≠ 0 then some .unmatchedOpen else none
  | t :: rest =>
    if operandNext then
      match t with
      | .number digits =>
        let row := Decimal.digitsValue digits
        if (row : Int) < 1 ∨ rows < row then some (.noSuchRow row rows)
        else scan rows (position + 1) false depth rest
      | .leftParen => scan rows (position + 1) true (depth + 1) rest
      | _ => some (.operandExpected position t)
    else if t.isJoiner then scan rows (position + 1) true depth rest
    else
      match t, depth with
      | .rightParen, 0 => some .unmatchedClose
      | .rightParen, depth + 1 => scan rows (position + 1) false depth rest
      | _, _ => some (.joinerExpected position t)

/-- The first fault of an expression over `rows` rows. -/
def check (expression : String) (rows : Int) : Option Fault :=
  match tokens expression.toList with
  | [] => some .blank
  | ts => scan rows 1 true 0 ts

end FormFlow.Logic
