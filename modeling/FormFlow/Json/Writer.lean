import FormFlow.Value.Basic
import FormFlow.Text.Quoted
import FormFlow.Decimal.Notation
/-!
Writing JSON text. A `Layout` decides whether lists and records are broken into lines and whether characters beyond
ASCII are escaped.
-/

set_option autoImplicit false

namespace FormFlow.Json

/-- How JSON text is laid out. -/
structure Layout where
  /-- The width of one level of indentation; none keeps the text on one line. -/
  indent : Option Nat
  /-- What stands between items on one line. -/
  comma : String
  /-- What stands between a name and its value. -/
  colon : String
  /-- Whether characters beyond ASCII are escaped. -/
  ascii : Bool

/-- Two spaces a level, ASCII only: the layout of files and listings. -/
def Layout.indented : Layout := ⟨some 2, ",", ": ", true⟩

/-- One line with spaces after the separators, ASCII only: the layout of log lines. -/
def Layout.line : Layout := ⟨none, ", ", ": ", true⟩

/-- One line without any space, characters as they are: the layout of requests and responses. -/
def Layout.compact : Layout := ⟨none, ",", ":", false⟩

/-- A code unit in four hexadecimal digits. -/
def unit (n : Nat) : List Char :=
  '\\' :: 'u' :: Text.hexDigits 4 n

/-- One character inside a text. -/
def escape (ascii : Bool) (c : Char) : List Char :=
  match c with
  | '"' => ['\\', '"']
  | '\\' => ['\\', '\\']
  | '\n' => ['\\', 'n']
  | '\r' => ['\\', 'r']
  | '\t' => ['\\', 't']
  | '\x08' => ['\\', 'b']
  | '\x0c' => ['\\', 'f']
  | _ =>
    let n := c.toNat
    if n < 0x20 then unit n
    else if !ascii || n < 0x7F then [c]
    else if n < 0x10000 then unit n
    else unit (0xD800 + (n - 0x10000) / 0x400) ++ unit (0xDC00 + (n - 0x10000) % 0x400)

/-- A text between quotes. -/
def writeText (ascii : Bool) (s : String) : String :=
  .ofList ('"' :: s.toList.flatMap (escape ascii) ++ ['"'])

/-- A double; the values outside the reals have words of their own. -/
def writeFloat (x : Float) : String :=
  match Decimal.reading x with
  | .notANumber => "NaN"
  | .infinite true => "-Infinity"
  | .infinite false => "Infinity"
  | .finite _ => Decimal.write x

/-- The line break and indentation of a level. -/
def Layout.break (l : Layout) (depth : Nat) : String :=
  match l.indent with
  | some width => .ofList ('\n' :: List.replicate (width * depth) ' ')
  | none => ""

mutual
/-- A value at a depth of indentation. -/
def writeAt (l : Layout) (depth : Nat) : Value → String
  | .null => "null"
  | .bool b => if b then "true" else "false"
  | .int n => toString n
  | .float x => writeFloat x
  | .text s => writeText l.ascii s
  | .list [] => "[]"
  | .list (v :: rest) =>
    "[" ++ l.break (depth + 1) ++ writeAt l (depth + 1) v ++ writeItems l (depth + 1) rest ++ l.break depth ++ "]"
  | .record [] => "\x7b\x7d"
  | .record ((k, v) :: rest) =>
    "\x7b" ++ l.break (depth + 1) ++ writeText l.ascii k ++ l.colon ++ writeAt l (depth + 1) v ++
      writeMembers l (depth + 1) rest ++ l.break depth ++ "\x7d"

/-- The items after the first. -/
def writeItems (l : Layout) (depth : Nat) : List Value → String
  | [] => ""
  | v :: rest => l.comma ++ l.break depth ++ writeAt l depth v ++ writeItems l depth rest

/-- The members after the first. -/
def writeMembers (l : Layout) (depth : Nat) : Members → String
  | [] => ""
  | (k, v) :: rest =>
    l.comma ++ l.break depth ++ writeText l.ascii k ++ l.colon ++ writeAt l depth v ++ writeMembers l depth rest
end

/-- The JSON text of a value. -/
def write (l : Layout) (v : Value) : String :=
  writeAt l 0 v

end FormFlow.Json
