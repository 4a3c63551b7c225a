import FormFlow.Text.Digits
import FormFlow.Value.Basic
import FormFlow.Yaml.Shape
/-!
Writing YAML text in blocks.

A scalar is written plainly where it reads back as what it is, else in single quotes, and in double quotes where
characters have to be escaped; ASCII is enough for all of them. Lines are broken at blanks once they are longer than 80
characters. Items of a mapping's sequence stand in the column of its key.
-/

set_option autoImplicit false

namespace FormFlow.Yaml

/-- The length after which a line is broken. -/
def lineWidth : Nat := 80

/-- The longest text, with its kind counted in, that may stand in front of a colon. -/
def keyWidth : Nat := 122

/-- Whether a character needs an escape: it is no printable ASCII character and no line feed. -/
def isSpecial (c : Char) : Bool := !(c == '\n' || (' ' ≤ c && c ≤ '~'))

/-- Each character of a text with the one before it and the one after it. -/
def withNeighbours (cs : List Char) : List (Option Char × Char × Option Char) :=
  (none :: cs.map some).zip (cs.zip ((cs.drop 1).map some ++ [none]))
    |>.map fun (before, c, next) => (before, c, next)

/-- Whether nothing or a gap stands on one side of a character. -/
def isGapBeside (c : Option Char) : Bool :=
  match c with
  | none => true
  | some c => c == ' ' || c == '\t' || c == '\n' || c == '\r' || c == '\x00' || c == '\u0085' || c == '\u2028' ||
    c == '\u2029'

/-- The characters that mean something at the start of a scalar. -/
def leadMarks : List Char :=
  ['#', ',', '[', ']', '\x7b', '\x7d', '&', '*', '!', '|', '>', '\'', '"', '%', '@', '\x60']

/-- Whether a character among its neighbours would mean something in a block. -/
def isMark (p : Option Char × Char × Option Char) : Bool :=
  match p with
  | (none, c, next) => leadMarks.contains c || ((c == '?' || c == ':' || c == '-') && isGapBeside next)
  | (some before, c, next) =>
    (c == ':' && isGapBeside next) || (c == '#' && isGapBeside (some before))

/-- Whether a text starts like a mark between documents. -/
def startsLikeSeparator (cs : List Char) : Bool :=
  cs.take 3 == ['-', '-', '-'] || cs.take 3 == ['.', '.', '.']

/-- Whether two characters stand side by side anywhere. -/
def hasPair (a b : Char) : List Char → Bool
  | c :: d :: rest => (c == a && d == b) || hasPair a b (d :: rest)
  | _ => false

/-- Whether a text may be written without quotes, whatever it would stand for. -/
def fitsPlain (cs : List Char) : Bool :=
  !cs.any isSpecial && !cs.contains '\n' && cs.head? != some ' ' && cs.getLast? != some ' ' &&
    !startsLikeSeparator cs && !(withNeighbours cs).any isMark

/-- Whether a text may be written in single quotes. -/
def fitsSingle (cs : List Char) : Bool :=
  !cs.any isSpecial && !hasPair ' ' '\n' cs && !hasPair '\n' ' ' cs

/-- How a scalar is written. -/
inductive Style where
  | plain
  | single
  | double
  deriving DecidableEq, Repr

/-- The style of a text. -/
def styleOf (s : String) (isKey : Bool) : Style :=
  let cs := s.toList
  if Shape.of s = .text && !cs.isEmpty && fitsPlain cs then .plain
  else if fitsSingle cs && !(isKey && cs.contains '\n') then .single
  else .double

/-- The runs of a text: blanks, line feeds, and all else. -/
def runs (cs : List Char) : List (List Char) :=
  let kind := fun (c : Char) => if c = ' ' then 1 else if c = '\n' then 2 else 0
  cs.splitBy fun a b => kind a == kind b

def newLine (indent : Nat) : List Char := '\n' :: List.replicate indent ' '

/-- A line that is being written: its text with the last character first, and its column. -/
structure Line where
  reversed : List Char
  column : Nat

namespace Line

def add (l : Line) (cs : List Char) : Line := ⟨cs.reverse ++ l.reversed, l.column + cs.length⟩

/-- Goes to a new line. -/
def wrap (l : Line) (indent : Nat) : Line := ⟨(newLine indent).reverse ++ l.reversed, indent⟩

end Line

/-- Where scalars go on after a line break, and whether lines may be broken. -/
structure Room where
  indent : Nat
  mayBreak : Bool

/-- A plain scalar. -/
def writePlain (room : Room) (l : Line) (cs : List Char) : Line :=
  (runs cs).foldl (fun l r =>
    if r == [' '] && lineWidth < l.column && room.mayBreak then l.wrap room.indent else l.add r) l

/-- The runs of a text in single quotes, with the number of characters that come before and after each. -/
def writeSingleRun (room : Room) (isInner : Bool) (l : Line) (r : List Char) : Line :=
  match r with
  | ' ' :: _ => if r == [' '] && lineWidth < l.column && room.mayBreak && isInner then l.wrap room.indent else l.add r
  | '\n' :: _ => ⟨(r ++ newLine room.indent).reverse ++ l.reversed, room.indent⟩
  | _ => l.add (r.flatMap fun c => if c = '\'' then ['\'', '\''] else [c])

/-- A scalar in single quotes. A line feed is written as an empty line. -/
def writeSingle (room : Room) (l : Line) (cs : List Char) : Line :=
  let rs := runs cs
  let last := rs.length - 1
  (rs.zipIdx.foldl (fun l (r, i) => writeSingleRun room (0 < i && i < last) l r) (l.add ['\''])).add ['\'']

/-- The characters with a letter of their own after a backslash. -/
def letters : List (Char × Char) := [
  ('\x00', '0'), ('\x07', 'a'), ('\x08', 'b'), ('\t', 't'), ('\n', 'n'), ('\x0b', 'v'), ('\x0c', 'f'), ('\r', 'r'),
  ('\x1b', 'e'), ('"', '"'), ('\\', '\\'), ('\u0085', 'N'), ('\u00a0', '_'), ('\u2028', 'L'), ('\u2029', 'P')]

def escapeOf (c : Char) : List Char :=
  let n := c.toNat
  let digits := fun width => (Text.hexDigits width n).map Char.toUpper
  match letters.lookup c with
  | some letter => ['\\', letter]
  | none =>
    if n ≤ 0xFF then '\\' :: 'x' :: digits 2
    else if n ≤ 0xFFFF then '\\' :: 'u' :: digits 4
    else '\\' :: 'U' :: digits 8

/-- Breaks a line inside double quotes; a blank at the start of the next line is escaped. -/
def wrapDouble (room : Room) (l : Line) (next : Option Char) : Line :=
  let l := (l.add ['\\']).wrap room.indent
  if next = some ' ' then l.add ['\\'] else l

/-- The rest of a scalar in double quotes. `isFirst` holds for its first character, and `isFree` where nothing was
written since the last escape or line break. -/
def writeDoubleRest (room : Room) (isFirst isFree : Bool) (l : Line) : List Char → Line
  | [] => l
  | c :: rest =>
    let isInner := !isFirst && !rest.isEmpty && room.mayBreak
    if c == '"' || c == '\\' || !(' ' ≤ c && c ≤ '~') then
      let l := l.add (escapeOf c)
      let l := if isInner && lineWidth < l.column - 1 then wrapDouble room l rest.head? else l
      writeDoubleRest room false true l rest
    else if isInner && (c == ' ' || isFree) && lineWidth < l.column then
      writeDoubleRest room false false ((wrapDouble room l (some c)).add [c]) rest
    else writeDoubleRest room false false (l.add [c]) rest

/-- A scalar in double quotes. -/
def writeDouble (room : Room) (l : Line) (cs : List Char) : Line :=
  (writeDoubleRest room true true (l.add ['"']) cs).add ['"']

/-- A text in its style. -/
def writeText (room : Room) (isKey : Bool) (l : Line) (s : String) : Line :=
  match styleOf s isKey with
  | .plain => writePlain room l s.toList
  | .single => writeSingle room l s.toList
  | .double => writeDouble room l s.toList

/-- The text of a double: it always has a point. -/
def floatText (x : Float) : List Char :=
  match Decimal.reading x with
  | .notANumber => ".nan".toList
  | .infinite negative => (if negative then "-.inf" else ".inf").toList
  | .finite _ =>
    let cs := (Decimal.write x).toList
    if cs.contains '.' then cs
    else cs.flatMap fun c => if c = 'e' then ['.', '0', 'e'] else [c]

/-- Whether a name may stand in front of a colon. -/
def isSimpleKey (name : String) : Bool :=
  name != "" && !name.toList.contains '\n' && name.length ≤ keyWidth

/-- How a value follows what is in front of it. -/
inductive Seat where
  /-- After a key and its colon. -/
  | afterKey
  /-- After a dash or a mark, on the same line. -/
  | afterMark
  deriving DecidableEq

/-- The start of a line: items and members after a mark stay on its line. -/
def startLine (indent : Nat) (stays : Bool) (l : Line) : Line :=
  if stays then l.add [' '] else l.wrap indent

mutual
/-- A value after a key or a mark inside a block at a column. -/
def writeValue (indent : Nat) (seat : Seat) (l : Line) : Value → Line
  | .null => l.add " null".toList
  | .bool b => l.add (if b then " true" else " false").toList
  | .int n => l.add (' ' :: (toString n).toList)
  | .float x => l.add (' ' :: floatText x)
  | .text s => writeText ⟨indent + 2, true⟩ false (l.add [' ']) s
  | .list [] => l.add " []".toList
  | .list (v :: vs) =>
    writeItems (if seat = .afterKey then indent else indent + 2) (seat = .afterMark) l (v :: vs)
  | .record [] => l.add " \x7b\x7d".toList
  | .record (m :: ms) => writeMembers (indent + 2) (seat = .afterMark) l (m :: ms)

/-- The items of a sequence at a column. -/
def writeItems (indent : Nat) (stays : Bool) (l : Line) : List Value → Line
  | [] => l
  | v :: rest => writeItems indent false (writeValue indent .afterMark ((startLine indent stays l).add ['-']) v) rest

/-- The members of a mapping at a column. -/
def writeMembers (indent : Nat) (stays : Bool) (l : Line) : Members → Line
  | [] => l
  | (name, v) :: rest =>
    let l := startLine indent stays l
    let l :=
      if isSimpleKey name then writeValue indent .afterKey ((writeText ⟨indent + 2, false⟩ true l name).add [':']) v
      else
        let key := writeText ⟨indent + 2, true⟩ false (l.add ['?', ' ']) name
        writeValue indent .afterMark ((key.wrap indent).add [':']) v
    writeMembers indent false l rest
end

/-- Writes a mapping as YAML text. -/
def write (ms : Members) : String :=
  if ms.isEmpty then "\x7b\x7d\n"
  else .ofList ((writeMembers 0 false ⟨[], 0⟩ ms).reversed.reverse.drop 1 ++ ['\n'])

end FormFlow.Yaml
