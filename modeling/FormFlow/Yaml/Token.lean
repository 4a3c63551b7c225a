import FormFlow.Text.Digits
import FormFlow.Text.Pieces
/-!
The tokens of YAML text.

The text is read once, character by character. Between tokens the machine knows the columns of the open blocks, how
many brackets are open, and where a token may turn out to be a key: a colon after it puts the mark of a key in front of
it, and opens a mapping if the key stands further to the right than the block it is in. Blocks are closed when a line
starts further to the left.

Anchors, aliases, tags, directives and block scalars are refused.
-/

set_option autoImplicit false

namespace FormFlow.Yaml

/-- A token. -/
inductive Token where
  | documentStart
  | documentEnd
  | sequenceStart
  | mappingStart
  | blockEnd
  | listOpen
  | listClose
  | recordOpen
  | recordClose
  | entry
  | comma
  | key
  | value
  | scalar (text : List Char) (isPlain : Bool)
  deriving DecidableEq, Repr

/-- A line break. -/
def isBreak (c : Char) : Bool := c == '\n' || c == '\u2028' || c == '\u2029'

/-- A character that ends a word: a blank, a tab or a line break. -/
def isGap (c : Char) : Bool := c == ' ' || c == '\t' || isBreak c

/-- Whether nothing, or a gap, comes next. -/
def gapNext : List Char → Bool
  | [] => true
  | c :: _ => isGap c

/-- Whether the characters are a mark between documents. -/
def isSeparator (cs : List Char) : Bool :=
  (cs.take 3 == ['-', '-', '-'] || cs.take 3 == ['.', '.', '.']) && gapNext (cs.drop 3)

/-- Characters that YAML text may hold. -/
def isAllowed (c : Char) : Bool :=
  let n := c.toNat
  n == 0x09 || n == 0x0A || n == 0x0D || (0x20 ≤ n && n ≤ 0x7E) || n == 0x85 || (0xA0 ≤ n && n ≤ 0xD7FF) ||
    (0xE000 ≤ n && n ≤ 0xFFFD) || (0x10000 ≤ n && n ≤ 0x10FFFF)

/-- A token that may turn out to be a key: how many tokens come before it, where it stands, and whether it has to be
one. -/
structure Candidate where
  before : Nat
  isRequired : Bool
  offset : Nat
  line : Nat
  column : Nat
  deriving Repr

/-- The break that was read inside a scalar, and the breaks after it. -/
structure Fold where
  first : Char
  more : List Char
  deriving Repr

/-- What a fold puts between words: a single line feed is a blank, more of them stand for one less, and a break of
another kind stands for itself. -/
def Fold.text (f : Fold) : List Char :=
  if f.first ≠ '\n' then f.first :: f.more.reverse
  else if f.more.isEmpty then [' ']
  else f.more.reverse

/-- What the machine is in. Texts are kept with their last character first. -/
inductive Mode where
  | between
  | comment
  /-- The rest of a mark between documents. -/
  | separator (token : Token) (left : Nat)
  | plain (text : List Char)
  | plainBlanks (text blanks : List Char)
  | plainFold (text : List Char) (fold : Fold)
  | quoted (quote : Char) (text : List Char)
  | quotedBlanks (quote : Char) (text blanks : List Char)
  /-- Breaks inside quotes; after an escaped break there is no fold. -/
  | quotedFold (quote : Char) (text : List Char) (fold : Option Fold)
  /-- A quote that was written twice. -/
  | quoteTwice (text : List Char)
  | escape (text : List Char)
  | escapeDigits (text : List Char) (left code : Nat)
  deriving Repr

/-- The machine. The tokens so far are kept with the last one first. -/
structure Machine where
  mode : Mode
  tokens : List Token
  count : Nat
  offset : Nat
  line : Nat
  column : Nat
  /-- The column of the innermost block, less than zero outside all. -/
  indent : Int
  outer : List Int
  /-- The number of open brackets. -/
  depth : Nat
  /-- The candidates by the number of brackets around them. -/
  candidates : List (Nat × Candidate)
  keyAllowed : Bool
  deriving Repr

namespace Machine

def start : Machine := ⟨.between, [], 0, 0, 0, 0, -1, [], 0, [], true⟩

/-- Steps over a character. -/
def forward (m : Machine) (c : Char) : Machine :=
  if isBreak c then { m with offset := m.offset + 1, line := m.line + 1, column := 0 }
  else { m with offset := m.offset + 1, column := m.column + 1 }

/-- Adds a token. -/
def emit (m : Machine) (t : Token) : Machine := { m with tokens := t :: m.tokens, count := m.count + 1 }

/-- Adds a token before those that came after the first `place`. -/
def insert (m : Machine) (place : Nat) (t : Token) : Machine :=
  { m with tokens := m.tokens.insertIdx (m.count - place) t, count := m.count + 1 }

/-- Drops the candidates that are too far back to be keys; none of them may be required. -/
def dropStale (m : Machine) : Option Machine :=
  let isFresh := fun (p : Nat × Candidate) => p.2.line == m.line && m.offset - p.2.offset ≤ 1024
  if m.candidates.any fun p => !isFresh p && p.2.isRequired then none
  else some { m with candidates := m.candidates.filter isFresh }

/-- Drops the candidate inside the innermost brackets; it may not be required. -/
def dropCandidate (m : Machine) : Option Machine :=
  match m.candidates.lookup m.depth with
  | some c => if c.isRequired then none else some { m with candidates := m.candidates.filter (·.1 != m.depth) }
  | none => some m

/-- Notes that the token that starts here may be a key. -/
def offer (m : Machine) : Option Machine :=
  if !m.keyAllowed then some m
  else
    let c : Candidate := ⟨m.count, m.depth == 0 && m.indent == m.column, m.offset, m.line, m.column⟩
    m.dropCandidate.map fun m => { m with candidates := (m.depth, c) :: m.candidates }

/-- Closes the block at `indent` and those around it as far as they stand to the right of a column. -/
def closeFrom (column indent : Int) (m : Machine) : List Int → Machine
  | [] => { m with indent := indent, outer := [] }
  | o :: rest =>
    if indent > column then closeFrom column o (m.emit .blockEnd) rest
    else { m with indent := indent, outer := o :: rest }

/-- Closes the blocks that stand to the right of a column; inside brackets there are none. -/
def closeTo (column : Int) (m : Machine) : Machine :=
  if m.depth != 0 then m else closeFrom column m.indent m m.outer

/-- Opens a block at a column that is to the right of the innermost one. -/
def openAt (m : Machine) (column : Nat) : Option Machine :=
  if m.indent < column then some { m with indent := column, outer := m.indent :: m.outer } else none

/-- Opens a block here, with its token, unless it is open already or inside brackets. -/
def openHere (m : Machine) (t : Token) : Option Machine :=
  if m.depth != 0 then some m
  else if !m.keyAllowed then none
  else some (((m.openAt m.column).map fun m => m.emit t).getD m)

def mark (m : Machine) (c : Char) (t : Token) : Machine := (m.emit t).forward c

def openBracket (m : Machine) (c : Char) (t : Token) : Option Machine :=
  m.offer.map fun m => ({ m with depth := m.depth + 1, keyAllowed := true }).mark c t

def closeBracket (m : Machine) (c : Char) (t : Token) : Option Machine :=
  if m.depth = 0 then none
  else m.dropCandidate.map fun m => ({ m with depth := m.depth - 1, keyAllowed := false }).mark c t

/-- The colon of a value: what was offered as a key is one. -/
def colon (m : Machine) (c : Char) : Option Machine :=
  match m.candidates.lookup m.depth with
  | some k =>
    let m := { m with candidates := m.candidates.filter (·.1 != m.depth) }.insert k.before .key
    let m := if m.depth != 0 then m else ((m.openAt k.column).map fun m => m.insert k.before .mappingStart).getD m
    some ({ m with keyAllowed := false }.mark c .value)
  | none => do
    let m ← m.openHere .mappingStart
    let m ← { m with keyAllowed := m.depth == 0 }.dropCandidate
    return m.mark c .value

/-- The mark of an explicit key. -/
def explicitKey (m : Machine) (c : Char) : Option Machine := do
  let m ← m.openHere .mappingStart
  let m ← { m with keyAllowed := m.depth == 0 }.dropCandidate
  return m.mark c .key

/-- The dash of an item. -/
def dash (m : Machine) (c : Char) : Option Machine := do
  let m ← m.openHere .sequenceStart
  let m ← { m with keyAllowed := true }.dropCandidate
  return m.mark c .entry

/-- Whether a plain scalar may start with a character. -/
def startsPlain (inBrackets : Bool) (c : Char) (next : List Char) : Bool :=
  let marks := ['-', '?', ':', ',', '[', ']', '{', '}', '#', '&', '*', '!', '|', '>', '\'', '"', '%', '@', '\x60']
  (!isGap c && !marks.contains c) ||
    (!gapNext next && (c == '-' || (!inBrackets && (c == '?' || c == ':'))))

/-- The start of a token. -/
def token (m : Machine) (c : Char) (next : List Char) : Option Machine := do
  let m ← m.dropStale
  let m := closeTo m.column m
  if m.column = 0 && isSeparator (c :: next) then
    let m ← (closeTo (-1) m).dropCandidate
    let t := if c = '-' then Token.documentStart else .documentEnd
    return { m with keyAllowed := false, mode := .separator t 2 }.forward c
  else if c = '[' then m.openBracket c .listOpen
  else if c = '{' then m.openBracket c .recordOpen
  else if c = ']' then m.closeBracket c .listClose
  else if c = '}' then m.closeBracket c .recordClose
  else if c = ',' then
    let m ← { m with keyAllowed := true }.dropCandidate
    return m.mark c .comma
  else if c = '-' && gapNext next then m.dash c
  else if c = '?' && (m.depth != 0 || gapNext next) then m.explicitKey c
  else if c = ':' && (m.depth != 0 || gapNext next) then m.colon c
  else if c = '\'' || c = '"' then
    let m ← m.offer
    return { m with keyAllowed := false, mode := .quoted c [] }.forward c
  else if startsPlain (m.depth != 0) c next then
    let m ← m.offer
    return { m with keyAllowed := false, mode := .plain [c] }.forward c
  else none

/-- A character between tokens. -/
def between (m : Machine) (c : Char) (next : List Char) : Option Machine :=
  if c = ' ' then some (m.forward c)
  else if c = '#' then some ({ m with mode := .comment }.forward c)
  else if isBreak c then some ({ m with keyAllowed := m.keyAllowed || m.depth == 0 }.forward c)
  else m.token c next

/-- Ends a scalar. -/
def finish (m : Machine) (text : List Char) (isPlain : Bool) : Machine :=
  { m with mode := .between }.emit (.scalar text.reverse isPlain)

/-- Whether a plain scalar ends before a character. -/
def endsPlain (inBrackets : Bool) (c : Char) (next : List Char) : Bool :=
  isGap c ||
    (c == ':' && (gapNext next || (inBrackets && next.head?.any [',', '[', ']', '{', '}'].contains))) ||
    (inBrackets && [',', '?', '[', ']', '{', '}'].contains c)

/-- Ends a plain scalar before a character, which is read between tokens. -/
def endPlain (m : Machine) (text : List Char) (c : Char) (next : List Char) : Option Machine :=
  (m.finish text true).between c next

/-- Starts the fold of a plain scalar, unless a mark between documents follows. -/
def plainBreak (m : Machine) (text : List Char) (fold : Fold) (c : Char) (next : List Char) : Machine :=
  let m := m.forward c
  if isSeparator next then m.finish text true else { m with mode := .plainFold text fold }

/-- A character in or after a word of a plain scalar. -/
def plain (m : Machine) (text : List Char) (c : Char) (next : List Char) : Option Machine :=
  if c = ' ' then some ({ m with mode := .plainBlanks text [c] }.forward c)
  else if isBreak c then some ({ m with keyAllowed := true }.plainBreak text ⟨c, []⟩ c next)
  else if endsPlain (m.depth != 0) c next then m.endPlain text c next
  else some ({ m with mode := .plain (c :: text) }.forward c)

/-- A character after blanks of a plain scalar. -/
def plainBlanks (m : Machine) (text blanks : List Char) (c : Char) (next : List Char) : Option Machine :=
  if c = ' ' then some ({ m with mode := .plainBlanks text (c :: blanks) }.forward c)
  else if isBreak c then some ({ m with keyAllowed := true }.plainBreak text ⟨c, []⟩ c next)
  else if c = '#' || endsPlain (m.depth != 0) c next then m.endPlain text c next
  else some ({ m with mode := .plain (c :: (blanks ++ text)) }.forward c)

/-- A character after the breaks of a plain scalar: the scalar goes on if the line stands to the right of its block. -/
def plainFold (m : Machine) (text : List Char) (fold : Fold) (c : Char) (next : List Char) : Option Machine :=
  if c = ' ' then some (m.forward c)
  else if isBreak c then some (m.plainBreak text { fold with more := c :: fold.more } c next)
  else if c = '#' || endsPlain (m.depth != 0) c next || (m.depth == 0 && (m.column : Int) < m.indent + 1) then
    m.endPlain text c next
  else some ({ m with keyAllowed := false, mode := .plain (c :: (fold.text.reverse ++ text)) }.forward c)

/-- A break inside quotes; a mark between documents may not follow. -/
def quotedBreak (m : Machine) (quote : Char) (text : List Char) (fold : Option Fold) (c : Char) (next : List Char) :
    Option Machine :=
  if isSeparator next then none else some ({ m with mode := .quotedFold quote text fold }.forward c)

/-- A character inside quotes. -/
def quoted (m : Machine) (quote : Char) (text : List Char) (c : Char) (next : List Char) : Option Machine :=
  if c = quote then
    if quote = '\'' && next.head? == some '\'' then some ({ m with mode := .quoteTwice text }.forward c)
    else some ((m.finish text false).forward c)
  else if c = '\\' && quote = '"' then some ({ m with mode := .escape text }.forward c)
  else if c = ' ' || c = '\t' then some ({ m with mode := .quotedBlanks quote text [c] }.forward c)
  else if isBreak c then m.quotedBreak quote text (some ⟨c, []⟩) c next
  else some ({ m with mode := .quoted quote (c :: text) }.forward c)

/-- A character after blanks inside quotes. -/
def quotedBlanks (m : Machine) (quote : Char) (text blanks : List Char) (c : Char) (next : List Char) :
    Option Machine :=
  if c = ' ' || c = '\t' then some ({ m with mode := .quotedBlanks quote text (c :: blanks) }.forward c)
  else if isBreak c then m.quotedBreak quote text (some ⟨c, []⟩) c next
  else m.quoted quote (blanks ++ text) c next

/-- A character after breaks inside quotes. -/
def quotedFold (m : Machine) (quote : Char) (text : List Char) (fold : Option Fold) (c : Char) (next : List Char) :
    Option Machine :=
  if c = ' ' || c = '\t' then some (m.forward c)
  else if isBreak c then
    match fold with
    | some f => m.quotedBreak quote text (some { f with more := c :: f.more }) c next
    | none => m.quotedBreak quote (c :: text) none c next
  else m.quoted quote (((fold.map Fold.text).getD []).reverse ++ text) c next

/-- The characters that stand for others after a backslash. -/
def escapes : List (Char × Char) := [
  ('0', '\x00'), ('a', '\x07'), ('b', '\x08'), ('t', '\t'), ('\t', '\t'), ('n', '\n'), ('v', '\x0b'), ('f', '\x0c'),
  ('r', '\r'), ('e', '\x1b'), (' ', ' '), ('"', '"'), ('\\', '\\'), ('/', '/'), ('N', '\u0085'), ('_', '\u00a0'),
  ('L', '\u2028'), ('P', '\u2029')]

/-- How many hexadecimal digits follow a letter after a backslash. -/
def digitCounts : List (Char × Nat) := [('x', 2), ('u', 4), ('U', 8)]

/-- A character after a backslash. -/
def escape (m : Machine) (text : List Char) (c : Char) (next : List Char) : Option Machine :=
  if isBreak c then m.quotedBreak '"' text none c next
  else
    match escapes.lookup c, digitCounts.lookup c with
    | some d, _ => some ({ m with mode := .quoted '"' (d :: text) }.forward c)
    | none, some n => some ({ m with mode := .escapeDigits text n 0 }.forward c)
    | none, none => none

/-- The character of a number; half a character alone becomes U+FFFD. -/
def charOf? (code : Nat) : Option Char :=
  if 0xD800 ≤ code && code ≤ 0xDFFF then some '\uFFFD'
  else if code ≤ 0x10FFFF then some (Char.ofNat code)
  else none

/-- A hexadecimal digit of an escape. -/
def escapeDigit (m : Machine) (text : List Char) (left code : Nat) (c : Char) : Option Machine := do
  let code := 16 * code + (← Text.hexValue? c)
  if left ≤ 1 then return { m with mode := .quoted '"' ((← charOf? code) :: text) }.forward c
  else return { m with mode := .escapeDigits text (left - 1) code }.forward c

/-- The rest of a mark between documents. -/
def separate (m : Machine) (t : Token) (left : Nat) (c : Char) : Machine :=
  if left ≤ 1 then { m with mode := .between }.emit t |>.forward c
  else { m with mode := .separator t (left - 1) }.forward c

/-- One character, with those after it in view. -/
def step (m : Machine) (c : Char) (next : List Char) : Option Machine :=
  match m.mode with
  | .between => m.between c next
  | .comment => if isBreak c then { m with mode := .between }.between c next else some (m.forward c)
  | .separator t left => some (m.separate t left c)
  | .plain text => m.plain text c next
  | .plainBlanks text blanks => m.plainBlanks text blanks c next
  | .plainFold text fold => m.plainFold text fold c next
  | .quoted quote text => m.quoted quote text c next
  | .quotedBlanks quote text blanks => m.quotedBlanks quote text blanks c next
  | .quotedFold quote text fold => m.quotedFold quote text fold c next
  | .quoteTwice text => some ({ m with mode := .quoted '\'' ('\'' :: text) }.forward c)
  | .escape text => m.escape text c next
  | .escapeDigits text left code => m.escapeDigit text left code c

def run (m : Machine) : List Char → Option Machine
  | [] => some m
  | c :: next => (m.step c next).bind fun m => m.run next

/-- The end of the text: a plain scalar ends here, and every block is closed. -/
def close (m : Machine) : Option (List Token) := do
  let m ← match m.mode with
    | .between | .comment => some m
    | .plain text | .plainBlanks text _ | .plainFold text _ => some (m.finish text true)
    | _ => none
  let m ← m.dropStale
  let m ← (closeTo (-1) m).dropCandidate
  return m.tokens.reverse

end Machine

/-- The tokens of a text. -/
def tokens? (s : String) : Option (List Token) :=
  let cs := s.toList
  if !cs.all isAllowed then none
  else
    let body := match cs with
      | '\uFEFF' :: rest => rest
      | _ => cs
    let body := (Text.oneBreak body).map fun c => if c = '\u0085' then '\n' else c
    (Machine.start.run body).bind Machine.close

end FormFlow.Yaml
