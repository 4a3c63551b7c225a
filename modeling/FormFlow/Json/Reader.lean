import FormFlow.Value.Basic
import FormFlow.Decimal.Notation
import FormFlow.Text.Digits
/-!
Reading JSON text.

The text is cut into tokens in one pass over its characters, and the tokens are put together by a machine with a stack
of open lists and records, in one pass as well. Beside the standard literals `NaN`, `Infinity` and `-Infinity` are
numbers. A number with a point or an exponent is a double, any other an integer of any size.
-/

set_option autoImplicit false

namespace FormFlow.Json

/-- A token of JSON text. -/
inductive Token where
  | listOpen
  | listClose
  | recordOpen
  | recordClose
  | comma
  | colon
  | literal (v : Value)
  deriving Repr

/-- The marks that are tokens of their own. -/
def mark? : Char → Option Token
  | '[' => some .listOpen
  | ']' => some .listClose
  | '{' => some .recordOpen
  | '}' => some .recordClose
  | ',' => some .comma
  | ':' => some .colon
  | _ => none

/-- The characters that may stand between tokens. -/
def isGap (c : Char) : Bool :=
  c == ' ' || c == '\t' || c == '\n' || c == '\r'

/-- Whether the characters are a number without sign: no leading zero, digits on both sides of a point. -/
def isNumber (cs : List Char) : Bool :=
  let (whole, rest) := Decimal.splitDigits cs
  let wholeOk := !whole.isEmpty && (whole.length == 1 || whole.head? != some '0')
  let (fractionOk, rest) :=
    match rest with
    | '.' :: more => let (f, r) := Decimal.splitDigits more; (!f.isEmpty, r)
    | _ => (true, rest)
  let powerOk :=
    match rest with
    | [] => true
    | e :: more =>
      let (_, p) := Decimal.splitSign more
      (e == 'e' || e == 'E') && !p.isEmpty && p.all Char.isDigit
  wholeOk && fractionOk && powerOk

/-- The value of a bare word. -/
def word? (cs : List Char) : Option Value :=
  match String.ofList cs with
  | "null" => some .null
  | "true" => some (.bool true)
  | "false" => some (.bool false)
  | "NaN" => some (.float (0.0 / 0.0))
  | "Infinity" => some (.float (1.0 / 0.0))
  | "-Infinity" => some (.float (-1.0 / 0.0))
  | _ =>
    let body := match cs with
      | '-' :: rest => rest
      | _ => cs
    if !isNumber body then none
    else if body.all Char.isDigit then
      let n : Int := Decimal.digitsValue body
      some (.int (if cs.head? == some '-' then -n else n))
    else (Decimal.readLiteral cs).map .float

/-- Joins the two halves of a character that was escaped in two. Half a character alone becomes U+FFFD. -/
def joinHalves : List Nat → List Char
  | [] => []
  | [n] => [if 0xD800 ≤ n && n ≤ 0xDFFF then '\uFFFD' else Char.ofNat n]
  | high :: low :: rest =>
    if 0xD800 ≤ high && high ≤ 0xDBFF && 0xDC00 ≤ low && low ≤ 0xDFFF then
      Char.ofNat (0x10000 + (high - 0xD800) * 0x400 + (low - 0xDC00)) :: joinHalves rest
    else (if 0xD800 ≤ high && high ≤ 0xDFFF then '\uFFFD' else Char.ofNat high) :: joinHalves (low :: rest)

/-- Where the lexer stands; `seen` holds what was read of the token, the latest first. -/
inductive Mode where
  | between
  | word (seen : List Char)
  | text (seen : List Nat)
  | escape (seen : List Nat)
  | code (seen : List Nat) (digits value : Nat)

/-- The character that a one-letter escape stands for. -/
def escape? : Char → Option Nat
  | '"' => some 0x22
  | '\\' => some 0x5C
  | '/' => some 0x2F
  | 'b' => some 0x08
  | 'f' => some 0x0C
  | 'n' => some 0x0A
  | 'r' => some 0x0D
  | 't' => some 0x09
  | _ => none

/-- One character read between tokens, on top of the tokens `done` (the latest first). -/
def lexBetween (done : List Token) (c : Char) : Mode × List Token :=
  if isGap c then (.between, done)
  else if c == '"' then (.text [], done)
  else match mark? c with
    | some t => (.between, t :: done)
    | none => (.word [c], done)

def lexStep (done : List Token) (mode : Mode) (c : Char) : Option (Mode × List Token) :=
  match mode with
  | .between => some (lexBetween done c)
  | .word seen =>
    if isGap c || c == '"' || (mark? c).isSome then
      (word? seen.reverse).map fun v => lexBetween (.literal v :: done) c
    else some (.word (c :: seen), done)
  | .text seen =>
    if c == '"' then some (.between, .literal (.text (.ofList (joinHalves seen.reverse))) :: done)
    else if c == '\\' then some (.escape seen, done)
    else if c.toNat < 0x20 then none
    else some (.text (c.toNat :: seen), done)
  | .escape seen =>
    if c == 'u' then some (.code seen 0 0, done)
    else (escape? c).map fun n => (.text (n :: seen), done)
  | .code seen digits value =>
    (Text.hexValue? c).map fun d =>
      let value := 16 * value + d
      if digits == 3 then (.text (value :: seen), done) else (.code seen (digits + 1) value, done)

/-- The tokens of a text; a text that breaks off inside a token has none. -/
def lex (done : List Token) (mode : Mode) : List Char → Option (List Token)
  | [] =>
    match mode with
    | .between => some done.reverse
    | .word seen => (word? seen.reverse).map fun v => (Token.literal v :: done).reverse
    | _ => none
  | c :: rest =>
    match lexStep done mode c with
    | some (mode, done) => lex done mode rest
    | none => none

/-- A list or record that is still open; the items are held the latest first. -/
inductive Frame where
  | list (items : List Value)
  | record (members : Members) (name : String)

/-- What may come next. -/
inductive Expect where
  | value
  | valueOrClose
  | name (members : Members) (orClose : Bool)
  | colon (members : Members) (name : String)
  | separator
  | nothing (result : Value)

/-- A finished value goes into the innermost open frame. -/
def settle (v : Value) : List Frame → Expect × List Frame
  | [] => (.nothing v, [])
  | .list items :: rest => (.separator, .list (v :: items) :: rest)
  | .record members name :: rest => (.separator, .record (Members.put members name v) name :: rest)

def buildStep (expect : Expect) (frames : List Frame) (t : Token) : Option (Expect × List Frame) :=
  match expect, t with
  | .value, .literal v | .valueOrClose, .literal v => some (settle v frames)
  | .value, .listOpen | .valueOrClose, .listOpen => some (.valueOrClose, .list [] :: frames)
  | .value, .recordOpen | .valueOrClose, .recordOpen => some (.name [] true, frames)
  | .valueOrClose, .listClose =>
    match frames with
    | .list items :: rest => some (settle (.list items.reverse) rest)
    | _ => none
  | .name members _, .literal (.text name) => some (.colon members name, frames)
  | .name members true, .recordClose => some (settle (.record members) frames)
  | .colon members name, .colon => some (.value, .record members name :: frames)
  | .separator, .comma =>
    match frames with
    | .record members _ :: rest => some (.name members false, rest)
    | .list _ :: _ => some (.value, frames)
    | [] => none
  | .separator, .listClose =>
    match frames with
    | .list items :: rest => some (settle (.list items.reverse) rest)
    | _ => none
  | .separator, .recordClose =>
    match frames with
    | .record members _ :: rest => some (settle (.record members) rest)
    | _ => none
  | _, _ => none

/-- The value that a list of tokens spells. -/
def build (expect : Expect) (frames : List Frame) : List Token → Option Value
  | [] =>
    match expect with
    | .nothing v => some v
    | _ => none
  | t :: rest =>
    match buildStep expect frames t with
    | some (expect, frames) => build expect frames rest
    | none => none

/-- The value that a JSON text spells, if it is well formed. -/
def read (s : String) : Option Value :=
  (lex [] .between s.toList).bind (build .value [])

end FormFlow.Json
