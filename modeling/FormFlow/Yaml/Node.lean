import FormFlow.Value.Spoken
import FormFlow.Yaml.Core
import FormFlow.Yaml.Shape
import FormFlow.Yaml.Token
/-!
The nodes of YAML text, and the plain data that they stand for.

The tokens are put together in one pass by a machine with a stack of what is open: sequences and mappings in blocks or
in brackets. A node that is left out stands for no value. Names of mappings are texts; a name of another shape counts
by its text. What plain scalars stand for, and whether a name may be written again, is up to the dialect.
-/

set_option autoImplicit false

namespace FormFlow.Yaml

/-- A node. -/
inductive Node where
  | scalar (text : String) (isPlain : Bool)
  | sequence (items : List Node)
  | mapping (pairs : List (Node × Node))
  deriving Inhabited

namespace Node

/-- The node that is left out. -/
def omitted : Node := .scalar "" true

end Node

/-- How far a pair of a mapping has come. -/
inductive Slot where
  /-- A pair may begin. -/
  | ready
  /-- The key is awaited. -/
  | key
  /-- The key is there. -/
  | keyed (k : Node)
  /-- The value of a key is awaited. -/
  | value (k : Node)
  /-- The pair is there, and a comma or the end is awaited. -/
  | done

/-- Something that is open. Items and pairs are kept with the last one first. -/
inductive Frame where
  /-- A sequence of a block. One that is not indented ends where its mapping goes on. -/
  | items (done : List Node) (isAwaited isIndented : Bool)
  | mapping (pairs : List (Node × Node)) (slot : Slot)
  | list (done : List Node) (isReady : Bool)
  /-- A mapping of one pair without brackets inside a list. -/
  | pair (slot : Slot)
  | record (pairs : List (Node × Node)) (slot : Slot)

/-- What a token does to the innermost frame. -/
inductive Act where
  | stay (f : Frame)
  /-- The token is a node inside the frame. -/
  | hold (n : Node)
  /-- The token opens a node inside the frame. -/
  | enter (inner : Frame)
  /-- The frame has ended before the token. -/
  | leave (n : Node)
  /-- The token ends the frame. -/
  | close (n : Node)

namespace Frame

/-- What a token opens where a node is awaited. -/
def opened (inBlock mayStandOut : Bool) : Token → Option Act
  | .scalar text isPlain => some (.hold (.scalar (.ofList text) isPlain))
  | .listOpen => some (.enter (.list [] true))
  | .recordOpen => some (.enter (.record [] .ready))
  | .sequenceStart => if inBlock then some (.enter (.items [] false true)) else none
  | .mappingStart => if inBlock then some (.enter (.mapping [] .ready)) else none
  | .entry => if mayStandOut then some (.enter (.items [] true false)) else none
  | _ => none

/-- The node of items. -/
def sequenceOf (done : List Node) : Node := .sequence done.reverse

def mappingOf (pairs : List (Node × Node)) : Node := .mapping pairs.reverse

/-- A token at a sequence of a block. -/
def actItems (done : List Node) (isAwaited isIndented : Bool) (t : Token) : Option Act :=
  let full := if isAwaited then .omitted :: done else done
  match (if isAwaited then opened true false t else none), t with
  | some act, _ => some act
  | none, .entry => some (.stay (.items full true isIndented))
  | none, .blockEnd => some (if isIndented then .close (sequenceOf full) else .leave (sequenceOf full))
  | none, _ =>
    let mayLeave := !isIndented && (!isAwaited || t == .key || t == .value)
    if mayLeave then some (.leave (sequenceOf full)) else none

/-- A token at a mapping of a block that has its last pair. -/
def actNext (pairs : List (Node × Node)) : Token → Option Act
  | .key => some (.stay (.mapping pairs .key))
  | .blockEnd => some (.close (mappingOf pairs))
  | _ => none

/-- A token at a mapping of a block. -/
def actMapping (pairs : List (Node × Node)) (slot : Slot) (t : Token) : Option Act :=
  match slot with
  | .ready | .done => actNext pairs t
  | .key =>
    match opened true true t with
    | some act => some act
    | none =>
      if t = .value then some (.stay (.mapping pairs (.value .omitted)))
      else actNext ((.omitted, .omitted) :: pairs) t
  | .keyed k => if t = .value then some (.stay (.mapping pairs (.value k))) else actNext ((k, .omitted) :: pairs) t
  | .value k =>
    match opened true true t with
    | some act => some act
    | none => actNext ((k, .omitted) :: pairs) t

def actList (done : List Node) (isReady : Bool) (t : Token) : Option Act :=
  if t = .listClose then some (.close (sequenceOf done))
  else if isReady then if t = .key then some (.enter (.pair .key)) else opened false false t
  else if t = .comma then some (.stay (.list done true))
  else none

/-- Whether a token ends a pair inside a list. -/
def endsPair (t : Token) : Bool := t == .comma || t == .listClose

/-- A token at a pair inside a list. -/
def actPair (slot : Slot) (t : Token) : Option Act :=
  let ended := fun (k : Node) => if endsPair t then some (Act.leave (.mapping [(k, .omitted)])) else none
  match slot with
  | .key =>
    match opened false false t with
    | some act => some act
    | none => if t = .value then some (.stay (.pair (.value .omitted))) else ended .omitted
  | .keyed k => if t = .value then some (.stay (.pair (.value k))) else some (.leave (.mapping [(k, .omitted)]))
  | .value k =>
    match opened false false t with
    | some act => some act
    | none => ended k
  | .ready | .done => none

/-- A token at a record that has its last pair. -/
def actDone (pairs : List (Node × Node)) : Token → Option Act
  | .comma => some (.stay (.record pairs .ready))
  | .recordClose => some (.close (mappingOf pairs))
  | _ => none

def actRecord (pairs : List (Node × Node)) (slot : Slot) (t : Token) : Option Act :=
  match slot with
  | .ready =>
    if t = .recordClose then some (.close (mappingOf pairs))
    else if t = .key then some (.stay (.record pairs .key))
    else opened false false t
  | .done => actDone pairs t
  | .key =>
    match opened false false t with
    | some act => some act
    | none =>
      if t = .value then some (.stay (.record pairs (.value .omitted)))
      else actDone ((.omitted, .omitted) :: pairs) t
  | .keyed k => if t = .value then some (.stay (.record pairs (.value k))) else actDone ((k, .omitted) :: pairs) t
  | .value k =>
    match opened false false t with
    | some act => some act
    | none => actDone ((k, .omitted) :: pairs) t

/-- What a token does to a frame. -/
def act : Frame → Token → Option Act
  | items done isAwaited isIndented, t => actItems done isAwaited isIndented t
  | mapping pairs slot, t => actMapping pairs slot t
  | list done isReady, t => actList done isReady t
  | pair slot, t => actPair slot t
  | record pairs slot, t => actRecord pairs slot t

/-- A frame with the node that it awaited: the frame goes on, or the node completes it. -/
def accept (n : Node) : Frame → Option (Sum Frame Node)
  | items done true isIndented => some (.inl (.items (n :: done) false isIndented))
  | mapping pairs .key => some (.inl (.mapping pairs (.keyed n)))
  | mapping pairs (.value k) => some (.inl (.mapping ((k, n) :: pairs) .ready))
  | list done true => some (.inl (.list (n :: done) false))
  | pair .key => some (.inl (.pair (.keyed n)))
  | pair (.value k) => some (.inr (.mapping [(k, n)]))
  | record pairs .ready => some (.inl (.record ((n, .omitted) :: pairs) .done))
  | record pairs .key => some (.inl (.record pairs (.keyed n)))
  | record pairs (.value k) => some (.inl (.record ((k, n) :: pairs) .done))
  | _ => none

end Frame

/-- How far the document has come. -/
inductive Root where
  | fresh
  /-- The mark of a document was read. -/
  | marked
  | content (n : Node)
  | ended (n : Node)

/-- The document and what is open in it. -/
structure Builder where
  root : Root
  frames : List Frame

namespace Builder

/-- Gives a complete node to what awaits it. -/
def give (n : Node) (root : Root) : List Frame → Option Builder
  | [] =>
    match root with
    | .fresh | .marked => some ⟨.content n, []⟩
    | _ => none
  | f :: below =>
    match f.accept n with
    | some (.inl f) => some ⟨root, f :: below⟩
    | some (.inr n) => give n root below
    | none => none

/-- A token outside all frames. -/
def atRoot (root : Root) (t : Token) : Option Builder :=
  let first := match Frame.opened true false t with
    | some (.hold n) => some ⟨.content n, []⟩
    | some (.enter f) => some ⟨root, [f]⟩
    | _ => none
  match root with
  | .fresh => if t = .documentStart then some ⟨.marked, []⟩ else first
  | .marked => if t = .documentEnd then some ⟨.ended .omitted, []⟩ else first
  | .content n | .ended n => if t = .documentEnd then some ⟨.ended n, []⟩ else none

/-- Feeds a token to the innermost frame. A frame that ends before the token gives its node to the next one. -/
def feed (t : Token) (root : Root) (given : Option Node) : List Frame → Option Builder
  | [] =>
    match given, root with
    | none, root => atRoot root t
    | some n, .fresh | some n, .marked => atRoot (.content n) t
    | some _, _ => none
  | f :: below =>
    let taken := match given with
      | some n => f.accept n
      | none => some (.inl f)
    match taken with
    | none => none
    | some (.inr n) => feed t root (some n) below
    | some (.inl f) =>
      match f.act t with
      | none => none
      | some (.stay g) => some ⟨root, g :: below⟩
      | some (.hold n) => give n root (f :: below)
      | some (.enter inner) => some ⟨root, inner :: f :: below⟩
      | some (.leave n) => feed t root (some n) below
      | some (.close n) => give n root below

/-- Puts the tokens together. -/
def run (b : Builder) : List Token → Option Builder
  | [] => some b
  | t :: rest => (feed t b.root none b.frames).bind fun b => b.run rest

end Builder

namespace Node

/-- The node of a text; a text without a document has none. -/
def ofText? (s : String) : Option (Option Node) := do
  let b ← (Builder.mk .fresh []).run (← tokens? s)
  match b.frames, b.root with
  | [], .fresh => some none
  | [], .marked => some (some .omitted)
  | [], .content n | [], .ended n => some (some n)
  | _ :: _, _ => none

end Node

/-- A dialect of YAML. -/
structure Dialect where
  shape : String → Shape
  /-- Whether a name may be written again in a mapping; its last value counts then. -/
  mayRepeat : Bool

namespace Dialect

/-- The dialect of documents. -/
def loose : Dialect := ⟨Shape.of, true⟩

/-- The dialect with fewer words for truth values and without numbers by sixties. -/
def core : Dialect := ⟨Shape.ofCore, false⟩

/-- The value of a scalar; the marks of mappings are none. -/
def scalarValue? (d : Dialect) (text : String) (isPlain : Bool) : Option Value :=
  if !isPlain then some (.text text)
  else match d.shape text with
    | .text | .date => some (.text text)
    | .null => some .null
    | .bool b => some (.bool b)
    | .int n => some (.int n)
    | .float x => some (.float x)
    | .valueMark | .mergeMark => none

/-- The name that a node is as a key: a scalar by the text of its value. -/
def name? (d : Dialect) : Node → Option String
  | .scalar text isPlain =>
    if isPlain && text == "=" then some text else (d.scalarValue? text isPlain).map Value.spoken
  | _ => none

def record? (d : Dialect) (ms : Members) : Option Value :=
  let joined := Members.ofPairs ms
  if d.mayRepeat || joined.length == ms.length then some (.record joined) else none

mutual
/-- The plain data of a node. -/
def value? (d : Dialect) : Node → Option Value
  | .scalar text isPlain => d.scalarValue? text isPlain
  | .sequence items => (values? d items).map .list
  | .mapping pairs => (members? d pairs).bind d.record?

/-- The plain data of items. -/
def values? (d : Dialect) : List Node → Option (List Value)
  | [] => some []
  | n :: rest =>
    match value? d n, values? d rest with
    | some v, some vs => some (v :: vs)
    | _, _ => none

/-- The members of pairs. -/
def members? (d : Dialect) : List (Node × Node) → Option Members
  | [] => some []
  | (k, n) :: rest =>
    match d.name? k, value? d n, members? d rest with
    | some name, some v, some ms => some ((name, v) :: ms)
    | _, _, _ => none
end

/-- Reads YAML text; text without a document is no value. -/
def read (d : Dialect) (s : String) : Option Value :=
  match Node.ofText? s with
  | none => none
  | some none => some .null
  | some (some n) => d.value? n

end Dialect

/-- Reads YAML text in the dialect of documents. -/
def read (s : String) : Option Value := Dialect.loose.read s

end FormFlow.Yaml
