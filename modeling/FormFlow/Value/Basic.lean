import FormFlow.Text.Blank
/-!
Plain data: what documents, configurations, settings and service answers are made of before they are read.

Integers and doubles stay apart. The members of a record keep the order in which their names were first written, and
a name that is written again replaces the value at its first place.
-/

set_option autoImplicit false

namespace FormFlow

/-- A plain value. -/
inductive Value where
  | null
  | bool (b : Bool)
  | int (n : Int)
  | float (x : Float)
  | text (s : String)
  | list (items : List Value)
  | record (members : List (String × Value))
  deriving Repr, Inhabited

namespace Value

mutual
/-- Equality of values, doubles compared by their bits. -/
def decEq : (a b : Value) → Decidable (a = b)
  | .null, .null => isTrue rfl
  | .bool a, .bool b => if h : a = b then isTrue (by rw [h]) else isFalse (by simp [h])
  | .int a, .int b => if h : a = b then isTrue (by rw [h]) else isFalse (by simp [h])
  | .float a, .float b => if h : a = b then isTrue (by rw [h]) else isFalse (by simp [h])
  | .text a, .text b => if h : a = b then isTrue (by rw [h]) else isFalse (by simp [h])
  | .list a, .list b =>
    match decEqItems a b with
    | isTrue h => isTrue (by rw [h])
    | isFalse h => isFalse (by simp [h])
  | .record a, .record b =>
    match decEqMembers a b with
    | isTrue h => isTrue (by rw [h])
    | isFalse h => isFalse (by simp [h])
  | .null, .bool _ | .null, .int _ | .null, .float _ | .null, .text _ | .null, .list _ | .null, .record _
  | .bool _, .null | .bool _, .int _ | .bool _, .float _ | .bool _, .text _ | .bool _, .list _ | .bool _, .record _
  | .int _, .null | .int _, .bool _ | .int _, .float _ | .int _, .text _ | .int _, .list _ | .int _, .record _
  | .float _, .null | .float _, .bool _ | .float _, .int _ | .float _, .text _ | .float _, .list _
  | .float _, .record _
  | .text _, .null | .text _, .bool _ | .text _, .int _ | .text _, .float _ | .text _, .list _ | .text _, .record _
  | .list _, .null | .list _, .bool _ | .list _, .int _ | .list _, .float _ | .list _, .text _ | .list _, .record _
  | .record _, .null | .record _, .bool _ | .record _, .int _ | .record _, .float _ | .record _, .text _
  | .record _, .list _ => isFalse nofun

/-- Equality of two lists of values. -/
def decEqItems : (a b : List Value) → Decidable (a = b)
  | [], [] => isTrue rfl
  | [], _ :: _ => isFalse nofun
  | _ :: _, [] => isFalse nofun
  | a :: as, b :: bs =>
    match decEq a b, decEqItems as bs with
    | isTrue h, isTrue t => isTrue (by rw [h, t])
    | isFalse h, _ => isFalse (by simp [h])
    | _, isFalse t => isFalse (by simp [t])

/-- Equality of two lists of members. -/
def decEqMembers : (a b : List (String × Value)) → Decidable (a = b)
  | [], [] => isTrue rfl
  | [], _ :: _ => isFalse nofun
  | _ :: _, [] => isFalse nofun
  | (k, a) :: as, (l, b) :: bs =>
    if hk : k = l then
      match decEq a b, decEqMembers as bs with
      | isTrue h, isTrue t => isTrue (by rw [hk, h, t])
      | isFalse h, _ => isFalse (by simp [h])
      | _, isFalse t => isFalse (by simp [t])
    else isFalse (by simp [hk])
end

instance : DecidableEq Value := decEq

/-- Whether the value counts as given when it is tested as a whole: nothing, false, zero, and whatever is empty do
not. -/
def isGiven : Value → Bool
  | .null => false
  | .bool b => b
  | .int n => n != 0
  | .float x => !(x == 0.0)
  | .text s => s != ""
  | .list items => !items.isEmpty
  | .record members => !members.isEmpty

/-- No value, or blank text. -/
def isMissing : Value → Bool
  | .null => true
  | .text s => Text.isBlankText s
  | _ => false

/-- The text or nothing. -/
def ofText? : Option String → Value
  | some s => .text s
  | none => .null

/-- The integer or nothing. -/
def ofInt? : Option Int → Value
  | some n => .int n
  | none => .null

def texts (items : List String) : Value :=
  .list (items.map .text)

end Value

/-- The members of a record, in order. -/
abbrev Members := List (String × Value)

namespace Members

/-- Puts a value under a name: in its place if the name is there, else at the end. -/
def put {α : Type} (ms : List (String × α)) (name : String) (value : α) : List (String × α) :=
  match ms with
  | [] => [(name, value)]
  | (k, old) :: rest => if k = name then (k, value) :: rest else (k, old) :: put rest name value

/-- Puts every pair of a list, one after the other. -/
def putAll {α : Type} (ms news : List (String × α)) : List (String × α) :=
  news.foldl (fun acc (k, v) => put acc k v) ms

/-- The pairs of a list with repeated names joined. -/
def ofPairs {α : Type} (pairs : List (String × α)) : List (String × α) :=
  putAll [] pairs

/-- The value under a name. -/
def get? {α : Type} (ms : List (String × α)) (name : String) : Option α :=
  ms.lookup name

/-- The values of members. -/
def values {α : Type} (ms : List (String × α)) : List α := ms.map (·.2)

/-- The members without the one of a name. -/
def without {α : Type} (ms : List (String × α)) (name : String) : List (String × α) :=
  ms.filter fun (k, _) => k != name

end Members

end FormFlow
