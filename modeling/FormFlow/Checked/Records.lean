import FormFlow.Checked.Scalars
/-!
Readers of lists, mappings and records.
-/

set_option autoImplicit false

namespace FormFlow.Checked

variable {α : Type}

/-- The items of a list from a position on, each problem under the position of its item. -/
def itemsFrom (r : Reader α) (position : Nat) : List Value → Checked (List α)
  | [] => .good []
  | v :: rest => List.cons <$> (r v).under (toString position) <*> itemsFrom r (position + 1) rest

def list (r : Reader α) : Reader (List α)
  | .list vs => itemsFrom r 0 vs
  | _ => fail .notList

/-- A list of what the reader reads, where a problem with the whole speaks of a tuple. -/
def tuple (r : Reader α) : Reader (List α)
  | .list vs => itemsFrom r 0 vs
  | _ => fail .notTuple

/-- The values of a mapping, each problem under its name. -/
def entries (r : Reader α) : Members → Checked (List (String × α))
  | [] => .good []
  | (name, v) :: rest => (fun a as => (name, a) :: as) <$> (r v).under name <*> entries r rest

/-- A mapping from names to what the reader reads. -/
def mapping (r : Reader α) : Reader (List (String × α))
  | .record ms => entries r ms
  | _ => fail .notMapping

/-- A field that has to be there. -/
def required (ms : Members) (name : String) (r : Reader α) : Checked α :=
  match Members.get? ms name with
  | some v => (r v).under name
  | none => .bad [⟨[name], .missing⟩]

/-- A field with a default. -/
def optional (ms : Members) (name : String) (default : α) (r : Reader α) : Checked α :=
  match Members.get? ms name with
  | some v => (r v).under name
  | none => .good default

/-- The problems of names that are not declared, in the order of the data. -/
def undeclared (ms : Members) (declared : List String) : List Problem :=
  (ms.filter fun (name, _) => !declared.contains name).map fun (name, _) => ⟨[name], .undeclared⟩

/-- A record with declared fields only. -/
def closed (ms : Members) (declared : List String) (fields : Checked α) : Checked α :=
  match undeclared ms declared, fields with
  | [], r => r
  | extra, .good _ => .bad extra
  | extra, .bad ps => .bad (ps ++ extra)

/-- A record of a named type. -/
def record (type : String) (fields : Members → Checked α) : Reader α
  | .record ms => fields ms
  | _ => fail (.notRecord type)

end FormFlow.Checked
