import FormFlow.Schema.Source
/-!
The desk that an editor works at: a source of field lists, the lists that were fetched from it, and the log.

A list is fetched when it is first needed and kept until it is dropped. A failure is not kept: the next need of the
same object asks the source again.
-/

set_option autoImplicit false

namespace FormFlow

/-- A source with its state, the lists that were fetched, and the log so far. -/
structure Desk (σ : Type) where
  source : SchemaSource σ
  state : σ
  cache : ObjectFields
  log : List LogEntry

namespace Desk

variable {σ : Type}

/-- A desk where nothing was fetched yet. -/
def fresh (source : SchemaSource σ) (state : σ) : Desk σ := ⟨source, state, [], []⟩

/-- Adds an entry to the log. -/
def note (d : Desk σ) (e : LogEntry) : Desk σ := { d with log := d.log ++ [e] }

/-- Whether the list of an object is kept. -/
def isCached (d : Desk σ) (object : String) : Bool := (d.cache.lookup object).isSome

/-- The types of the fields of an object whose list is kept. Nothing is fetched. -/
def fieldTypes (d : Desk σ) (object : String) : Option (List (String × String)) :=
  (d.cache.lookup object).map FieldInfo.typesByName

/-- Asks the source for the fields of an object and keeps them if it gives any. -/
def fetch (d : Desk σ) (object : String) : Except CollaboratorFault (List FieldInfo) × Desk σ :=
  let (reply, state) := d.source d.state object
  let d := { d with state := state, log := d.log ++ reply.log }
  match reply.outcome with
  | .ok fields =>
    let entry := LogEntry.debug "schema_cached"
      [("object_name", .text object), ("field_count", .int fields.length)]
    (.ok fields, { d with cache := Members.put d.cache object fields, log := d.log ++ [entry] })
  | .error (.collaborator f) => (.error f, d)
  | .error (.other reason) => (.error (.fetchFailed object reason), d)

/-- The fields of an object: the kept list, or a fetched one. -/
def fields (d : Desk σ) (object : String) : Except CollaboratorFault (List FieldInfo) × Desk σ :=
  match d.cache.lookup object with
  | some fields => (.ok fields, d)
  | none => d.fetch object

/-- Drops the list of an object, or all of them. -/
def drop (d : Desk σ) : Option String → Desk σ
  | some object => { d with cache := Members.without d.cache object }
  | none => { d with cache := [] }

end Desk

end FormFlow
