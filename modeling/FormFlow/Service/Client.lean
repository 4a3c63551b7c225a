import FormFlow.Json.Reader
import FormFlow.Record
import FormFlow.Schema.Source
import FormFlow.Service.Exchange
/-!
The clients of the two services: the one that knows the fields of objects, and the one that stores records.

Every request asks for JSON. Whatever goes wrong is a failure that carries the service's own words: no connection, a
status that stands for an error, or an answer that is not JSON. A request that cannot be written, be it for its address,
its token or its body, is not made.
-/

set_option autoImplicit false

namespace FormFlow

/-- Why a request cannot be made. -/
inductive SendFault where
  /-- It has no address. -/
  | address (reason : String)
  /-- Its token cannot be written in a header. -/
  | header (reason : String)
  /-- Its body cannot be written. -/
  | body (fault : DumpFault)
  deriving DecidableEq, Repr

def SendFault.message : SendFault → String
  | address reason | header reason => reason
  | body fault => fault.message

/-- Why a call gave no answer. -/
inductive CallFault where
  | collaborator (fault : CollaboratorFault)
  | unsent (fault : SendFault)
  deriving DecidableEq, Repr

/-- The result of a call and what was logged. -/
structure Called (α : Type) where
  outcome : Except CallFault α
  log : List LogEntry

/-- What a service is called for. -/
structure Call where
  part : Part
  method : String
  path : String
  token : Option String
  body : Value

namespace Call

def failed (c : Call) (failure : ServiceFailure) : CallFault :=
  .collaborator (.service c.part c.method c.path failure)

/-- The members of a log entry about a call. -/
def noted (c : Call) (more : Members) : Members :=
  [("method", .text c.method), ("path", .text c.path)] ++ more

/-- The JSON value of a body; a byte order mark in front is passed over. -/
def json? (body : String) : Option Value :=
  Json.read <| match body.toList with
    | '\uFEFF' :: rest => .ofList rest
    | _ => body

/-- The first text among named members. -/
def firstText (ms : Members) : List String → Option String
  | [] => none
  | name :: rest =>
    match Members.get? ms name with
    | some (.text s) => some s
    | _ => firstText ms rest

/-- The body without blank ends, or the phrase of the status. -/
def plainDetail (status : Nat) (body : String) : String :=
  let text := Text.strip body
  if text = "" then Reply.phrase status else text

/-- What an answer that stands for an error says. -/
def detail (status : Nat) (body : String) : String :=
  match json? body with
  | some (.record ms) => (firstText ms ["message", "error", "detail"]).getD (plainDetail status body)
  | _ => plainDetail status body

/-- The request of a call. A token that is empty is not sent. -/
def request (c : Call) (base : Address) : Request :=
  { method := c.method
    address := base.below c.path
    authorization := (Text.filled? c.token).map ("Bearer " ++ ·)
    body := c.body }

/-- What a reply to a call comes to. -/
def judge (c : Call) : Reply → Called Value
  | .failed reason =>
    ⟨.error (c.failed (.unreachable reason)),
      [.warning "service_request_failed" (c.noted [("error", .text reason)])]⟩
  | .answered status body =>
    if Reply.isError status then
      ⟨.error (c.failed (.status status (detail status body))),
        [.warning "service_error_response" (c.noted [("status_code", .int status)])]⟩
    else
      match json? body with
      | some v => ⟨.ok v, []⟩
      | none => ⟨.error (c.failed .notJson), []⟩

/-- What keeps the request of a call from being made. -/
def unsendable? (c : Call) (base : Address) : Option SendFault :=
  (Address.unprintable? c.path).map .address <|>
    ((c.request base).authorization.bind Request.unencodable?).map .header <|>
      if c.body.hasDigits then none else some (.body .tooLong)

/-- Makes a call below a base address. -/
def run (c : Call) (base : Address) (x : Exchange) : Called Value × Exchange :=
  match c.unsendable? base with
  | some f => (⟨.error (.unsent f), []⟩, x)
  | none =>
    let (reply, x) := x.send (c.request base)
    (c.judge reply, x)

end Call

/-- The service that knows the fields of objects. -/
structure SchemaService where
  base : Address
  /-- The credential, if requests carry one. -/
  credential : Option Credential

namespace SchemaService

/-- The call for the fields of an object. -/
def call (object : String) (token : Option String) : Call :=
  ⟨.schema, "GET", "/objects/" ++ object ++ "/fields", token, .null⟩

/-- Reads the fields of an object one by one, up to the first that is none. -/
def readFields (object : String) : List Value → Except CollaboratorFault (List FieldInfo)
  | [] => .ok []
  | v :: rest =>
    match FieldInfo.read v with
    | .bad ps => .error (.invalidFields object ps.length)
    | .good f =>
      match readFields object rest with
      | .ok fs => .ok (f :: fs)
      | .error e => .error e

/-- The fields in an answer: a list, or a record with a list of them. -/
def fieldsOf (object : String) (answer : Value) : Except CollaboratorFault (List FieldInfo) :=
  let listed := match answer with
    | .record ms => (Members.get? ms "fields").getD .null
    | v => v
  match listed with
  | .list items => readFields object items
  | _ => .error (.fieldListMissing object)

/-- What an answered call comes to. -/
def judge (object : String) (c : Called Value) : FetchReply :=
  match c.outcome with
  | .error (.collaborator f) => ⟨.error (.collaborator f), c.log⟩
  | .error (.unsent f) => ⟨.error (.other f.message), c.log⟩
  | .ok answer =>
    match fieldsOf object answer with
    | .error f => ⟨.error (.collaborator f), c.log⟩
    | .ok fields =>
      ⟨.ok fields,
        c.log ++ [.debug "schema_fetched" [("object_name", .text object), ("field_count", .int fields.length)]]⟩

/-- The service as a source of field lists. Without a token that it has to have, no request is made. -/
def source (s : SchemaService) : SchemaSource Exchange := fun x object =>
  let ask := fun (token : Option String) =>
    let (c, x) := (call object token).run s.base x
    (judge object c, x)
  match s.credential with
  | none => ask none
  | some (.ok token) => ask (some token)
  | some (.error f) => (⟨.error (.collaborator f), []⟩, x)

end SchemaService

/-- The acknowledgement of stored records. -/
structure Receipt where
  formVersion : String
  recordIds : List String
  message : String
  deriving DecidableEq, Repr

namespace Receipt

/-- The ids in an answer: the items of a list, the names of a record, the characters of a text. Whatever counts as
not given has none; of what is left, numbers and truth values, there are no items. -/
def ids? (v : Value) : Option (List String) :=
  if !v.isGiven then some []
  else match v with
    | .list items => some (items.map Value.spoken)
    | .record ms => some (ms.map (·.1))
    | .text s => some (s.toList.map fun c => .ofList [c])
    | _ => none

/-- The receipt in an answer, unless its ids cannot be listed. -/
def read (formVersion : String) (answer : Value) : Option Receipt :=
  let ms := match answer with
    | .record ms => ms
    | _ => []
  (ids? ((Members.get? ms "record_ids").getD .null)).map fun ids =>
    ⟨formVersion, ids, ((Members.get? ms "message").getD (.text "")).spoken⟩

def toValue (r : Receipt) : Value :=
  .record [("form_version_id", .text r.formVersion), ("record_ids", Value.texts r.recordIds),
    ("message", .text r.message)]

end Receipt

/-- Why records were not acknowledged. -/
inductive SaveFault where
  /-- A record cannot be written. -/
  | undumped (fault : DumpFault)
  | unsent (fault : SendFault)
  | collaborator (fault : CollaboratorFault)
  /-- The service answered, but with ids that are no list. -/
  | unlistedIds
  deriving DecidableEq, Repr

/-- The service that stores records. -/
structure RecordService where
  base : Address

namespace RecordService

/-- The call that stores records. -/
def call (records : List Value) (formVersion token : String) : Call :=
  ⟨.persistence, "POST", "/mappings", some token,
    .record [("form_version_id", .text formVersion), ("records", .list records)]⟩

/-- Stores records: they are written, and one request is answered by a receipt or a fault. -/
def save (s : RecordService) (records : List Record) (formVersion token : String) (x : Exchange) :
    (Except SaveFault Receipt × List LogEntry) × Exchange :=
  match Record.dumpAll records with
  | .error f => ((.error (.undumped f), []), x)
  | .ok written =>
    let (c, x) := (call written formVersion token).run s.base x
    match c.outcome with
    | .error (.collaborator f) => ((.error (.collaborator f), c.log), x)
    | .error (.unsent f) => ((.error (.unsent f), c.log), x)
    | .ok answer =>
      let entry := LogEntry.info "mappings_saved"
        [("form_version_id", .text formVersion), ("record_count", .int records.length)]
      (((Receipt.read formVersion answer).elim (.error .unlistedIds) .ok, c.log ++ [entry]), x)

end RecordService

end FormFlow
