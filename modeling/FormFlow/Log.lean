import FormFlow.Json.Writer
import FormFlow.Text.Case
/-!
Log entries.

An entry has a level, names an event and carries fields. It is shown if its level reaches a threshold, and what it
shows of a credential is a mask.
-/

set_option autoImplicit false

namespace FormFlow

/-- The weight of a log entry. -/
inductive LogLevel where
  | debug
  | info
  | warning
  | error
  | critical
  deriving DecidableEq, Repr

namespace LogLevel

def code : LogLevel → String
  | debug => "debug"
  | info => "info"
  | warning => "warning"
  | error => "error"
  | critical => "critical"

def severity : LogLevel → Nat
  | debug => 10
  | info => 20
  | warning => 30
  | error => 40
  | critical => 50

end LogLevel

/-- The least severity that is shown. -/
abbrev LogThreshold := Nat

namespace LogThreshold

/-- The thresholds by name. -/
def table : List (String × LogThreshold) := [
  ("CRITICAL", 50), ("FATAL", 50), ("ERROR", 40), ("WARN", 30), ("WARNING", 30), ("INFO", 20), ("DEBUG", 10),
  ("NOTSET", 0)]

/-- The threshold of a name in any case. -/
def ofName? (name : String) : Option LogThreshold := table.lookup (Text.upper name)

/-- The wording of a name without a threshold. -/
def unknownMessage (name : String) : String := "Unknown log level: " ++ Text.upper name

end LogThreshold

/-- Something that happened, with what there is to say about it. -/
structure LogEntry where
  level : LogLevel
  event : String
  fields : Members
  deriving DecidableEq, Repr

namespace LogEntry

/-- The names of fields that hold credentials. -/
def secretNames : List String := ["token", "credential", "authorization", "bearer_token"]

/-- What stands for a credential. -/
def maskText : String := "***"

/-- What stands for a credential in the members of an entry. -/
def mask : Value := .text maskText

/-- The members with every credential that is given replaced by the mask. -/
def masked (ms : Members) : Members :=
  ms.map fun (name, v) => (name, if secretNames.contains name && v.isGiven then mask else v)

def toMembers (e : LogEntry) : Members :=
  masked (Members.put (Members.put e.fields "event" (.text e.event)) "level" (.text e.level.code))

def toValue (e : LogEntry) : Value := .record e.toMembers

/-- The entry as a line of JSON text, its members in order of their names. -/
def line (e : LogEntry) : String :=
  Json.write .line (.record (e.toMembers.mergeSort fun a b => !(b.1 < a.1)))

def reaches (threshold : LogThreshold) (e : LogEntry) : Bool := threshold ≤ e.level.severity

def debug (event : String) (fields : Members) : LogEntry := ⟨.debug, event, fields⟩

def info (event : String) (fields : Members) : LogEntry := ⟨.info, event, fields⟩

def warning (event : String) (fields : Members) : LogEntry := ⟨.warning, event, fields⟩

end LogEntry

end FormFlow
