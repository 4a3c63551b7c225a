import FormFlow.Checked.Records
import FormFlow.Clock
import FormFlow.Log
import FormFlow.Text.Quoted
/-!
The settings of the program: how long a repeated connection is ignored, what is logged and how, and the services that
know the fields of objects and store records.
-/

set_option autoImplicit false

namespace FormFlow

/-- What is logged, and whether as lines of JSON. -/
structure LogSettings where
  level : LogLevel
  asJson : Bool
  deriving DecidableEq, Repr

/-- A service: its base address, how long a request may take, and the token for its requests. -/
structure ServiceSettings where
  url : String
  timeout : Float
  token : Option String
  deriving DecidableEq, Repr

/-- The settings. -/
structure Settings where
  /-- The milliseconds inside which a repeated connection is ignored. -/
  debounce : Int
  log : LogSettings
  schema : Option ServiceSettings
  persistence : Option ServiceSettings
  deriving DecidableEq, Repr

namespace LogSettings

/-- The levels that can be set. -/
def levels : List LogLevel := [.debug, .info, .warning, .error]

/-- The name of a level in settings. -/
def levelName (l : LogLevel) : String := Text.upper l.code

/-- The settings where nothing is set. -/
def default : LogSettings := ⟨.info, false⟩

/-- A name in capitals; anything else as it is. -/
def inCapitals : Value → Value
  | .text s => .text (Text.upper s)
  | v => v

/-- Reads what is logged. Levels are named in any case. -/
def read : Reader LogSettings :=
  Checked.record "LoggingSettings" fun ms =>
    Checked.closed ms ["level", "json_output"] <|
      LogSettings.mk
        <$> Checked.optional ms "level" default.level
          (fun v => Checked.choice .notLiteral levelName levels (inCapitals v))
        <*> Checked.optional ms "json_output" default.asJson Checked.bool

def toValue (s : LogSettings) : Value :=
  .record [("level", .text (levelName s.level)), ("json_output", .bool s.asJson)]

end LogSettings

namespace ServiceSettings

/-- The schemes of services. -/
def schemes : List String := ["http://", "https://"]

/-- Whether an address has the scheme of a service. -/
def isReachable (url : String) : Bool := schemes.any fun s => s.toList.isPrefixOf url.toList

/-- The wording of an address without the scheme of a service. -/
def schemeMessage (url : String) : String :=
  "url must start with " ++ " or ".intercalate schemes ++ ", got " ++ Text.quoted url

/-- An address without slashes at its end. -/
def withoutSlashes (url : String) : String :=
  .ofList (url.toList.reverse.dropWhile (· == '/')).reverse

/-- Reads an address. -/
def readUrl : Reader String := fun v =>
  withoutSlashes <$> (Checked.text v).ensure isReachable fun url => .refused (schemeMessage url)

/-- The seconds that a request may take if nothing is set. -/
def defaultTimeout : Float := 30.0

/-- Reads a time; it has to be more than none. -/
def readTimeout : Reader Float := fun v =>
  (Checked.float v).ensure (fun x => 0.0 < x) fun _ => .notAbove 0

def read : Reader ServiceSettings :=
  Checked.record "ServiceSettings" fun ms =>
    Checked.closed ms ["url", "timeout_seconds", "token"] <|
      ServiceSettings.mk
        <$> Checked.required ms "url" readUrl
        <*> Checked.optional ms "timeout_seconds" defaultTimeout readTimeout
        <*> Checked.optional ms "token" none (Checked.nullable Checked.text)

def toValue (s : ServiceSettings) : Value :=
  .record [("url", .text s.url), ("timeout_seconds", .float s.timeout), ("token", Value.ofText? s.token)]

/-- The service with its token, if there is one, replaced by the mask. -/
def redacted (s : ServiceSettings) : ServiceSettings :=
  { s with token := s.token.map fun _ => LogEntry.maskText }

end ServiceSettings

namespace Settings

/-- The settings where nothing is set. -/
def default : Settings := ⟨100, .default, none, none⟩

/-- Reads a number of milliseconds. -/
def readDebounce : Reader Int := fun v =>
  (Checked.int v).ensure (fun n => 0 ≤ n) fun _ => .below 0

def read : Reader Settings :=
  Checked.record "MapflowSettings" fun ms =>
    Checked.closed ms ["connect_debounce_ms", "logging", "schema_provider", "persistence"] <|
      Settings.mk
        <$> Checked.optional ms "connect_debounce_ms" default.debounce readDebounce
        <*> Checked.optional ms "logging" default.log LogSettings.read
        <*> Checked.optional ms "schema_provider" none (Checked.nullable ServiceSettings.read)
        <*> Checked.optional ms "persistence" none (Checked.nullable ServiceSettings.read)

/-- The time inside which a repeated connection is ignored. -/
def window (s : Settings) : Seconds := .real (Decimal.ofInt s.debounce / 1000.0)

/-- A service, or none, as plain data. -/
def serviceValue : Option ServiceSettings → Value
  | some s => s.toValue
  | none => .null

def toValue (s : Settings) : Value := .record [
  ("connect_debounce_ms", .int s.debounce),
  ("logging", s.log.toValue),
  ("schema_provider", serviceValue s.schema),
  ("persistence", serviceValue s.persistence)]

/-- The settings with every token replaced by the mask: the form that may be logged. -/
def redacted (s : Settings) : Settings :=
  { s with
    schema := s.schema.map ServiceSettings.redacted
    persistence := s.persistence.map ServiceSettings.redacted }

end Settings

end FormFlow
