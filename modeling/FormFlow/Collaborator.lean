/-!
Failures of the parties outside: the source of field lists, the service that stores records, and the holder of the
credential. Nothing is retried, and what they say is passed on as it is.
-/

set_option autoImplicit false

namespace FormFlow

/-- The part of a party outside. -/
inductive Part where
  | schema
  | persistence
  | credential
  | unspecified
  deriving DecidableEq, Repr

/-- Why a service did not answer a request. -/
inductive ServiceFailure where
  | unreachable (reason : String)
  | status (code : Nat) (detail : String)
  | notJson
  deriving DecidableEq, Repr

/-- A failure of a party outside. -/
inductive CollaboratorFault where
  | unknownObject (object : String)
  | noSource (object : String)
  /-- Fields could not be fetched for a reason that is no failure of this kind itself. -/
  | fetchFailed (object reason : String)
  | service (part : Part) (method path : String) (failure : ServiceFailure)
  | fieldListMissing (object : String)
  | invalidFields (object : String) (problems : Nat)
  | noToken
  | variableUnset (name : String)
  /-- A failure in the party's own words. -/
  | reported (part : Part) (message : String)
  deriving DecidableEq, Repr

namespace CollaboratorFault

/-- The party that failed. -/
def part : CollaboratorFault → Part
  | unknownObject _ | noSource _ | fetchFailed .. | fieldListMissing _ | invalidFields .. => .schema
  | service part .. => part
  | noToken | variableUnset _ => .credential
  | reported part _ => part

def message : CollaboratorFault → String
  | unknownObject object => "Unknown object '" ++ object ++ "'"
  | noSource object => "No schema provider is configured; cannot fetch fields for '" ++ object ++ "'"
  | fetchFailed object reason => "Failed to fetch fields for " ++ object ++ ": " ++ reason
  | service _ method path failure =>
    method ++ " " ++ path ++ match failure with
      | .unreachable reason => " failed: " ++ reason
      | .status code detail => " returned HTTP " ++ toString code ++ ": " ++ detail
      | .notJson => " returned a non-JSON response"
  | fieldListMissing object => "Field list for " ++ object ++ " is missing from the response"
  | invalidFields object problems =>
    "Invalid field metadata for " ++ object ++ ": " ++ toString problems ++ " error(s)"
  | noToken => "No bearer token configured"
  | variableUnset name => "Environment variable " ++ name ++ " is not set"
  | reported _ message => message

end CollaboratorFault

/-- The token that a request is made with, or why there is none. -/
abbrev Credential := Except CollaboratorFault String

namespace Credential

/-- A fixed token; an empty one is none. -/
def fixed (token : Option String) : Credential :=
  match token.getD "" with
  | "" => .error .noToken
  | t => .ok t

/-- The variable that holds the token unless another one is named. -/
def defaultVariable : String := "MAPFLOW_TOKEN"

/-- The token in a variable of the environment; an empty one is none. -/
def ofEnvironment (environment : List (String × String)) (name : String) : Credential :=
  match (environment.lookup name).getD "" with
  | "" => .error (.variableUnset name)
  | t => .ok t

end Credential

end FormFlow
