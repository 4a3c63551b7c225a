import FormFlow.Service.Address
import FormFlow.Value.Basic
/-!
Exchanges with a service: the replies that will come, one for each request, and the requests that were made.
-/

set_option autoImplicit false

namespace FormFlow

/-- What comes back from a request. -/
inductive Reply where
  | answered (status : Nat) (body : String)
  | failed (reason : String)
  deriving DecidableEq, Repr

/-- A request as it was made. -/
structure Request where
  method : String
  address : Address
  authorization : Option String
  body : Value
  deriving DecidableEq, Repr

namespace Request

/-- The form of answers that every request asks for. -/
def accept : String := "application/json"

/-- Whether a character is beyond ASCII. -/
def isForeign (c : Char) : Bool := 0x80 ≤ c.toNat

/-- What is wrong with a header that holds characters beyond ASCII: the first of them, and those right after it. -/
def unencodable? (header : String) : Option String :=
  let position := header.toList.findIdx isForeign
  match (header.toList.drop position).takeWhile isForeign with
  | [] => none
  | [c] =>
    some ("'ascii' codec can't encode character '" ++ .ofList (Text.escapeNumber c) ++ "' in position " ++
      toString position ++ ": ordinal not in range(128)")
  | cs =>
    some ("'ascii' codec can't encode characters in position " ++ toString position ++ "-" ++
      toString (position + cs.length - 1) ++ ": ordinal not in range(128)")

end Request

/-- The replies to come and the requests so far. -/
structure Exchange where
  replies : List Reply
  requests : List Request
  deriving DecidableEq, Repr

namespace Exchange

/-- The reply when none is left. -/
def exhausted : Reply := .answered 500 "no scripted response"

/-- Makes a request. -/
def send (x : Exchange) (r : Request) : Reply × Exchange :=
  (x.replies.headD exhausted, ⟨x.replies.tail, x.requests ++ [r]⟩)

end Exchange

namespace Reply

/-- The phrases for statuses of errors. -/
def phrases : List (Nat × String) := [
  (400, "Bad Request"), (401, "Unauthorized"), (402, "Payment Required"), (403, "Forbidden"), (404, "Not Found"),
  (405, "Method Not Allowed"), (406, "Not Acceptable"), (407, "Proxy Authentication Required"),
  (408, "Request Timeout"), (409, "Conflict"), (410, "Gone"), (411, "Length Required"),
  (412, "Precondition Failed"), (413, "Request Entity Too Large"), (414, "Request-URI Too Long"),
  (415, "Unsupported Media Type"), (416, "Requested Range Not Satisfiable"), (417, "Expectation Failed"),
  (418, "I'm a teapot"), (421, "Misdirected Request"), (422, "Unprocessable Entity"), (423, "Locked"),
  (424, "Failed Dependency"), (425, "Too Early"), (426, "Upgrade Required"), (428, "Precondition Required"),
  (429, "Too Many Requests"), (431, "Request Header Fields Too Large"), (451, "Unavailable For Legal Reasons"),
  (500, "Internal Server Error"), (501, "Not Implemented"), (502, "Bad Gateway"), (503, "Service Unavailable"),
  (504, "Gateway Timeout"), (505, "HTTP Version Not Supported"), (506, "Variant Also Negotiates"),
  (507, "Insufficient Storage"), (508, "Loop Detected"), (510, "Not Extended"),
  (511, "Network Authentication Required")]

/-- The phrase of a status; statuses without one have the empty phrase. -/
def phrase (status : Nat) : String := (phrases.lookup status).getD ""

/-- Whether a status stands for an error. -/
def isError (status : Nat) : Bool := 400 ≤ status && status ≤ 599

end Reply

end FormFlow
