import FormFlow.Text.Pieces
import FormFlow.Text.Quoted
/-!
Addresses of services.

A request is made to a path below the base address of its service. Characters that an address cannot hold are written
as percent signs and the hexadecimal digits of their bytes; escapes that are there already stay.
-/

set_option autoImplicit false

namespace FormFlow

/-- The parts of an address, each as it is written. -/
structure Address where
  scheme : String
  authority : String
  path : String
  query : Option String
  fragment : Option String
  deriving DecidableEq, Repr

namespace Address

/-- A byte after a percent sign. -/
def escapeByte (b : UInt8) : List Char :=
  '%' :: (Text.hexDigits 2 b.toNat).map Char.toUpper

def escape (allowed : Char → Bool) (cs : List Char) : List Char :=
  cs.flatMap fun c =>
    if allowed c then [c] else (String.ofList [c]).toUTF8.toList.flatMap escapeByte

/-- Printable ASCII characters other than the blank. -/
def isVisible (c : Char) : Bool := 0x20 < c.toNat && c.toNat < 0x7F

/-- The characters of a fragment. -/
def inFragment (c : Char) : Bool := isVisible c && !(['"', '<', '>', '\x60'].contains c)

def inQuery (c : Char) : Bool := isVisible c && !(['"', '#', '<', '>'].contains c)

def inPath (c : Char) : Bool := inQuery c && !(['?', '\x60', '\x7b', '\x7d'].contains c)

/-- Drops the segments that stand for the place itself, and those that step up together with what they leave. -/
def withoutDots (done : List (List Char)) : List (List Char) → List (List Char)
  | [] => done.reverse
  | s :: rest =>
    if s = ['.'] then withoutDots done rest
    else if s = ['.', '.'] then withoutDots (if done = [[]] then done else done.tail) rest
    else withoutDots (s :: done) rest

/-- A path without steps. -/
def normalPath (cs : List Char) : List Char :=
  let parts := Text.pieces '/' cs
  if parts.contains ['.'] || parts.contains ['.', '.'] then
    ['/'].intercalate (withoutDots [] parts)
  else cs

/-- A path and a query, escaped and normal. -/
def withTarget (a : Address) (target : List Char) : Address :=
  let (path, query) := Text.cut (· == '?') target
  { a with
    path := .ofList (normalPath (escape inPath path))
    query := query.map fun q => .ofList (escape inQuery q) }

/-- The number after the host that a scheme needs not name. -/
def defaultNumber (scheme : String) : Option String :=
  match scheme with
  | "http" => some "80"
  | "https" => some "443"
  | _ => none

/-- The authority with its host in lower case and without the number that goes without saying. -/
def normalAuthority (scheme : String) (cs : List Char) : List Char :=
  let (host, number) := Text.cut (· == ':') cs
  let host := host.map Char.toLower
  match number with
  | none | some [] => host
  | some p => if some (String.ofList p) == defaultNumber scheme then host else host ++ ':' :: p

/-- Reads a whole address. -/
def parse (s : String) : Address :=
  let (scheme, rest) := Text.cut (· == ':') s.toList
  let scheme : String := .ofList (scheme.map Char.toLower)
  let rest := (rest.getD []).drop 2
  let authority := rest.takeWhile fun c => !(c == '/' || c == '?' || c == '#')
  let (target, fragment) := Text.cut (· == '#') (rest.drop authority.length)
  withTarget
    { scheme, authority := .ofList (normalAuthority scheme authority), path := "", query := none
      fragment := fragment.map fun f => .ofList (escape inFragment f) }
    target

/-- The path and the query as one text; the empty path is the root. -/
def target (a : Address) : List Char :=
  (if a.path = "" then ['/'] else a.path.toList) ++
    match a.query with
    | some q => '?' :: q.toList
    | none => []

/-- The target with a slash at its end. -/
def folder (a : Address) : List Char :=
  let t := a.target
  if t.getLast? = some '/' then t else t ++ ['/']

def below (base : Address) (path : String) : Address :=
  let (relative, _) := Text.cut (· == '#') path.toList
  base.withTarget (base.folder ++ relative.dropWhile (· == '/'))

/-- The address as text. -/
def toString (a : Address) : String :=
  a.scheme ++ "://" ++ a.authority ++ a.path ++
    (match a.query with
      | some q => "?" ++ q
      | none => "") ++
    match a.fragment with
    | some f => "#" ++ f
    | none => ""

/-- What is wrong with a path that holds an ASCII character that cannot be printed. -/
def unprintable? (path : String) : Option String :=
  let position := path.toList.findIdx fun c => c.toNat < 0x20 || c.toNat = 0x7F
  match path.toList[position]? with
  | some c =>
    some ("Invalid non-printable ASCII character in URL, " ++ Text.quoted (.ofList [c]) ++ " at position " ++
      ToString.toString position ++ ".")
  | none => none

end Address

end FormFlow
