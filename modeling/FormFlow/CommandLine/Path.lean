import FormFlow.Text.Pieces
/-!
Paths of files.
-/

set_option autoImplicit false

namespace FormFlow

/-- A path: the slashes in front, and the names in it. -/
structure Path where
  root : String
  names : List String
  deriving DecidableEq, Repr

namespace Path

/-- Reads a path. Empty names and names for the place itself say nothing; only two slashes in front are not one. -/
def ofText (s : String) : Path :=
  let cs := s.toList
  let slashes := (cs.takeWhile (· == '/')).length
  let root := if slashes = 0 then "" else if slashes = 2 then "//" else "/"
  let names := (Text.pieces '/' cs).filter fun n => n ≠ [] && n ≠ ['.']
  ⟨root, names.map .ofList⟩

def toText (p : Path) : String :=
  if p.root = "" && p.names.isEmpty then "." else p.root ++ "/".intercalate p.names

def name (p : Path) : String := p.names.getLast?.getD ""

def folder (p : Path) : Path := { p with names := p.names.dropLast }

instance : ToString Path where
  toString := toText

end Path

end FormFlow
