import FormFlow.Document.Basic
import FormFlow.Json.Reader
import FormFlow.Json.Writer
import FormFlow.Text.Case
import FormFlow.Yaml.Node
import FormFlow.Yaml.Writer
/-!
Documents in files. A file whose name ends in `.json`, in any case, holds JSON, any other YAML.

What a text stands for is up to a reader. Whatever it makes of a text, a document is read from plain data.
-/

set_option autoImplicit false

namespace FormFlow

/-- The notation of a file. -/
inductive Notation where
  | json
  | yaml
  deriving DecidableEq, Repr

namespace Notation

/-- The notation of files with an ending. -/
def ofEnding (ending : String) : Notation := if Text.lower ending = ".json" then json else yaml

/-- The ending of a file's name: what follows its last point, with the point, unless the point comes first or last. -/
def endingOf (name : String) : String :=
  let cs := name.toList.reverse
  let tail := cs.takeWhile (· != '.')
  match cs.drop tail.length with
  | '.' :: _ :: _ => if tail.isEmpty then "" else .ofList ('.' :: tail.reverse)
  | _ => ""

end Notation

/-- Why a text has no value. -/
inductive Unread where
  /-- The text does not keep the notation. -/
  | malformed
  /-- The text keeps the notation but stands for no value. -/
  | refused (reason : String)
  /-- The reader itself failed. -/
  | failed
  deriving DecidableEq, Repr

/-- A reader of the texts of files. -/
abbrev TextReader := Notation → String → Except Unread Value

/-- The reader of plain texts: YAML without tags, anchors and blocks of lines. -/
def TextReader.plain : TextReader := fun form text =>
  let value? := match form with
    | .json => Json.read text
    | .yaml => Yaml.read text
  value?.elim (.error .malformed) .ok

namespace Document

/-- Why a text is no document. -/
inductive ReadFault where
  | unread (form : Notation) (cause : Unread)
  /-- The text of a file holds something else than a mapping. -/
  | notMapping (file : String)
  | problems (ps : List Problem)
  deriving DecidableEq, Repr

/-- The wording of a file that holds no mapping. -/
def notMappingMessage (file : String) : String :=
  "Workflow document " ++ file ++ " must contain a mapping at the top level"

/-- Reads the text of a file. A file that holds nothing is the blank document. -/
def ofText (reader : TextReader) (form : Notation) (file text : String) : Except ReadFault Document :=
  let members : Except ReadFault Members := match reader form text with
    | .error cause => .error (.unread form cause)
    | .ok .null => .ok []
    | .ok (.record ms) => .ok ms
    | .ok _ => .error (.notMapping file)
  match members with
  | .error f => .error f
  | .ok ms =>
    match read (.record ms) with
    | .good d => .ok d
    | .bad ps => .error (.problems ps)

/-- The text of plain data that is stored. -/
def textOf : Notation → Value → String
  | .json, v => Json.write .indented v ++ "\n"
  | .yaml, .record ms => Yaml.write ms
  | .yaml, _ => ""

/-- The text of a file that holds the document. -/
def toText (d : Document) (form : Notation) : Except DumpFault String := do
  (← d.stored).dump (textOf form)

end Document

end FormFlow
