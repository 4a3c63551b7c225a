import FormFlow.Settings.Basic
import FormFlow.Settings.Literal
import FormFlow.Text.Case
import FormFlow.Text.Pieces
import FormFlow.Text.Template
import FormFlow.Yaml.Node
/-!
Where settings come from: a file, and variables of the environment, which win over it.

A loader finds out what both of them set. In the plain one the name of a variable is the path to a setting, and what
the file and the variables set is laid over each other name by name. Whatever was loaded, names are not told apart by
case, the placeholders in texts are filled from the environment, and then the settings are read.
-/

set_option autoImplicit false

namespace FormFlow

/-- The variables of the environment. -/
abbrev Environment := List (String × String)

namespace Environment

/-- The letters that the name of a placeholder may begin with, and those that may follow. -/
def isFirst (c : Char) : Bool := ('A' ≤ c && c ≤ 'Z') || c == '_'
def isLater (c : Char) : Bool := isFirst c || c.isDigit

/-- Whether characters are the name of a variable. -/
def isName : List Char → Bool
  | c :: rest => isFirst c && rest.all isLater
  | [] => false

/-- What stands in place of a placeholder: the variable, or else the default. Without either it stays. -/
def fillValue (env : Environment) (p : Text.Placeholder) : Option (List Char) :=
  if isName p.name then ((env.lookup (.ofList p.name)).map (·.toList)) <|> p.default else none

/-- A text with its placeholders filled. -/
def fill (env : Environment) (s : String) : String := Text.fill env.fillValue s

mutual
/-- A value with the placeholders in its texts filled. Names are left alone. -/
def fillIn (env : Environment) : Value → Value
  | .text s => .text (env.fill s)
  | .list vs => .list (fillItems env vs)
  | .record ms => .record (fillMembers env ms)
  | .null => .null
  | .bool b => .bool b
  | .int n => .int n
  | .float x => .float x

/-- The items of a list with their placeholders filled. -/
def fillItems (env : Environment) : List Value → List Value
  | [] => []
  | v :: rest => fillIn env v :: fillItems env rest

/-- The members of a record with their placeholders filled. -/
def fillMembers (env : Environment) : Members → Members
  | [] => []
  | (k, v) :: rest => (k, fillIn env v) :: fillMembers env rest
end

end Environment

namespace Settings

mutual
/-- A value with the names of its records in lower case. Records inside lists keep theirs. -/
def lowerNames : Value → Value
  | .record ms => .record (Members.ofPairs (lowerMembers ms))
  | .list vs => .list vs
  | .null => .null
  | .bool b => .bool b
  | .int n => .int n
  | .float x => .float x
  | .text s => .text s

/-- Members with their names in lower case; two of them may have the same name then. -/
def lowerMembers : Members → Members
  | [] => []
  | (k, v) :: rest => (Text.lower k, lowerNames v) :: lowerMembers rest
end

/-- The members with their names in lower case; of those with the same name the last counts. -/
def withLowerNames (ms : Members) : Members := Members.ofPairs (lowerMembers ms)

/-- What the name of every variable that sets something begins with. -/
def variableStart : List Char := "MAPFLOW_".toList

/-- The parts of a name between two underscores each. -/
def nameParts (part : List Char) : List Char → List (List Char)
  | '_' :: '_' :: rest => part.reverse :: nameParts [] rest
  | c :: rest => nameParts (c :: part) rest
  | [] => [part.reverse]

/-- The path that the name of a variable is. -/
def pathOf? (name : String) : Option (List String) :=
  let cs := name.toList
  if variableStart.isPrefixOf cs then
    some ((nameParts [] (cs.drop variableStart.length)).map fun p => Text.lower (.ofList p))
  else none

mutual
/-- A value over an older one: a record over a record keeps what only the older one has, after its own. -/
def laidOver : (new old : Value) → Value
  | .record new, .record old =>
    .record (membersOver old new ++ old.filter fun (name, _) => (Members.get? new name).isNone)
  | v, _ => v

/-- Members, each over the older one of the same name. -/
def membersOver (old : Members) : Members → Members
  | [] => []
  | (name, v) :: rest =>
    (name, match Members.get? old name with
      | some o => laidOver v o
      | none => v) :: membersOver old rest
end

/-- A value at a path below a name. -/
def below (v : Value) : List String → Value
  | [] => v
  | name :: rest => .record [(name, below v rest)]

/-- Members with a variable laid over them, if it sets something. -/
def setBy (ms : Members) (name text : String) : Members :=
  match pathOf? name with
  | some (first :: rest) =>
    let v := below (lowerNames (Literal.ofText text)) rest
    Members.put ms first (laidOver v ((Members.get? ms first).getD .null))
  | _ => ms

/-- Members with the variables laid over them, one after the other. -/
def overlay (env : Environment) (ms : Members) : Members :=
  env.foldl (fun acc (name, text) => setBy acc name text) ms

/-- The name of the variable that holds a token; it sets nothing. -/
def tokenName : String := "token"

/-- Why nothing can be loaded. -/
inductive LoaderFault where
  /-- The text of the file does not keep its notation. -/
  | malformed
  /-- The file holds something else than a mapping. -/
  | notMapping
  /-- The loader itself failed. -/
  | failed
  deriving DecidableEq, Repr

/-- A loader: what the text of a file, if there is a file, and the environment set. -/
abbrev Loader := Option String → Environment → Except LoaderFault Members

/-- The members that the text of a file sets; a file that holds nothing sets nothing. -/
def fileMembers (text : String) : Except LoaderFault Members :=
  match Yaml.Dialect.core.read text with
  | none => .error .malformed
  | some (.record ms) => .ok ms
  | some v => if v.isGiven then .error .notMapping else .ok []

/-- The loader of plain files: YAML without tags, anchors and blocks of lines, whose texts stand for themselves. -/
def Loader.plain : Loader := fun file env =>
  (file.elim (.ok []) fileMembers).map fun ms => overlay env (withLowerNames ms)

/-- What is set, with names in lower case and placeholders filled. -/
def gather (loaded : Members) (env : Environment) : Members :=
  env.fillMembers (Members.without (withLowerNames loaded) tokenName)

/-- Why there are no settings. -/
inductive LoadFault where
  | missing (file : String)
  | unloaded (cause : LoaderFault)
  | problems (ps : List Problem)
  deriving DecidableEq, Repr

/-- The wording of a file that is not there. -/
def missingMessage (file : String) : String := "Config file not found: " ++ file

/-- The settings of a file's text, if there is a file, and of the environment. -/
def load (loader : Loader) (file : Option String) (env : Environment) : Except LoadFault Settings :=
  match loader file env with
  | .error cause => .error (.unloaded cause)
  | .ok loaded =>
    match read (.record (gather loaded env)) with
    | .good s => .ok s
    | .bad ps => .error (.problems ps)

end Settings

end FormFlow
