import FormFlow.Settings.Sources
/-!
Files of variables: one variable on each line, its name and value with an equals sign between them.

A value may stand in quotes; it may then go on over lines and hold escapes. A remark follows a sharp sign. Placeholders
in values are filled from the environment and from the variables before them. Variables that the environment has
already keep their values.
-/

set_option autoImplicit false

namespace FormFlow.Variables

/-- A line break. -/
def isBreak (c : Char) : Bool := c == '\n' || c == '\r'

/-- A blank inside a line. -/
def isGap (c : Char) : Bool := Text.isBlank c && !isBreak c

/-- What is left after the line. -/
def afterLine (cs : List Char) : List Char :=
  match cs.dropWhile fun c => !isBreak c with
  | '\r' :: '\n' :: rest => rest
  | _ :: rest => rest
  | [] => []

/-- Whether nothing but a remark is left of the line. -/
def endsLine (cs : List Char) : Bool :=
  match cs.dropWhile isGap with
  | [] => true
  | c :: _ => isBreak c || c == '#'

/-- The characters of a value without quotes up to a remark; `afterGap` tells whether a blank comes before them. -/
def withoutRemark (afterGap : Bool) : List Char → List Char
  | [] => []
  | c :: rest => if c == '#' && afterGap then [] else c :: withoutRemark (Text.isBlank c) rest

/-- The characters that stand for others after a backslash in double quotes. -/
def escapes : List (Char × Char) := [
  ('\\', '\\'), ('\'', '\''), ('"', '"'), ('a', '\x07'), ('b', '\x08'), ('f', '\x0c'), ('n', '\n'), ('r', '\r'),
  ('t', '\t'), ('v', '\x0b')]

/-- The escapes of a quote: single quotes know those of the backslash and of themselves only. -/
def escapesOf (quote : Char) : List (Char × Char) :=
  if quote = '"' then escapes else escapes.filter fun (c, _) => c == '\\' || c == '\''

/-- The characters between quotes as they are written, and those after the closing quote. A backslash in front of a
quote keeps it from closing, if another one follows that closes. -/
def quotedSpan (quote : Char) : List Char → Option (List Char × List Char)
  | [] => none
  | '\\' :: c :: rest =>
    if c = quote then
      match quotedSpan quote rest with
      | some (cs, rest) => some ('\\' :: c :: cs, rest)
      | none => some (['\\'], rest)
    else (quotedSpan quote (c :: rest)).map fun (cs, rest) => ('\\' :: cs, rest)
  | c :: rest =>
    if c = quote then some ([], rest) else (quotedSpan quote rest).map fun (cs, rest) => (c :: cs, rest)

/-- The characters with their escapes replaced. -/
def unescape (quote : Char) : List Char → List Char
  | '\\' :: c :: rest =>
    match (escapesOf quote).lookup c with
    | some d => d :: unescape quote rest
    | none => '\\' :: unescape quote (c :: rest)
  | c :: rest => c :: unescape quote rest
  | [] => []

/-- The value that begins here, and the characters after it. -/
def value (cs : List Char) : Option (List Char × List Char) :=
  match cs with
  | '\'' :: rest => (quotedSpan '\'' rest).map fun (v, rest) => (unescape '\'' v, rest)
  | '"' :: rest => (quotedSpan '"' rest).map fun (v, rest) => (unescape '"' v, rest)
  | _ =>
    let line := cs.takeWhile fun c => !isBreak c
    some ((Text.stripEnd Text.isBlank (.ofList (withoutRemark false line))).toList, cs.drop line.length)

/-- A character of a name without quotes. -/
def isNameChar (c : Char) : Bool := !Text.isBlank c && c != '=' && c != '#'

/-- The word that may come before a name. -/
def withoutExport (cs : List Char) : List Char :=
  let word := "export".toList
  if word.isPrefixOf cs && ((cs.drop word.length).head?.map isGap).getD false then
    (cs.drop word.length).dropWhile isGap
  else cs

/-- The name that begins here, and the characters after it. -/
def name (cs : List Char) : Option (List Char × List Char) :=
  match cs with
  | '\'' :: rest =>
    let n := rest.takeWhile (· != '\'')
    if n.isEmpty || n.length == rest.length then none else some (n, rest.drop (n.length + 1))
  | _ =>
    let n := cs.takeWhile isNameChar
    if n.isEmpty then none else some (n, cs.drop n.length)

/-- The variable that begins here, if a name with a value does, and the characters after its line. -/
def binding (cs : List Char) : Option (String × List Char) × List Char :=
  match name (withoutExport cs) with
  | none => (none, afterLine cs)
  | some (n, rest) =>
    match rest.dropWhile isGap with
    | '=' :: rest =>
      match value (rest.dropWhile isGap) with
      | some (v, rest) => (if endsLine rest then some (.ofList n, v) else none, afterLine rest)
      | none => (none, afterLine rest)
    | rest => (none, afterLine rest)

/-- The variables of a text; each one takes one of `fuel`. -/
def bindings (fuel : Nat) (cs : List Char) : List (String × List Char) :=
  match fuel, cs.dropWhile Text.isBlank with
  | _, [] | 0, _ => []
  | fuel + 1, cs =>
    let (found, rest) := binding cs
    found.toList ++ bindings fuel rest

/-- What stands in place of a placeholder in a value. -/
def fillValue (env : Environment) (p : Text.Placeholder) : Option (List Char) :=
  some ((((env.lookup (.ofList p.name)).map (·.toList)) <|> p.default).getD [])

/-- The variables with their values filled. A placeholder stands for a variable of the environment, or else for the
last one of its name before it. -/
def filled (env : Environment) : (done : Environment) → List (String × List Char) → Environment
  | done, [] => done
  | done, (n, v) :: rest =>
    filled env (Members.put done n (Text.fill (fillValue (env ++ done)) (.ofList v))) rest

/-- The environment with the variables of a file's text that it does not have. -/
def addTo (env : Environment) (text : String) : Environment :=
  let found := filled env [] (bindings text.length text.toList)
  env ++ found.filter fun (n, _) => (env.lookup n).isNone

end FormFlow.Variables
