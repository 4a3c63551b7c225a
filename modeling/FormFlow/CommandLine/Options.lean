import FormFlow.Text.Pieces
/-!
Options among the arguments of a command.

An option has a long name after two dashes and may have a short one, a letter after one dash. The value of an option
follows it as the next argument, after an equals sign, or right after its letter. Letters of several options may share
one dash. Two dashes alone end the options.
-/

set_option autoImplicit false

namespace FormFlow

/-- An option that a command knows: its names, the long one first, and whether it takes a value. -/
structure OptionRule where
  long : String
  short : Option Char
  takesValue : Bool
  deriving DecidableEq, Repr

/-- An option that was given, by its long name, and its value if it takes one. -/
structure GivenOption where
  long : String
  value : Option String
  deriving DecidableEq, Repr

/-- The arguments of a command: its options, and the words that are none. -/
structure SortedArguments where
  options : List GivenOption
  words : List String
  deriving DecidableEq, Repr

namespace OptionRule

/-- The options of one argument, and the option that still awaits its value. -/
abbrev Part := List GivenOption × Option String

/-- The options of letters after a dash. -/
def letters (rules : List OptionRule) : List Char → Option Part
  | [] => some ([], none)
  | c :: rest =>
    match rules.find? fun r => r.short == some c with
    | none => none
    | some r =>
      if !r.takesValue then (letters rules rest).map fun (os, awaited) => (⟨r.long, none⟩ :: os, awaited)
      else if rest.isEmpty then some ([], some r.long)
      else some ([⟨r.long, some (.ofList rest)⟩], none)

/-- The options of an argument that begins with a dash. -/
def argument (rules : List OptionRule) (a : String) : Option Part :=
  let (name, value) := Text.cut (· == '=') a.toList
  match rules.find? fun r => r.long == String.ofList name with
  | some r =>
    match value with
    | some v => if r.takesValue then some ([⟨r.long, some (.ofList v)⟩], none) else none
    | none => if r.takesValue then some ([], some r.long) else some ([⟨r.long, none⟩], none)
  | none => if a.toList.take 2 == ['-', '-'] then none else letters rules (a.toList.drop 1)

/-- Whether an argument gives options. -/
def isOption (a : String) : Bool := a.toList.head? == some '-' && 1 < a.length

/-- Sorts arguments. Unless options and words are mixed, the first word ends the options. -/
def sort (rules : List OptionRule) (isMixed : Bool) : List String → Option SortedArguments
  | [] => some ⟨[], []⟩
  | a :: rest =>
    if a = "--" then some ⟨[], rest⟩
    else if isOption a then
      match argument rules a, rest with
      | none, _ => none
      | some (os, none), rest => (sort rules isMixed rest).map fun s => { s with options := os ++ s.options }
      | some (os, some name), v :: rest =>
        (sort rules isMixed rest).map fun s => { s with options := os ++ ⟨name, some v⟩ :: s.options }
      | some (_, some _), [] => none
    else if isMixed then (sort rules isMixed rest).map fun s => { s with words := a :: s.words }
    else some ⟨[], a :: rest⟩

end OptionRule

namespace SortedArguments

/-- Whether an option was given. -/
def has (s : SortedArguments) (long : String) : Bool := s.options.any fun o => o.long == long

/-- The value of an option; the last one counts. -/
def value? (s : SortedArguments) (long : String) : Option String :=
  (s.options.reverse.find? fun o => o.long == long).bind (·.value)

end SortedArguments

end FormFlow
