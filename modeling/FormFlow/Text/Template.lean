/-!
Placeholders in text: `$` and, in braces, a name, or a name and a default after `:-`.

A text is filled in one pass from left to right. What is put in place of a placeholder is not looked at again.
-/

set_option autoImplicit false

namespace FormFlow.Text

/-- A placeholder. -/
structure Placeholder where
  name : List Char
  default : Option (List Char)
  deriving DecidableEq, Repr

namespace Placeholder

/-- The characters of the placeholder after its `$`. -/
def toList (p : Placeholder) : List Char :=
  '\x7b' :: p.name ++
    (match p.default with
      | some d => ':' :: '-' :: d
      | none => []) ++ ['\x7d']

/-- The placeholder that characters after a `$` begin with. A default reaches up to the first closing brace. -/
def of? : List Char → Option Placeholder
  | '\x7b' :: rest =>
    let name := rest.takeWhile fun c => c != ':' && c != '\x7d'
    match rest.drop name.length with
    | '\x7d' :: _ => some ⟨name, none⟩
    | ':' :: '-' :: more =>
      let default := more.takeWhile (· != '\x7d')
      if default.length < more.length then some ⟨name, some default⟩ else none
    | _ => none
  | _ => none

end Placeholder

/-- The characters with every placeholder replaced that has a value; `skip` of them are passed over first. -/
def fillFrom (value : Placeholder → Option (List Char)) : (skip : Nat) → List Char → List Char
  | _, [] => []
  | skip + 1, _ :: rest => fillFrom value skip rest
  | 0, c :: rest =>
    let found := if c = '$' then (Placeholder.of? rest).bind fun p => (value p).map fun v => (p, v) else none
    match found with
    | some (p, v) => v ++ fillFrom value p.toList.length rest
    | none => c :: fillFrom value 0 rest

/-- A text with every placeholder replaced that has a value. -/
def fill (value : Placeholder → Option (List Char)) (s : String) : String :=
  .ofList (fillFrom value 0 s.toList)

end FormFlow.Text
