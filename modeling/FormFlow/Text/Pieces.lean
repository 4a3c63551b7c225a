/-!
Cutting text: at the first character of a class, at every separator, and into lines.
-/

set_option autoImplicit false

namespace FormFlow.Text

/-- The parts before and after the first character of a class, which is dropped. -/
def cut (p : Char → Bool) (cs : List Char) : List Char × Option (List Char) :=
  match cs.dropWhile fun c => !p c with
  | [] => (cs, none)
  | _ :: rest => (cs.takeWhile fun c => !p c, some rest)

/-- The pieces between separators; there is always one more piece than separators. -/
def pieces (separator : Char) : List Char → List (List Char)
  | [] => [[]]
  | c :: rest =>
    if c = separator then [] :: pieces separator rest
    else
      match pieces separator rest with
      | [] => [[c]]
      | p :: ps => (c :: p) :: ps

/-- The text with every line break written as a line feed. -/
def oneBreak : List Char → List Char
  | [] => []
  | '\r' :: '\n' :: rest => '\n' :: oneBreak rest
  | '\r' :: rest => '\n' :: oneBreak rest
  | c :: rest => c :: oneBreak rest

end FormFlow.Text
