/-!
Blank characters and trimming.

Two sets of characters count as blank. `isWhiteSpace` is the White_Space property. `isBlank` adds the four
information separators U+001C to U+001F, and is the set that decides whether an answer was left empty.
Neither holds the zero width space U+200B.
-/

set_option autoImplicit false

namespace FormFlow.Text

/-- The characters with the property White_Space. -/
def isWhiteSpace (c : Char) : Bool :=
  let n := c.toNat
  (9 ≤ n && n ≤ 13) || n == 0x20 || n == 0x85 || n == 0xA0 || n == 0x1680 ||
    (0x2000 ≤ n && n ≤ 0x200A) || n == 0x2028 || n == 0x2029 || n == 0x202F || n == 0x205F || n == 0x3000

/-- White space, or one of the four information separators. -/
def isBlank (c : Char) : Bool :=
  isWhiteSpace c || (0x1C ≤ c.toNat && c.toNat ≤ 0x1F)

/-- The characters without those of the class `p` at either end. -/
def trimBy (p : Char → Bool) (cs : List Char) : List Char :=
  ((cs.dropWhile p).reverse.dropWhile p).reverse

/-- The text without blank characters at either end. -/
def strip (s : String) : String :=
  .ofList (trimBy isBlank s.toList)

/-- The text without the characters of the class `p` at its end. -/
def stripEnd (p : Char → Bool) (s : String) : String :=
  .ofList (s.toList.reverse.dropWhile p).reverse

/-- A text that holds blank characters only; the empty text is one. -/
def isBlankText (s : String) : Bool :=
  s.toList.all isBlank

/-- An optional text that is there and not empty. -/
def filled? (s : Option String) : Option String := s.filter (· ≠ "")

end FormFlow.Text
