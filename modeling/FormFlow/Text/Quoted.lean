import FormFlow.Text.Digits
import FormFlow.Text.Printable
/-!
Quoted text, as messages show a value that was refused.

The quote is single, and double only where the text holds a single quote and no double one. The backslash, the quote
in use, line breaks and tabs are escaped by name, other characters that cannot be printed by their number in
hexadecimal digits.
-/

set_option autoImplicit false

namespace FormFlow.Text

/-- The quote that needs the fewest escapes; the single one if both do. -/
def quoteFor (cs : List Char) : Char :=
  if cs.contains '\'' && !cs.contains '"' then '"' else '\''

/-- The number of a character in hexadecimal digits, as an escape. -/
def escapeNumber (c : Char) : List Char :=
  if c.toNat < 0x100 then ['\\', 'x'] ++ hexDigits 2 c.toNat
  else if c.toNat < 0x10000 then ['\\', 'u'] ++ hexDigits 4 c.toNat
  else ['\\', 'U'] ++ hexDigits 8 c.toNat

/-- One character inside quotes. -/
def escapeQuoted (quote c : Char) : List Char :=
  if c == quote || c == '\\' then ['\\', c]
  else if c == '\n' then ['\\', 'n']
  else if c == '\r' then ['\\', 'r']
  else if c == '\t' then ['\\', 't']
  else if isPrintable c then [c]
  else escapeNumber c

/-- The text in quotes. -/
def quoted (s : String) : String :=
  let quote := quoteFor s.toList
  .ofList (quote :: s.toList.flatMap (escapeQuoted quote) ++ [quote])

end FormFlow.Text
