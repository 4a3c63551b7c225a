import FormFlow.Value.Basic
import FormFlow.Text.Quoted
import FormFlow.Decimal.Notation
/-!
Values as messages speak of them. Text inside a list or record is quoted, text on its own is bare.
-/

set_option autoImplicit false

namespace FormFlow.Value

/-- The word for a truth value, and for no value. -/
def boolWord (b : Bool) : String := if b then "True" else "False"

/-- The word for no value. -/
def nullWord : String := "None"

mutual
/-- The value with its texts in quotes. -/
def shown : Value → String
  | .null => nullWord
  | .bool b => boolWord b
  | .int n => toString n
  | .float x => Decimal.write x
  | .text s => Text.quoted s
  | .list items => "[" ++ shownItems items ++ "]"
  | .record members => "\x7b" ++ shownMembers members ++ "\x7d"

/-- The items between commas. -/
def shownItems : List Value → String
  | [] => ""
  | [v] => v.shown
  | v :: rest => v.shown ++ ", " ++ shownItems rest

/-- The members between commas. -/
def shownMembers : Members → String
  | [] => ""
  | [(k, v)] => Text.quoted k ++ ": " ++ v.shown
  | (k, v) :: rest => Text.quoted k ++ ": " ++ v.shown ++ ", " ++ shownMembers rest
end

/-- The value in running text. -/
def spoken : Value → String
  | .text s => s
  | v => v.shown

end FormFlow.Value
