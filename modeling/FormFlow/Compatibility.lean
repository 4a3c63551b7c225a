import FormFlow.Fields
import FormFlow.Text.Case
/-!
Which inputs of a form may feed which fields of the record store, and which formatter operations take which inputs.
-/

set_option autoImplicit false

namespace FormFlow

/-- A family of formatter operations. -/
inductive Category where
  | date
  | number
  | text
  deriving DecidableEq, Repr

namespace Category

def all : List Category := [date, number, text]

def code : Category → String
  | date => "date"
  | number => "number"
  | text => "text"

/-- The category of a name. -/
def ofCode? (s : String) : Option Category :=
  all.find? fun c => c.code == s

end Category

namespace Compatibility

/-- The inputs that may feed a text field. -/
def textSources : List String :=
  ["shorttext", "fullname", "section", "address", "longtext", "number", "price", "date", "datetime", "time", "email",
    "phone", "dropdown", "checkbox", "radio", "picklist"]

/-- The inputs that may feed a picklist. -/
def pickSources : List String := ["dropdown", "checkbox", "radio", "picklist"]

/-- The types of input that may feed a type of field. -/
def sources : List (String × List String) := [
  ("string", textSources),
  ("double", ["number", "price"]),
  ("currency", ["price", "number"]),
  ("boolean", ["checkbox"]),
  ("date", ["date"]),
  ("datetime", ["datetime"]),
  ("email", ["email"]),
  ("phone", ["phone"]),
  ("picklist", pickSources),
  ("multipicklist", pickSources),
  ("textarea", ["shorttext", "longtext", "fullname", "section", "address"]),
  ("url", ["shorttext"]),
  ("percent", ["number"]),
  ("time", ["time"])]

/-- The types of field that take one of several declared values. -/
def picklistTypes : List String := ["picklist", "multipicklist"]

/-- The inputs that fit a picklist only if they offer a real choice. -/
def choiceSources : List String := ["checkbox", "radio"]

/-- Whether the type of a field, in any case, is a picklist. -/
def isPicklist (type : String) : Bool :=
  picklistTypes.contains (Text.lower type)

/-- Whether an input of the form may feed a field. A type of field without a row takes what a text field takes. -/
def mayFeed (target : FieldInfo) (source : FormField) : Bool :=
  let accepted := (sources.lookup (Text.lower target.type)).getD textSources
  if !accepted.contains source.type then false
  else if isPicklist target.type && choiceSources.contains source.type then source.options.length > 1
  else true

end Compatibility

namespace Operation

/-- The inputs that text operations take. -/
def textInputs : List String := ["shorttext", "longtext", "address", "fullname", "email"]

/-- The operations of a category and the types of input that each takes. -/
def table : Category → List (String × List String)
  | .date => [
    ("format_date", ["date", "datetime"]),
    ("format_time", ["time", "datetime"]),
    ("format_datetime", ["datetime"]),
    ("timezone_conversion", ["time", "datetime"]),
    ("add_date", ["date", "datetime"]),
    ("subtract_date", ["date", "datetime"]),
    ("date_difference", ["date", "datetime"])]
  | .number => [
    ("locale_format", ["number", "price"]),
    ("currency_format", ["price", "number"]),
    ("round_number", ["number", "price"]),
    ("phone_format", ["phone"]),
    ("math_operation", ["number", "price"])]
  | .text => [
    ("uppercase", textInputs),
    ("lowercase", textInputs),
    ("title_case", textInputs),
    ("trim_whitespace", textInputs),
    ("replace", textInputs),
    ("extract_email", textInputs),
    ("split", textInputs),
    ("word_count", textInputs),
    ("url_encode", textInputs)]

/-- The types of input that an operation takes, if it is one of the category. -/
def inputTypes? (category : Category) (operation : String) : Option (List String) :=
  (table category).lookup operation

/-- The options that operations cannot do without. -/
def optionTable : List (String × List String) := [
  ("format_date", ["format"]),
  ("format_time", ["format", "timezone"]),
  ("format_datetime", ["format", "timezone"]),
  ("timezone_conversion", ["timezone", "target_timezone"]),
  ("add_date", ["unit", "value"]),
  ("subtract_date", ["unit", "value"]),
  ("locale_format", ["locale"]),
  ("currency_format", ["currency", "locale"]),
  ("round_number", ["decimals"]),
  ("phone_format", ["country_code", "format"]),
  ("math_operation", ["operator"]),
  ("replace", ["search_value", "replace_value"]),
  ("split", ["delimiter", "index"])]

/-- The options that an operation cannot do without. -/
def requiredOptions (operation : String) : List String :=
  (optionTable.lookup operation).getD []

/-- The options for which the empty text means something. -/
def mayBeEmpty (option : String) : Bool :=
  option == "replace_value"

/-- Whether an operation takes a second input. -/
def takesTwo (operation : String) : Bool :=
  operation == "date_difference" || operation == "math_operation"

end Operation

end FormFlow
