import FormFlow.Text.Case
/-!
The operators that a type of field offers.
-/

set_option autoImplicit false

namespace FormFlow

namespace Operator

/-- The operator of a fresh condition, which every type offers. -/
def equals : String := "="

/-- The operator that takes two values. -/
def between : String := "BETWEEN"

/-- The operators that take no value. -/
def nullChecks : List String := ["IS NULL", "IS NOT NULL"]

def texts : List String :=
  ["=", "!=", "LIKE", "NOT LIKE", "STARTS WITH", "ENDS WITH", "IS NULL", "IS NOT NULL"]

def ordered : List String :=
  ["=", "!=", ">", "<", ">=", "<=", "BETWEEN", "IS NULL", "IS NOT NULL"]

def picks : List String :=
  ["=", "!=", "IN", "NOT IN", "IS NULL", "IS NOT NULL"]

def plain : List String :=
  ["=", "!=", "IS NULL", "IS NOT NULL"]

/-- The operators by type, in lower case. -/
def table : List (String × List String) := [
  ("string", texts), ("email", texts), ("phone", texts), ("textarea", texts), ("url", texts),
  ("double", ordered), ("currency", ordered), ("percent", ordered),
  ("date", ordered), ("datetime", ordered), ("time", ordered),
  ("boolean", plain),
  ("picklist", picks), ("multipicklist", picks)]

/-- The operators of a type in any case; a type without a row offers the plain ones. -/
def forType (type : String) : List String :=
  (table.lookup (Text.lower type)).getD plain

end Operator

end FormFlow
