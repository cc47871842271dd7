import WorkspaceAudit.Text.Decimal

/-!
# Problems of values

What is wrong with a value that does not have the shape it should have, and where in the value.
-/

namespace WorkspaceAudit

/-- A step into a value. -/
inductive Step where
  | field (name : String)
  | index (i : Nat)
  deriving Repr, DecidableEq

/-- What is wrong. -/
inductive Cause where
  | missing
  | notText
  | notSeverity
  | notScanner
  | notGrade
  | notLevel
  | notInteger
  | unreadableInteger
  | fractionalInteger
  | infiniteInteger
  | hugeInteger
  | tooSmall (least : Int)
  | tooGreat (greatest : Int)
  | notList
  | notObject
  | lineWithoutFile
  | frozen
  | notJson
  | notMoment
  | unreadableMoment
  | momentOutOfRange
  deriving Repr, DecidableEq

namespace Cause

/-- The short name of a cause. -/
def code : Cause → String
  | .missing => "missing"
  | .notText => "string_type"
  | .notSeverity => "enum"
  | .notScanner => "enum"
  | .notGrade => "literal_error"
  | .notLevel => "literal_error"
  | .notInteger => "int_type"
  | .unreadableInteger => "int_parsing"
  | .fractionalInteger => "int_from_float"
  | .infiniteInteger => "finite_number"
  | .hugeInteger => "int_parsing_size"
  | .tooSmall _ => "greater_than_equal"
  | .tooGreat _ => "less_than_equal"
  | .notList => "list_type"
  | .notObject => "model_type"
  | .lineWithoutFile => "value_error"
  | .frozen => "frozen_instance"
  | .notJson => "json_invalid"
  | .notMoment => "datetime_type"
  | .unreadableMoment => "datetime_from_date_parsing"
  | .momentOutOfRange => "datetime_parsing"

/-- The wording of a cause, where it is fixed. -/
def message? : Cause → Option String
  | .missing => "Field required"
  | .notText => "Input should be a valid string"
  | .notSeverity => "Input should be 'CRITICAL', 'HIGH', 'MEDIUM', 'LOW' or 'INFO'"
  | .notScanner => "Input should be 'secrets', 'deps', 'patterns', 'auth' or 'threat-model'"
  | .notGrade => "Input should be 'A', 'B', 'C', 'D' or 'F'"
  | .notLevel => "Input should be 'CRITICAL' or 'HIGH'"
  | .notInteger => "Input should be a valid integer"
  | .unreadableInteger =>
    "Input should be a valid integer, unable to parse string as an integer"
  | .fractionalInteger =>
    "Input should be a valid integer, got a number with a fractional part"
  | .infiniteInteger => "Input should be a finite number"
  | .hugeInteger => "Unable to parse input string as an integer, exceeded maximum size"
  | .tooSmall least => "Input should be greater than or equal to " ++ Text.Decimal.ofInt least
  | .tooGreat greatest => "Input should be less than or equal to " ++ Text.Decimal.ofInt greatest
  | .notList => "Input should be a valid array"
  | .notObject => "Input should be an object"
  | .lineWithoutFile => "Value error, a finding without a file cannot carry a line number"
  | .frozen => "Instance is frozen"
  | .notJson => none
  | .notMoment => none
  | .unreadableMoment => none
  | .momentOutOfRange => none

end Cause

/-- A cause and the place in the value where it stands. -/
structure Problem where
  place : List Step
  cause : Cause
  deriving Repr, DecidableEq

/-- The problem of a value as seen from the value around it. -/
def Problem.under (step : Step) (p : Problem) : Problem :=
  { p with place := step :: p.place }

end WorkspaceAudit
