import MeetDesk.Value

/-!
# Problems of a form

What can be wrong with a value that is filled into a form, and where it stands. A problem has a code
for programs and a message for people.
-/

namespace MeetDesk

/-- What is wrong with a value. -/
inductive Problem where
  /-- A required field is absent. -/
  | missing
  /-- The value is no text. -/
  | notText
  /-- The text is empty, but must not be. -/
  | emptyText
  /-- The text is not made of characters only. -/
  | brokenText
  /-- The value is no integer. -/
  | notInteger
  /-- The text does not read as an integer. -/
  | unreadableInteger
  /-- The float has a fraction. -/
  | fractional
  /-- The integer is too large to be read. -/
  | oversizedInteger
  /-- The float is infinite or no number. -/
  | notFinite
  /-- The value is no number. -/
  | notNumber
  /-- The text does not read as a number. -/
  | unreadableNumber
  /-- The value is no truth value. -/
  | notBoolean
  /-- The value is of a kind that can stand for a truth value, but does not. -/
  | unreadableBoolean
  /-- The value is none of the choices. -/
  | notAmong (choices : List String)
  /-- The value is refused for a stated reason. -/
  | refused (reason : String)
  /-- The value is no list. -/
  | notList
  /-- The value is no object. -/
  | notObject
  /-- The value is no filled form of the given name. -/
  | notForm (name : String)
  /-- The value has no fields to fill a form from. -/
  | notFields
  deriving DecidableEq, Repr

namespace Problem

/-- The choices in quotes, with a comma between them and a word before the last one. -/
def enumerate : List String → String
  | [] => ""
  | [last] => "'" ++ last ++ "'"
  | [first, last] => "'" ++ first ++ "' or '" ++ last ++ "'"
  | first :: rest => "'" ++ first ++ "', " ++ enumerate rest

/-- The code of a problem. -/
def code : Problem → String
  | missing => "missing"
  | notText => "string_type"
  | emptyText => "string_too_short"
  | brokenText => "string_unicode"
  | notInteger => "int_type"
  | unreadableInteger => "int_parsing"
  | fractional => "int_from_float"
  | oversizedInteger => "int_parsing_size"
  | notFinite => "finite_number"
  | notNumber => "float_type"
  | unreadableNumber => "float_parsing"
  | notBoolean => "bool_type"
  | unreadableBoolean => "bool_parsing"
  | notAmong _ => "enum"
  | refused _ => "value_error"
  | notList => "list_type"
  | notObject => "dict_type"
  | notForm _ => "model_type"
  | notFields => "model_attributes_type"

/-- The message for a problem. -/
def message : Problem → String
  | missing => "Field required"
  | notText => "Input should be a valid string"
  | emptyText => "String should have at least 1 character"
  | brokenText => "Input should be a valid string, unable to parse raw data as a unicode string"
  | notInteger => "Input should be a valid integer"
  | unreadableInteger => "Input should be a valid integer, unable to parse string as an integer"
  | fractional => "Input should be a valid integer, got a number with a fractional part"
  | oversizedInteger => "Unable to parse input string as an integer, exceeded maximum size"
  | notFinite => "Input should be a finite number"
  | notNumber => "Input should be a valid number"
  | unreadableNumber => "Input should be a valid number, unable to parse string as a number"
  | notBoolean => "Input should be a valid boolean"
  | unreadableBoolean => "Input should be a valid boolean, unable to interpret input"
  | notAmong choices => "Input should be " ++ enumerate choices
  | refused reason => "Value error, " ++ reason
  | notList => "Input should be a valid list"
  | notObject => "Input should be a valid dictionary"
  | notForm name => "Input should be a valid dictionary or instance of " ++ name
  | notFields => "Input should be a valid dictionary or object to extract fields from"

end Problem

/-- One step of the path from a form to a value in it. -/
inductive Step where
  /-- To the field with this name. -/
  | field (name : String)
  /-- To the item at this place of a list. -/
  | item (index : Nat)
  deriving DecidableEq, Repr

/-- A problem, where it is, and the value that has it. -/
structure Issue where
  /-- The problem. -/
  problem : Problem
  /-- The path to the value; for an absent field the path on which it is missed. -/
  path : List Step
  /-- The value; for an absent field the object that lacks it. -/
  offender : Value

/-- The issue as seen from one step further out. -/
def Issue.under (step : Step) (issue : Issue) : Issue := { issue with path := step :: issue.path }

end MeetDesk
