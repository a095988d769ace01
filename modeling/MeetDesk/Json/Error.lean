/-!
# Errors of the JSON reader

A document can be malformed, or it can be beyond a limit of the reader. The two are kept apart:
whoever looks for JSON inside other text passes over what is malformed, but not over a limit.

A malformed document is reported with what was left to read at the fault, which gives the offset of
the fault in the document without a running count.
-/

namespace MeetDesk.Json

/-- What is wrong with a malformed document. -/
inductive Flaw where
  /-- No value starts here. -/
  | valueExpected
  /-- No name of a field starts here. -/
  | nameExpected
  /-- The name of a field is not followed by a colon. -/
  | colonExpected
  /-- A value inside a list or an object is followed neither by a comma nor by the end. -/
  | commaExpected
  /-- A string does not end. -/
  | unterminatedString
  /-- A string holds a bare control character. -/
  | bareControl
  /-- A backslash is followed by a character that has no escape. -/
  | unknownEscape
  /-- An escape by number does not have four hexadecimal digits and something after them. -/
  | badUnit
  /-- Something follows the document. -/
  | extraData
  /-- The document starts with a byte order mark. -/
  | byteOrderMark
  deriving DecidableEq, Repr

/-- The message for a flaw. -/
def Flaw.message : Flaw → String
  | valueExpected => "Expecting value"
  | nameExpected => "Expecting property name enclosed in double quotes"
  | colonExpected => "Expecting ':' delimiter"
  | commaExpected => "Expecting ',' delimiter"
  | unterminatedString => "Unterminated string starting at"
  | bareControl => "Invalid control character at"
  | unknownEscape => "Invalid \\escape"
  | badUnit => "Invalid \\uXXXX escape"
  | extraData => "Extra data"
  | byteOrderMark => "Unexpected UTF-8 BOM (decode using utf-8-sig)"

/-- A limit of the reader that a document exceeds. -/
inductive Limit where
  /-- Lists and objects are nested deeper than there are levels for. -/
  | depth
  /-- An integer has too many digits. -/
  | digits (count : Nat)
  deriving DecidableEq, Repr

/-- The most digits of an integer that are read. -/
def maxDigits : Nat := 4300

/-- The message for a limit. -/
def Limit.message : Limit → String
  | depth => ""
  | digits count =>
    "Exceeds the limit (" ++ toString maxDigits ++
      " digits) for integer string conversion: value has " ++ toString count ++
      " digits; use sys.set_int_max_str_digits() to increase the limit"

/-- Why a document is not read. -/
inductive Error where
  /-- The document is malformed; `rest` is what was left at the fault. -/
  | malformed (flaw : Flaw) (rest : List Char)
  /-- The document exceeds a limit. -/
  | beyond (limit : Limit)
  deriving DecidableEq, Repr

/-- Passes over what is malformed; a limit remains an error. -/
def tolerate {α : Type} : Except Error α → Except Limit (Option α)
  | .ok a => .ok (some a)
  | .error (.malformed _ _) => .ok none
  | .error (.beyond limit) => .error limit

end MeetDesk.Json
