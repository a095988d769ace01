import MeetDesk.Text.Blank
import MeetDesk.Text.Case

/-!
# Operators and directions

The closed sets of comparison operators and of sort directions. Both are read without regard to
case; an operator also without regard to how many blanks stand around and between its words.
-/

namespace MeetDesk

/-- How a clause compares its column. -/
inductive Operator where
  | equal | notEqual | greater | less | greaterOrEqual | lessOrEqual
  | matchesPattern | matchesNoPattern | isNull | isNotNull
  deriving DecidableEq, Repr

namespace Operator

/-- The operators in the order in which they are listed for a reader. -/
def all : List Operator :=
  [equal, notEqual, greater, less, greaterOrEqual, lessOrEqual, matchesPattern, matchesNoPattern,
   isNull, isNotNull]

/-- The identifier of an operator. -/
def identifier : Operator → String
  | equal => "EQ"
  | notEqual => "NE"
  | greater => "GT"
  | less => "LT"
  | greaterOrEqual => "GE"
  | lessOrEqual => "LE"
  | matchesPattern => "ILIKE"
  | matchesNoPattern => "NOT_ILIKE"
  | isNull => "IS_NULL"
  | isNotNull => "IS_NOT_NULL"

/-- The operator as it is written in a query. -/
def symbol : Operator → String
  | equal => "="
  | notEqual => "!="
  | greater => ">"
  | less => "<"
  | greaterOrEqual => ">="
  | lessOrEqual => "<="
  | matchesPattern => "ILIKE"
  | matchesNoPattern => "NOT ILIKE"
  | isNull => "IS NULL"
  | isNotNull => "IS NOT NULL"

/-- Whether the operator compares with a value. -/
def takesValue : Operator → Bool
  | isNull | isNotNull => false
  | _ => true

/-- Whether the value is looked for inside the cell. -/
def isPattern : Operator → Bool
  | matchesPattern | matchesNoPattern => true
  | _ => false

/-- The spelling that is compared with the symbols: upper case, one space between words. -/
def normalize (s : String) : String :=
  String.intercalate " " ((Text.words (Text.upper s.toList)).map String.ofList)

/-- Reads an operator. -/
def read? (s : String) : Option Operator := all.find? fun o => o.symbol == normalize s

theorem mem_all (o : Operator) : o ∈ all := by cases o <;> decide

end Operator

/-- The direction of a sort. -/
inductive Direction where
  | ascending | descending
  deriving DecidableEq, Repr

namespace Direction

/-- The directions in the order in which they are listed for a reader. -/
def all : List Direction := [ascending, descending]

/-- The direction as it is written in a query. -/
def symbol : Direction → String
  | ascending => "ASC"
  | descending => "DESC"

/-- The spelling that is compared with the symbols: upper case, without blanks at the ends. -/
def normalize (s : String) : String := String.ofList (Text.upper (Text.trim s.toList))

/-- Reads a direction. -/
def read? (s : String) : Option Direction := all.find? fun d => d.symbol == normalize s

end Direction

end MeetDesk
