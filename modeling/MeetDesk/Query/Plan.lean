import MeetDesk.Column
import MeetDesk.Json.Error
import MeetDesk.Query.Specification

/-!
# Query plans

A plan is a specification that has been checked: its columns are columns of the table, each
condition has the operand that it needs, and the number of rows is within bounds. Clauses without
effect are gone. A plan is what a query means; its text is made elsewhere.

The clauses are looked at first, in order, then the name of the table, then the order of the rows.
-/

namespace MeetDesk

/-- Why a specification has no plan. -/
inductive PlanError where
  /-- No column has this name. -/
  | unknownColumn (name : String)
  /-- The name cannot be the name of a table. -/
  | invalidTable (name : String)
  /-- A pattern would hold an integer with too many digits. -/
  | oversizedPattern
  deriving DecidableEq, Repr

/-- The message for an error. -/
def PlanError.message : PlanError → String
  | unknownColumn name => Column.unknownMessage name
  | invalidTable name => "Invalid table name: " ++ Text.quoted name
  | oversizedPattern =>
    "Exceeds the limit (" ++ toString Json.maxDigits ++
      " digits) for integer string conversion; use sys.set_int_max_str_digits() to increase the limit"

/-- A condition with effect: its operand is there exactly if the operator takes one. -/
structure Condition where
  /-- The column. -/
  column : Column
  /-- How it is compared. -/
  operator : Operator
  /-- What is bound to the condition's placeholder. -/
  bound? : Option Operand

/-- The order of the rows. -/
inductive RowOrder where
  /-- By name, and for one name the latest first. -/
  | standard
  /-- By one column. -/
  | along (column : Column) (direction : Direction)
  deriving DecidableEq, Repr

/-- A checked specification. -/
structure Plan where
  /-- The table that is read. -/
  table : String
  /-- The conditions, all of which must hold. -/
  conditions : List Condition
  /-- The order of the rows. -/
  order : RowOrder
  /-- The most rows that are returned. -/
  limit : Nat

namespace Operand

/-- The text of an operand inside a pattern, unless it is an integer with too many digits. -/
def patternText? : Operand → Option String
  | text s => some s
  | int n => if Nat.pow 10 Json.maxDigits ≤ n.natAbs then none else some (toString n)
  | float x => some (Decimal.plain.render x)

/-- The pattern that finds an operand anywhere in a cell. -/
def pattern? (o : Operand) : Option Operand :=
  o.patternText?.map fun s => text ("%" ++ s ++ "%")

end Operand

namespace Clause

/-- The condition that a clause puts on a column, if it puts any. -/
def conditionOn (c : Clause) (column : Column) : Except PlanError (Option Condition) :=
  if !c.operator.takesValue then .ok (some ⟨column, c.operator, none⟩)
  else
    match c.operand? with
    | none => .ok none
    | some operand =>
      if c.operator.isPattern then
        match operand.pattern? with
        | some pattern => .ok (some ⟨column, c.operator, some pattern⟩)
        | none => .error .oversizedPattern
      else .ok (some ⟨column, c.operator, some operand⟩)

/-- The condition of a clause. An unknown column is an error if `strict`; otherwise the clause has
no effect. -/
def condition? (strict : Bool) (c : Clause) : Except PlanError (Option Condition) :=
  match Column.named? c.column with
  | some column => c.conditionOn column
  | none => if strict then .error (.unknownColumn c.column) else .ok none

/-- The conditions of clauses, in order. -/
def conditions (strict : Bool) : List Clause → Except PlanError (List Condition)
  | [] => .ok []
  | c :: rest =>
    match c.condition? strict with
    | .error e => .error e
    | .ok condition? =>
      match conditions strict rest with
      | .error e => .error e
      | .ok more => .ok (condition?.toList ++ more)

end Clause

namespace Plan

/-- The number of rows when the caller names none. -/
def defaultLimit : Nat := 20

/-- The most rows that a query returns. -/
def maxLimit : Nat := 100

/-- The table that is read unless another one is named. -/
def defaultTable : String := "powerlifting-records"

/-- The effective number of rows. -/
def limitOf (limit? : Option Int) : Nat :=
  match limit? with
  | none => defaultLimit
  | some n => if n ≤ 0 then defaultLimit else min n.toNat maxLimit

/-- A character that may start the name of a table. -/
def isTableHead (c : Char) : Bool := c.isAlphanum || c == '_'

/-- A character that may stand in the name of a table. -/
def isTableChar (c : Char) : Bool := isTableHead c || c == '.' || c == '-'

/-- A text without the line feed at its end, if there is one. -/
def dropFinalLineFeed (s : List Char) : List Char :=
  if s.getLast? = some '\n' then s.dropLast else s

/-- Whether a text is accepted as the name of a table. One line feed at the end is let pass. -/
def isTableName (s : List Char) : Bool :=
  match s with
  | [] => false
  | c :: rest => isTableHead c && (dropFinalLineFeed rest).all isTableChar

/-- The order of the rows. A column without a direction is sorted from the top down. -/
def orderOf (orderBy? : Option String) (direction? : Option Direction) :
    Except PlanError RowOrder :=
  match orderBy? with
  | none => .ok .standard
  | some name =>
    match Column.named? name with
    | some column => .ok (.along column (direction?.getD .descending))
    | none => .error (.unknownColumn name)

/-- The plan with the given conditions and number of rows. -/
def ofConditions (table : String) (conditions : List Condition) (orderBy? : Option String)
    (direction? : Option Direction) (limit : Nat) : Except PlanError Plan :=
  if !isTableName table.toList then .error (.invalidTable table)
  else
    match orderOf orderBy? direction? with
    | .error e => .error e
    | .ok order => .ok ⟨table, conditions, order, limit⟩

/-- The plan of a specification. -/
def ofSpecification (table : String) (strict : Bool) (s : Specification) : Except PlanError Plan :=
  match Clause.conditions strict s.clauses with
  | .error e => .error e
  | .ok conditions => ofConditions table conditions s.orderBy? s.direction? (limitOf s.limit?)

end Plan

end MeetDesk
