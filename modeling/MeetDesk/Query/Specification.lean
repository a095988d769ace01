import MeetDesk.Form.Slot
import MeetDesk.Query.Operator

/-!
# Query specifications

What a caller asks of the results table: clauses that all must hold, a column to order by, and a
number of rows. A specification is read leniently from loose values; whether its columns exist is
not decided here.
-/

namespace MeetDesk

/-- The value that a clause compares with. -/
inductive Operand where
  /-- A text. -/
  | text (s : String)
  /-- An integer. -/
  | int (n : Int)
  /-- A float. -/
  | float (x : Float)

namespace Operand

/-- The operand as a loose value. -/
def toValue : Operand → Value
  | text s => .text s
  | int n => .int n
  | float x => .float x

/-- Reads an operand. Truth values are refused; null stands for no operand. -/
def read : Coercion.Reader (Option Operand) := fun v =>
  match v with
  | .null => .valid none
  | .bool _ => .fault (.refused "Filter values must be strings or numbers") v
  | .int n => .valid (some (int n))
  | .float x => .valid (some (float x))
  | _ =>
    match v.text? with
    | some s => .valid (some (text s))
    | none =>
      .invalid [⟨.notText, [.field "str"], v⟩, ⟨.notInteger, [.field "int"], v⟩,
        ⟨.notNumber, [.field "float"], v⟩]

end Operand

/-- A condition on one column, as it was asked for. -/
structure Clause where
  /-- The name of the column. -/
  column : String
  /-- How the column is compared. -/
  operator : Operator
  /-- What it is compared with, if anything was given. -/
  operand? : Option Operand

namespace Clause

/-- The slot of a clause's column. -/
def columnSlot : Slot String := .required (.single "column") Coercion.text

/-- The slot of a clause's operator. -/
def operatorSlot : Slot Operator :=
  .required (.single "operator") (Coercion.choice (Operator.all.map Operator.symbol) Operator.read?)

/-- The slot of a clause's operand. -/
def operandSlot : Slot (Option Operand) := .optional (.single "value") none Operand.read

/-- Reads a clause. -/
def read : Coercion.Reader Clause := Coercion.form "FilterClause" fun fields =>
  Clause.mk <$> columnSlot.fill fields <*> operatorSlot.fill fields <*> operandSlot.fill fields

/-- The clause as a loose value. -/
def toValue (c : Clause) : Value :=
  .object [("column", .text c.column), ("operator", .text c.operator.symbol),
    ("value", (c.operand?.map Operand.toValue).getD .null)]

end Clause

/-- What is asked of the results table. -/
structure Specification where
  /-- The clauses, all of which must hold. -/
  clauses : List Clause := []
  /-- The name of the column to order by. -/
  orderBy? : Option String := none
  /-- The direction of the order. -/
  direction? : Option Direction := none
  /-- The number of rows asked for. -/
  limit? : Option Int := none

namespace Specification

/-- The slot of the clauses; null stands for none. -/
def clausesSlot : Slot (List Clause) :=
  .optional (.single "filters") [] fun v =>
    match v with
    | .null => .valid []
    | _ => Coercion.list Clause.read v

/-- The slot of the column to order by. -/
def orderSlot : Slot (Option String) :=
  .optional ⟨"order_by", "orderBy"⟩ none (Coercion.orNull Coercion.text)

/-- The slot of the direction. -/
def directionSlot : Slot (Option Direction) :=
  .optional ⟨"sort_direction", "sortDirection"⟩ none
    (Coercion.orNull (Coercion.choice (Direction.all.map Direction.symbol) Direction.read?))

/-- The slot of the number of rows. -/
def limitSlot : Slot (Option Int) :=
  .optional (.single "limit") none (Coercion.orNull Coercion.integer)

/-- Reads a specification. -/
def read : Coercion.Reader Specification := Coercion.form "MeetResultsQuery" fun fields =>
  Specification.mk <$> clausesSlot.fill fields <*> orderSlot.fill fields
    <*> directionSlot.fill fields <*> limitSlot.fill fields

/-- The specification as a loose value, with its fields under the given naming. -/
def toValue (naming : Naming) (s : Specification) : Value :=
  .object [(clausesSlot.label.under naming, .list (s.clauses.map Clause.toValue)),
    (orderSlot.label.under naming, .ofText? s.orderBy?),
    (directionSlot.label.under naming, .ofText? (s.direction?.map Direction.symbol)),
    (limitSlot.label.under naming, (s.limit?.map Value.int).getD .null)]

end Specification

end MeetDesk
