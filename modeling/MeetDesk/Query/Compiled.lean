import MeetDesk.Query.Plan

/-!
# Compiled queries

The text of a plan, with a numbered placeholder for every bound operand, and the operands by the
names of their placeholders. No operand is written into the text. The type that a placeholder
declares is read off its operand.
-/

namespace MeetDesk

/-- The type that a placeholder declares. -/
inductive StoreType where
  | string | int64 | float64
  deriving DecidableEq, Repr

/-- The store's name for a type. -/
def StoreType.label : StoreType → String
  | string => "String"
  | int64 => "Int64"
  | float64 => "Float64"

/-- The kind of the values of a type. -/
def StoreType.kind : StoreType → ColumnKind
  | string => .string
  | int64 => .numeric
  | float64 => .numeric

/-- The declared type of an operand. -/
def Operand.storeType : Operand → StoreType
  | text _ => .string
  | int _ => .int64
  | float _ => .float64

/-- The name of the placeholder with the given number. -/
def placeholderName (index : Nat) : String := "param" ++ toString index

/-- A placeholder as it is written in a query. -/
def placeholder (index : Nat) (type : StoreType) : String :=
  "\x7b" ++ placeholderName index ++ ":" ++ type.label ++ "\x7d"

namespace Condition

/-- A condition without its operand. -/
def head (c : Condition) : String := c.column.label ++ " " ++ c.operator.symbol

/-- The texts of conditions, with placeholders numbered from `next` on. -/
def texts : (next : Nat) → List Condition → List String
  | _, [] => []
  | next, c :: rest =>
    match c.bound? with
    | none => c.head :: texts next rest
    | some operand =>
      (c.head ++ " " ++ placeholder next operand.storeType) :: texts (next + 1) rest

/-- The operands of conditions, in order. -/
def operands (conditions : List Condition) : List Operand := conditions.filterMap Condition.bound?

end Condition

/-- The text of an order of rows. -/
def RowOrder.text : RowOrder → String
  | standard =>
    "ORDER BY " ++ Column.defaultOrder.1.label ++ ", " ++ Column.defaultOrder.2.label ++ " " ++
      Direction.descending.symbol
  | along column direction => "ORDER BY " ++ column.label ++ " " ++ direction.symbol

/-- A query that is ready for the store. -/
structure CompiledQuery where
  /-- The text, with placeholders. -/
  text : String
  /-- The operands by the names of their placeholders, in the order of the placeholders. -/
  parameters : List (String × Operand)
  /-- The most rows that are returned. -/
  limit : Nat

namespace Plan

/-- The lines of the list of columns. -/
def selectList : String := String.intercalate ",\n    " (Column.all.map Column.label)

/-- The line of the conditions, if there are any. -/
def whereLine (conditions : List Condition) : List String :=
  if conditions.isEmpty then []
  else ["WHERE " ++ String.intercalate " AND " (Condition.texts 0 conditions)]

/-- The lines of a plan. -/
def lines (p : Plan) : List String :=
  ["SELECT", "    " ++ selectList, "FROM `" ++ p.table ++ "`"] ++ whereLine p.conditions ++
    [p.order.text, "LIMIT " ++ toString p.limit]

/-- The operands with the names of their placeholders. -/
def parameters (p : Plan) : List (String × Operand) :=
  (Condition.operands p.conditions).zipIdx.map fun (operand, i) => (placeholderName i, operand)

/-- The query of a plan. -/
def compile (p : Plan) : CompiledQuery :=
  { text := String.intercalate "\n" p.lines, parameters := p.parameters, limit := p.limit }

end Plan

namespace CompiledQuery

/-- The declared types by the names of the placeholders. -/
def types (q : CompiledQuery) : List (String × StoreType) :=
  q.parameters.map fun (name, operand) => (name, operand.storeType)

/-- The kind of a parameter. -/
def kind? (q : CompiledQuery) (name : String) : Option ColumnKind :=
  (q.types.lookup name).map StoreType.kind

/-- The operands as fields of an object. -/
def parameterFields (q : CompiledQuery) : Fields :=
  q.parameters.map fun (name, operand) => (name, operand.toValue)

end CompiledQuery

/-- Compiles a specification. -/
def Specification.compile (table : String) (strict : Bool) (s : Specification) :
    Except PlanError CompiledQuery :=
  match Plan.ofSpecification table strict s with
  | .ok plan => .ok plan.compile
  | .error e => .error e

end MeetDesk
