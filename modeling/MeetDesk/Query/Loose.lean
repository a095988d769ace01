import MeetDesk.Fault
import MeetDesk.Query.Compiled
import MeetDesk.Value.Display

/-!
# Loose queries

A query whose clauses were read, but whose number of rows, table and order are still loose values. A
number of rows may be of any kind of number: its whole part counts, within the bounds. What a table or
a column cannot be named by is a fault that names the kind of the value.

The parts are looked at in the order in which a specification is planned: the clauses, the number of
rows, the table, the order of the rows.
-/

namespace MeetDesk

/-- The failure that an error of planning is for the caller. -/
def PlanError.fault (e : PlanError) : Fault :=
  match e with
  | .unknownColumn _ => .ordinary "UnknownColumnError" e.message
  | .invalidTable _ => .ordinary "ValueError" e.message
  | .oversizedPattern => .ordinary "ValueError" e.message

mutual

/-- Why no table of names can be asked for a value, if that is so. Lists and objects can change, and
a decimal that signals is equal to nothing. -/
def unkeyable? : Value → Option Fault
  | .list _ => some (.ordinary "TypeError" "unhashable type: 'list'")
  | .object _ => some (.ordinary "TypeError" "unhashable type: 'dict'")
  | .decimal (.nan _ true _) => some (.ordinary "TypeError" "Cannot hash a signaling NaN value")
  | .tuple items => unkeyableAmong? items
  | _ => none

/-- The first reason among the items of a list. -/
def unkeyableAmong? : List Value → Option Fault
  | [] => none
  | item :: rest => (unkeyable? item).or (unkeyableAmong? rest)

end

/-- The failure for a column that is named by any value. -/
def unknownColumnFault (name : Value) : Fault :=
  .ordinary "UnknownColumnError" ("Unknown column: " ++ name.inspect)

namespace Plan

/-- The effective number of rows if it is asked for as a float: what lies within the bounds is cut to its
whole part. What is not a number asks for nothing that can be granted. -/
def limitOfFloat? (x : Float) : Option Nat :=
  match Decimal.Reading.ofFloat x with
  | .nan => none
  | .infinite negative => some (if negative then defaultLimit else maxLimit)
  | .finite negative d =>
    some (if negative ∨ d.mantissa = 0 then defaultLimit else min d.floor maxLimit)

/-- The effective number of rows if it is asked for as a decimal. -/
def limitOfQuantity? : Decimal.Quantity → Option Nat
  | .nan _ _ _ => none
  | .infinite negative => some (if negative then defaultLimit else maxLimit)
  | .finite d =>
    some (if d.negative ∨ d.coefficient = 0 then defaultLimit else d.floorUpTo maxLimit)

/-- The effective number of rows if it is asked for by any value. -/
def limitOfValue : Value → Except Fault Nat
  | .null => .ok (limitOf none)
  | .int n => .ok (limitOf (some n))
  | .bool b => .ok (limitOf (some (if b then 1 else 0)))
  | .float x =>
    match limitOfFloat? x with
    | some n => .ok n
    | none => .error (.ordinary "ValueError" "cannot convert float NaN to integer")
  | .decimal d =>
    match limitOfQuantity? d with
    | some n => .ok n
    | none => .error (.ordinary "InvalidOperation" "[<class 'decimal.InvalidOperation'>]")
  | v =>
    .error (.ordinary "TypeError"
      ("'<=' not supported between instances of '" ++ v.typeName ++ "' and 'int'"))

/-- The table that is named by any value. A participant names one by its address, and is shown as
the participant that it is. -/
def tableOfValue : Value → Except Fault String
  | .text s => .ok s
  | .participant p =>
    if isTableName p.address.toList then .ok (Value.participant p).display
    else .error (.ordinary "ValueError" ("Invalid table name: " ++ (Value.participant p).inspect))
  | .bytes _ =>
    .error (.ordinary "TypeError" "cannot use a string pattern on a bytes-like object")
  | v =>
    .error (.ordinary "TypeError" ("expected string or bytes-like object, got '" ++ v.typeName ++ "'"))

end Plan

/-- A query with read clauses and loose parts. -/
structure LooseQuery where
  /-- The clauses. -/
  clauses : List Clause
  /-- The number of rows. -/
  limit : Value
  /-- The table. -/
  table : Value
  /-- The column that the rows are sorted by. -/
  orderBy : Value
  /-- The direction in which they are sorted. -/
  direction? : Option Direction

namespace LooseQuery

/-- The name of the column that the rows are sorted by, if a text names one. -/
def orderName? (q : LooseQuery) : Option String :=
  match q.orderBy with
  | .text name => some name
  | _ => none

/-- What is wrong with an order that is named by a value of another kind than a text. -/
def orderFault? (q : LooseQuery) : Option Fault :=
  match q.orderBy with
  | .null => none
  | .text _ => none
  | v => some ((unkeyable? v).getD (unknownColumnFault v))

/-- Compiles a loose query. -/
def compile (strict : Bool) (q : LooseQuery) : Except Fault CompiledQuery := do
  let conditions ← (Clause.conditions strict q.clauses).mapError PlanError.fault
  let limit ← Plan.limitOfValue q.limit
  let table ← Plan.tableOfValue q.table
  let plan ← (Plan.ofConditions table conditions q.orderName? q.direction? limit).mapError
    PlanError.fault
  match q.orderFault? with
  | some f => .error f
  | none => .ok plan.compile

end LooseQuery

/-- The loose query that a specification makes. -/
def Specification.toLoose (table : Value) (s : Specification) : LooseQuery :=
  { clauses := s.clauses, limit := (s.limit?.map Value.int).getD .null, table
    orderBy := .ofText? s.orderBy?, direction? := s.direction? }

/-- A specification that is made loose compiles as it does itself. -/
theorem compile_toLoose (table : String) (strict : Bool) (s : Specification) :
    (s.toLoose (.text table)).compile strict = (s.compile table strict).mapError PlanError.fault := by
  unfold LooseQuery.compile Specification.compile Plan.ofSpecification
  have hlimit : Plan.limitOfValue (s.toLoose (.text table)).limit = .ok (Plan.limitOf s.limit?) := by
    simp only [Specification.toLoose]
    cases s.limit? <;> rfl
  have horder : (s.toLoose (.text table)).orderName? = s.orderBy? := by
    simp only [Specification.toLoose, LooseQuery.orderName?]
    cases s.orderBy? <;> rfl
  have hfault : (s.toLoose (.text table)).orderFault? = none := by
    simp only [Specification.toLoose, LooseQuery.orderFault?]
    cases s.orderBy? <;> rfl
  rw [hlimit, horder, hfault]
  simp only [Specification.toLoose, Plan.tableOfValue]
  cases Clause.conditions strict s.clauses with
  | error e => rfl
  | ok conditions =>
    have hok : (Except.ok conditions).mapError PlanError.fault = .ok conditions := rfl
    simp only [hok, bind, Except.bind]
    cases Plan.ofConditions table conditions s.orderBy? s.direction? (Plan.limitOf s.limit?) <;> rfl

end MeetDesk
