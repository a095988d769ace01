import MeetDesk.Calendar
import MeetDesk.Participant

/-!
# Loose values

Arguments from a model, bodies of requests and cells of a store have no type that is known before
they arrive. A `Value` is one of them. Objects keep the order of their fields and have each name
once: `Fields.put` overwrites in place, so a repeated name keeps its first place and its last value.
-/

namespace MeetDesk

/-- A value whose shape is not known in advance. -/
inductive Value where
  /-- No value. -/
  | null
  /-- A truth value. -/
  | bool (b : Bool)
  /-- An integer of any size. -/
  | int (n : Int)
  /-- A float. -/
  | float (x : Float)
  /-- A text. -/
  | text (s : String)
  /-- A participant, as the routing tool returns it. -/
  | participant (p : Participant)
  /-- A date. -/
  | date (d : Date)
  /-- A date with a time of day. -/
  | moment (m : Moment)
  /-- A decimal with its scale. -/
  | decimal (d : Decimal.Quantity)
  /-- A universally unique identifier, by its thirty-two hexadecimal digits. -/
  | uuid (digits : String)
  /-- A string of bytes. -/
  | bytes (b : List UInt8)
  /-- A list. -/
  | list (items : List Value)
  /-- A list of fixed length. -/
  | tuple (items : List Value)
  /-- Named fields in order. -/
  | object (fields : List (String × Value))

/-- The fields of an object, in order. -/
abbrev Fields := List (String × Value)

/-- A row of results: cells by column name, in column order. -/
abbrev Row := Fields

namespace Fields

/-- Gives a field a value: in its place if the name is there, else at the end. -/
def put (fields : Fields) (name : String) (value : Value) : Fields :=
  match fields with
  | [] => [(name, value)]
  | (n, v) :: rest => if n = name then (n, value) :: rest else (n, v) :: put rest name value

/-- The fields that result from giving values one after the other. -/
def ofPairs (pairs : List (String × Value)) : Fields :=
  pairs.foldl (fun fields pair => put fields pair.1 pair.2) []

/-- The value of a field. -/
def get? (fields : Fields) (name : String) : Option Value := fields.lookup name

/-- The names of the fields. -/
def names (fields : Fields) : List String := fields.map Prod.fst

end Fields

namespace Value

instance : Inhabited Value := ⟨.null⟩

/-- The text that a value carries; a participant carries its address. -/
def text? : Value → Option String
  | .text s => some s
  | .participant p => some p.address
  | _ => none

/-- Whether a value counts as given: everything does but null, false, zeros and what is empty. -/
def isGiven : Value → Bool
  | .null => false
  | .bool b => b
  | .int n => n != 0
  | .float x => x != 0
  | .text s => s != ""
  | .decimal d => !d.isZero
  | .bytes b => !b.isEmpty
  | .list items => !items.isEmpty
  | .tuple items => !items.isEmpty
  | .object fields => !fields.isEmpty
  | _ => true

/-- The field of an object; nothing for a value that is no object. -/
def field? (v : Value) (name : String) : Option Value :=
  match v with
  | .object fields => Fields.get? fields name
  | _ => none

/-- A text, or null if there is none. -/
def ofText? : Option String → Value
  | some s => .text s
  | none => .null

/-- A truth value, or null if there is none. -/
def ofBool? : Option Bool → Value
  | some b => .bool b
  | none => .null

end Value

end MeetDesk
