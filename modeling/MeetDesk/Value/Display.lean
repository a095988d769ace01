import MeetDesk.Value
import MeetDesk.Text.Quoted

/-!
# The display of a value

Two texts stand for a value in a message. `Value.display` is its plain text; inside a list, a tuple
or an object stands its `Value.inspect`, which names the type where the plain text would not show
it and puts texts between quotes.
-/

namespace MeetDesk

open Text (quoted hex)

/-- The groups of an identifier's digits, with dashes between them. -/
def renderUuid (digits : String) : String :=
  let cs := digits.toList
  let group := fun (start size : Nat) => String.ofList ((cs.drop start).take size)
  String.intercalate "-" [group 0 8, group 8 4, group 12 4, group 16 4, group 20 12]

/-- One byte of a displayed string of bytes. -/
def displayByte (quote : Char) (b : UInt8) : List Char :=
  let n := b.toNat
  let c := Char.ofNat n
  if c = quote ∨ c = '\\' then ['\\', c]
  else if c = '\n' then ['\\', 'n']
  else if c = '\r' then ['\\', 'r']
  else if c = '\t' then ['\\', 't']
  else if 0x20 ≤ n ∧ n < 0x7F then [c]
  else '\\' :: 'x' :: hex 2 n

/-- A string of bytes between quotes. -/
def displayBytes (b : List UInt8) : String :=
  let quote := Text.quoteFor (b.map fun x => Char.ofNat x.toNat)
  String.ofList ('b' :: quote :: b.flatMap (displayByte quote) ++ [quote])

/-- The name of a constructor applied to arguments. -/
def displayCall (name : String) (arguments : List String) : String :=
  name ++ "(" ++ String.intercalate ", " arguments ++ ")"

/-- The parts of a span of time that is less than a day, in millionths of a second. A negative one is
a whole day back and something ahead of that. -/
def spanParts (span : Int) : List (String × Int) :=
  let day := 86400000000
  let ahead := span % day
  [("days", span / day), ("seconds", ahead / 1000000), ("microseconds", ahead % 1000000)].filter
    fun part => part.2 != 0

/-- The text of the offset of a moment inside another value. -/
def displayOffset (offset : Int) : String :=
  if offset = 0 then "datetime.timezone.utc"
  else
    let arguments := (spanParts offset).map fun part => part.1 ++ "=" ++ toString part.2
    displayCall "datetime.timezone" [displayCall "datetime.timedelta" arguments]

/-- The arguments that make a moment. -/
def momentArguments (m : Moment) : List String :=
  m.parts.map toString ++ (m.offset?.map fun offset => "tzinfo=" ++ displayOffset offset).toList

namespace Value

mutual

/-- The text of a value inside another one. -/
def inspect : Value → String
  | .null => "None"
  | .bool b => if b then "True" else "False"
  | .int n => toString n
  | .float x => Decimal.plain.render x
  | .text s => quoted s
  | .participant p => "<" ++ p.symbol ++ ": " ++ quoted p.address ++ ">"
  | .date d => displayCall "datetime.date" ([d.year, d.month, d.day].map toString)
  | .moment m => displayCall "datetime.datetime" (momentArguments m)
  | .decimal d => "Decimal('" ++ d.render ++ "')"
  | .uuid digits => "UUID('" ++ renderUuid digits ++ "')"
  | .bytes b => displayBytes b
  | .list items => "[" ++ String.intercalate ", " (inspectItems items) ++ "]"
  | .tuple [item] => "(" ++ item.inspect ++ ",)"
  | .tuple items => "(" ++ String.intercalate ", " (inspectItems items) ++ ")"
  | .object fields => "\x7b" ++ String.intercalate ", " (inspectFields fields) ++ "\x7d"

/-- The texts of the items of a list. -/
def inspectItems : List Value → List String
  | [] => []
  | item :: rest => item.inspect :: inspectItems rest

/-- The texts of the fields of an object, each with its name. -/
def inspectFields : List (String × Value) → List String
  | [] => []
  | (name, value) :: rest => (quoted name ++ ": " ++ value.inspect) :: inspectFields rest

end

/-- The name of a value's type, for messages. -/
def typeName : Value → String
  | .null => "NoneType"
  | .bool _ => "bool"
  | .int _ => "int"
  | .float _ => "float"
  | .text _ => "str"
  | .participant _ => "AgentName"
  | .date _ => "datetime.date"
  | .moment _ => "datetime.datetime"
  | .decimal _ => "decimal.Decimal"
  | .uuid _ => "UUID"
  | .bytes _ => "bytes"
  | .list _ => "list"
  | .tuple _ => "tuple"
  | .object _ => "dict"

/-- The name of a value's type without the place where the type is defined. -/
def shortTypeName (v : Value) : String :=
  let name := v.typeName.toList
  String.ofList (if name.contains '.' then (name.dropWhile (· != '.')).drop 1 else name)

/-- The plain text of a value. -/
def display : Value → String
  | .text s => s
  | .participant p => p.symbol
  | .date d => d.render
  | .moment m => m.render .plain
  | .decimal d => d.render
  | .uuid digits => renderUuid digits
  | v => v.inspect

end Value

end MeetDesk
