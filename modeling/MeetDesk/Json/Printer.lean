import MeetDesk.Value.Display

/-!
# JSON texts

Writing a value as a JSON text on one line: a comma and a space between items, a colon and a space
after a name, and printable ASCII only, so that what comes out holds no line break whatever the
value holds. Values that JSON has no form for are written as the text of their display.
-/

namespace MeetDesk.Json

open Text (hex)

/-- A sixteen-bit unit, escaped. -/
def unitEscape (n : Nat) : List Char := '\\' :: 'u' :: hex 4 n

/-- A code point, escaped as one unit or as two. -/
def codePointEscape (n : Nat) : List Char :=
  if n < 0x10000 then unitEscape n
  else
    let offset := n - 0x10000
    unitEscape (0xD800 + offset / 0x400) ++ unitEscape (0xDC00 + offset % 0x400)

/-- One character inside a JSON string. -/
def escapeChar (c : Char) : List Char :=
  if c = '"' then ['\\', '"']
  else if c = '\\' then ['\\', '\\']
  else if c = '\n' then ['\\', 'n']
  else if c = '\r' then ['\\', 'r']
  else if c = '\t' then ['\\', 't']
  else if c = '\x08' then ['\\', 'b']
  else if c = '\x0c' then ['\\', 'f']
  else if 0x20 ≤ c.toNat ∧ c.toNat < 0x7F then [c]
  else codePointEscape c.toNat

/-- One code inside a JSON string. Half of a pair is escaped as the unit that it is. -/
def escapeCode (n : Nat) : List Char :=
  if Text.isHalf n then unitEscape n else escapeChar (Char.ofNat n)

/-- A JSON string. -/
def string (s : String) : List Char := '"' :: (Text.codes s.toList).flatMap escapeCode ++ ['"']

/-- Pieces with a comma and a space between them. -/
def commaSeparated : List (List Char) → List Char
  | [] => []
  | [piece] => piece
  | piece :: rest => piece ++ ',' :: ' ' :: commaSeparated rest

mutual

/-- The JSON text of a value. -/
def render : Value → List Char
  | .null => "null".toList
  | .bool b => if b then "true".toList else "false".toList
  | .int n => (toString n).toList
  | .float x => (Decimal.json.render x).toList
  | .text s => string s
  | .participant p => string p.address
  | .date d => string (Value.date d).display
  | .moment m => string (Value.moment m).display
  | .decimal d => string (Value.decimal d).display
  | .uuid digits => string (Value.uuid digits).display
  | .bytes b => string (Value.bytes b).display
  | .list items => '[' :: commaSeparated (renderItems items) ++ [']']
  | .tuple items => '[' :: commaSeparated (renderItems items) ++ [']']
  | .object fields => '\x7b' :: commaSeparated (renderFields fields) ++ ['\x7d']

/-- The JSON texts of the items of a list. -/
def renderItems : List Value → List (List Char)
  | [] => []
  | item :: rest => render item :: renderItems rest

/-- The JSON texts of the fields of an object. -/
def renderFields : List (String × Value) → List (List Char)
  | [] => []
  | (name, value) :: rest => (string name ++ ':' :: ' ' :: render value) :: renderFields rest

end

end MeetDesk.Json

namespace MeetDesk

/-- The JSON text of a value, on one line and in ASCII. -/
def Value.toJson (v : Value) : String := String.ofList (Json.render v)

end MeetDesk
