import MeetDesk.Fault
import MeetDesk.Json.Printer
import MeetDesk.Text.Stray

/-!
# Documents in requests

A client writes a value as a JSON text without blanks, with every character as it is unless JSON wants
it escaped, and sends the text in UTF-8. A value that JSON has no form for is refused where it is met,
from the left; only a text that is complete is looked through for halves of pairs.
-/

namespace MeetDesk.Http.Document

/-- The codes of ASCII text. -/
def plain (s : String) : List Nat := s.toList.map Char.toNat

/-- One code inside a string. -/
def stringCode (n : Nat) : List Nat :=
  if n < 0x20 ∨ n = '"'.toNat ∨ n = '\\'.toNat then
    (Json.escapeChar (Char.ofNat n)).map Char.toNat
  else [n]

/-- A string. -/
def string (s : String) : List Nat :=
  plain "\"" ++ (Text.codes s.toList).flatMap stringCode ++ plain "\""

/-- A number that is finite. -/
def number (x : Float) : Except Fault (List Nat) :=
  match Decimal.Reading.ofFloat x with
  | .finite _ _ => .ok (plain (Decimal.json.render x))
  | _ => .error (.ordinary "ValueError" "Out of range float values are not JSON compliant")

/-- The failure of a value that JSON has no form for. -/
def formless (v : Value) : Fault :=
  .ordinary "TypeError" ("Object of type " ++ v.shortTypeName ++ " is not JSON serializable")

/-- Pieces with a comma between them. -/
def commaSeparated (pieces : List (List Nat)) : List Nat := (plain ",").intercalate pieces

mutual

/-- The codes of the document of a value. -/
def render : Value → Except Fault (List Nat)
  | .null => .ok (plain "null")
  | .bool b => .ok (plain (if b then "true" else "false"))
  | .int n => .ok (plain (toString n))
  | .float x => number x
  | .text s => .ok (string s)
  | .participant p => .ok (string p.address)
  | .date d => .error (formless (.date d))
  | .moment m => .error (formless (.moment m))
  | .decimal d => .error (formless (.decimal d))
  | .uuid digits => .error (formless (.uuid digits))
  | .bytes b => .error (formless (.bytes b))
  | .list items =>
    (renderItems items).map fun pieces => plain "[" ++ commaSeparated pieces ++ plain "]"
  | .tuple items =>
    (renderItems items).map fun pieces => plain "[" ++ commaSeparated pieces ++ plain "]"
  | .object fields =>
    (renderFields fields).map fun pieces =>
      plain "\x7b" ++ commaSeparated pieces ++ plain "\x7d"

/-- The codes of the items of a list. -/
def renderItems : List Value → Except Fault (List (List Nat))
  | [] => .ok []
  | item :: rest =>
    match render item with
    | .error f => .error f
    | .ok piece => (renderItems rest).map (piece :: ·)

/-- The codes of the fields of an object, each with its name. -/
def renderFields : List (String × Value) → Except Fault (List (List Nat))
  | [] => .ok []
  | (name, value) :: rest =>
    match render value with
    | .error f => .error f
    | .ok piece => (renderFields rest).map ((string name ++ plain ":" ++ piece) :: ·)

end

/-- A text as a document, if it can be sent. -/
def ofText (s : String) : Except Fault String :=
  match Text.unencodable? s with
  | some run => .error (.ordinary "UnicodeEncodeError" run.message)
  | none => .ok s

/-- The document of a value, if it can be sent. -/
def ofValue (v : Value) : Except Fault String :=
  match render v with
  | .error f => .error f
  | .ok codes => ofText (String.ofList (Text.ofCodes codes))

end MeetDesk.Http.Document
