import MeetDesk.Room
import MeetDesk.Value.Display

/-!
# Bodies of answers

What a body may hold: null, truth values, integers, finite floats, texts, lists and objects. Dates
and moments become texts, other cells that have no form of their own become the text of their display,
and bytes the text that they encode. A text with half of a pair in it cannot be sent, nor can bytes
that encode no text. Whether a float that is no finite number can be sent depends on the kind of the
answer, and so does the number of levels that a body may have. An integer of too many digits is never
sent.
-/

namespace MeetDesk.Http

/-- Whether a float is a number that has a form of its own in a body. -/
def isSendable (x : Float) : Bool :=
  match Decimal.Reading.ofFloat x with
  | .finite _ _ => true
  | _ => false

/-- What becomes of a float that is no finite number. -/
inductive NonFinite where
  /-- Null is sent in its place. -/
  | null
  /-- The body cannot be sent. -/
  | refused
  deriving DecidableEq, Repr

/-- A text in the form in which it is sent. -/
def encodeText? (s : String) : Option String := if Text.isWhole s then some s else none

/-- The text that a string of bytes encodes. -/
def bytesText? (b : List UInt8) : Option String :=
  (String.fromUTF8? (ByteArray.mk b.toArray)).map fun s => String.ofList (Text.ofChars s.toList)

mutual

/-- A value in the form in which it is sent, if it can be sent. -/
def encode? (policy : NonFinite) : Value → Option Value
  | .text s => (encodeText? s).map .text
  | .float x =>
    if isSendable x then some (.float x)
    else
      match policy with
      | .null => some .null
      | .refused => none
  | .participant p => some (.text p.address)
  | .date d => some (.text d.render)
  | .moment m => some (.text (m.render .body))
  | .decimal d => some (.text d.render)
  | .uuid digits => some (.text (renderUuid digits))
  | .bytes b => (bytesText? b).map .text
  | .list items => (encodeItems? policy items).map .list
  | .tuple items => (encodeItems? policy items).map .list
  | .object fields => (encodeFields? policy fields).map .object
  | v => some v

/-- The items of a list in the form in which they are sent, if all of them can be sent. -/
def encodeItems? (policy : NonFinite) : List Value → Option (List Value)
  | [] => some []
  | item :: rest =>
    match encode? policy item, encodeItems? policy rest with
    | some item, some rest => some (item :: rest)
    | _, _ => none

/-- The fields of an object in the form in which they are sent, if all of them can be sent. -/
def encodeFields? (policy : NonFinite) : List (String × Value) → Option (List (String × Value))
  | [] => some []
  | (name, value) :: rest =>
    match encodeText? name, encode? policy value, encodeFields? policy rest with
    | some name, some value, some rest => some ((name, value) :: rest)
    | _, _, _ => none

end

/-- A value as it is sent by whoever goes so many levels down and writes integers out in decimal digits,
if it can be sent. -/
def send? (levels : Nat) (policy : NonFinite) (v : Value) : Option Value :=
  if v.Fits levels then encode? policy v else none

/-- A body that gives a reason. -/
def detail (reason : Value) : Value := .object [("detail", reason)]

/-- One step of a path as a loose value. -/
def stepValue : Step → Value
  | .field name => .text name
  | .item index => .int index

/-- What is added to the description of a problem. -/
def context : Problem → Fields
  | .emptyText => [("ctx", .object [("min_length", .int 1)])]
  | .refused reason => [("ctx", .object [("error", .text reason)])]
  | _ => []

/-- The description of an issue in a body. -/
def issueValue (issue : Issue) : Value :=
  .object ([("type", .text issue.problem.code),
    ("loc", .list (.text "body" :: issue.path.map stepValue)),
    ("msg", .text issue.problem.message), ("input", issue.offender)] ++ context issue.problem)

/-- The description of a body that is no JSON. -/
def malformedValue (offset : Nat) (flaw : Json.Flaw) : Value :=
  .object [("type", .text "json_invalid"), ("loc", .list [.text "body", .int offset]),
    ("msg", .text "JSON decode error"), ("input", .object []),
    ("ctx", .object [("error", .text flaw.message)])]

end MeetDesk.Http
