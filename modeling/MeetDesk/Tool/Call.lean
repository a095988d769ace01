import MeetDesk.Json.Reader
import MeetDesk.Room
import MeetDesk.Text.Blank

/-!
# Tool calls in free text

An agent is asked for a JSON object that names a tool and its arguments, and wraps it in whatever it
likes. The objects that a text may mean are tried in a fixed order: the whole text, then what stands
in fenced blocks, then the objects in the prose from left to right. The first that is a call to an
allowed tool counts.

What is malformed is passed over. A limit of the JSON reader is not: it ends the search with an
error, even if an earlier candidate would have been a call.
-/

namespace MeetDesk

/-- A call to a tool, with arguments that nobody has checked yet. -/
structure ToolCall where
  /-- The name of the tool. -/
  name : String
  /-- The arguments. -/
  arguments : Fields

namespace ToolCall

open Json (Limit)

/-- The mark around a fenced block. -/
def fence : List Char := ['\x60', '\x60', '\x60']

/-- The pieces of a text between fences. -/
def splitFences : List Char → List (List Char)
  | [] => [[]]
  | '\x60' :: '\x60' :: '\x60' :: rest => [] :: splitFences rest
  | c :: rest =>
    match splitFences rest with
    | [] => [[c]]
    | piece :: more => (c :: piece) :: more

/-- Every second piece, if another one follows it: what stands between an opening and a closing
fence. -/
def fenced : List (List Char) → List (List Char)
  | _ :: block :: next :: rest => block :: fenced (next :: rest)
  | _ => []

/-- A fenced block without the word that says what it holds. -/
def dropTag : List Char → List Char
  | 'j' :: 's' :: 'o' :: 'n' :: rest => rest
  | block => block

/-- The fenced blocks of a text, trimmed. -/
def blocks (s : List Char) : List (List Char) :=
  (fenced (splitFences s)).map fun block => Text.trim (dropTag block)

/-- The values that the given documents hold. Malformed ones are passed over. -/
def documents (room : Room) : List (List Char) → Except Limit (List Value)
  | [] => .ok []
  | document :: rest =>
    match Json.tolerate (Json.read room.document document) with
    | .error limit => .error limit
    | .ok value? =>
      match documents room rest with
      | .error limit => .error limit
      | .ok more => .ok (value?.toList ++ more)

/-- The objects in a text, from left to right. After an object the search goes on behind it; where
an opening brace starts no object, it goes on behind the brace. -/
def embedded (levels rounds : Nat) (s : List Char) : Except Limit (List Value) :=
  match _hs : s.dropWhile (· != '\x7b') with
  | [] => .ok []
  | brace :: rest =>
    match _hr : Json.readFront levels rounds (brace :: rest) with
    | .error (.malformed _ _) => embedded levels rounds rest
    | .error (.beyond limit) => .error limit
    | .ok (value, left) =>
      match embedded levels rounds left with
      | .error limit => .error limit
      | .ok more => .ok (value :: more)
termination_by s.length
decreasing_by
  · have := (List.dropWhile_sublist (l := s) (· != '\x7b')).length_le
    rw [_hs] at this
    simp only [List.length_cons] at this
    omega
  · have h1 := (List.dropWhile_sublist (l := s) (· != '\x7b')).length_le
    have h2 := Json.consumes_readFront levels rounds _ _ _ _hr
    rw [_hs] at h1
    omega

/-- The values that a text may mean, in the order in which they are tried. -/
def candidates (room : Room) (text : List Char) : Except Limit (List Value) := do
  let stripped := Text.trim text
  let whole ← documents room [stripped]
  let inFences ← documents room (blocks stripped)
  let inProse ← embedded room.prose stripped.length stripped
  return whole ++ inFences ++ inProse

/-- The names under which a call may name its tool, in the order in which they are tried. -/
def nameKeys : List String := ["tool", "tool_name", "name"]

/-- The tool that an object names: the first of the names that is given at all must be a text. -/
def toolNamed? (fields : Fields) : Option String :=
  match (nameKeys.filterMap (Fields.get? fields)).find? Value.isGiven with
  | some (.text name) => some name
  | _ => none

/-- The arguments that an object carries, if any. -/
def givenArguments (fields : Fields) : Value :=
  ((Fields.get? fields "arguments").or (Fields.get? fields "parameters")).getD (.object [])

/-- The arguments as fields: an object, or null for none. -/
def argumentFields? : Value → Option Fields
  | .object arguments => some arguments
  | .null => some []
  | _ => none

/-- Reads arguments, which may also come as a text that holds them. -/
def readArguments (room : Room) (v : Value) : Except Limit (Option Fields) :=
  match v with
  | .text s =>
    match Json.tolerate (Json.read room.document s.toList) with
    | .error limit => .error limit
    | .ok value? => .ok (value?.bind argumentFields?)
  | _ => .ok (argumentFields? v)

/-- The call that a value is, if it is one. -/
def ofValue (room : Room) (v : Value) : Except Limit (Option ToolCall) :=
  match v with
  | .object fields =>
    match toolNamed? fields with
    | none => .ok none
    | some name =>
      match readArguments room (givenArguments fields) with
      | .error limit => .error limit
      | .ok arguments? => .ok (arguments?.map fun arguments => ⟨name, arguments⟩)
  | _ => .ok none

/-- The first call to an allowed tool among values. -/
def first (room : Room) (allowed : List String) : List Value → Except Limit (Option ToolCall)
  | [] => .ok none
  | v :: rest =>
    match ofValue room v with
    | .error limit => .error limit
    | .ok none => first room allowed rest
    | .ok (some call) =>
      if allowed.contains call.name then .ok (some call) else first room allowed rest

/-- The call to an allowed tool that a text makes, if it makes one. -/
def find (room : Room) (allowed : List String) (text : String) : Except Limit (Option ToolCall) :=
  match candidates room text.toList with
  | .error limit => .error limit
  | .ok values => first room allowed values

end ToolCall

end MeetDesk
