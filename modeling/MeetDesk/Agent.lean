import MeetDesk.Fault
import MeetDesk.Value.Display

/-!
# Agents

An agent answers prompts. It is a function of all prompts that it has received so far, so two agents
that have seen the same give the same reply. A reply may take time before it arrives, and it may be a
fault. A response is a loose object: its text is taken from its `text` field if that is one, else from
the first piece of content in its messages that has one.
-/

namespace MeetDesk

/-- The answer of an agent to its latest prompt. -/
structure Reply where
  /-- The seconds that pass before it arrives; nothing if it is there at once. -/
  pause? : Option Float := none
  /-- The response, or why there is none. -/
  outcome : Except Fault Value

/-- An agent: its reply when it has received the given prompts, the latest one last. -/
abbrev Agent := List String → Reply

namespace Response

/-- The text of a value's `text` field, if it is a text that is not empty. -/
def ownText? (v : Value) : Option String :=
  ((v.field? "text").bind Value.text?).filter fun s => s != ""

/-- The name of the type of a part of a response: an object there is a bare record. -/
def partTypeName : Value → String
  | .object _ => "types.SimpleNamespace"
  | v => v.typeName

/-- The failure of a response with a value that is no sequence where one is needed. -/
def notSequence (v : Value) : Fault :=
  .ordinary "TypeError" ("'" ++ partTypeName v ++ "' object is not iterable")

/-- The parts of a field that holds a sequence. A field that is absent or not given has none, and
the characters of a text count as parts without fields, as do the items of a list of fixed length. An
object is given even if it has no fields, and is no sequence. -/
def parts (v : Value) (name : String) : Except Fault (List Value) :=
  match v.field? name with
  | none => .ok []
  | some (.list items) => .ok items
  | some (.tuple items) => .ok (items.map fun _ => .null)
  | some (.text _) => .ok []
  | some (.participant _) => .ok []
  | some (.bytes _) => .ok []
  | some (.object fields) => .error (notSequence (.object fields))
  | some other => if other.isGiven then .error (notSequence other) else .ok []

/-- The first text in the contents of messages. -/
def firstContent : List Value → Except Fault String
  | [] => .ok ""
  | message :: rest =>
    match parts message "contents" with
    | .error fault => .error fault
    | .ok contents =>
      match contents.findSome? ownText? with
      | some s => .ok s
      | none => firstContent rest

/-- The text of a response. -/
def text (v : Value) : Except Fault String :=
  match ownText? v with
  | some s => .ok s
  | none =>
    match parts v "messages" with
    | .error fault => .error fault
    | .ok messages => firstContent messages

end Response

/-- The text of a reply. -/
def Reply.text (r : Reply) : Except Fault String :=
  match r.outcome with
  | .error fault => .error fault
  | .ok response => Response.text response

end MeetDesk
