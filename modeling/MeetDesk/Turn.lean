import MeetDesk.Value.Display

/-!
# Turns

A turn is what one participant did: the text it wrote and, if it called a tool, the call and what the
tool returned. The turns of a run so far are its transcript. A tool that fails returns an object with
an `error` field.
-/

namespace MeetDesk

/-- What a participant did in one turn. -/
structure Turn where
  /-- The number of the turn: in a run, its place from zero. -/
  index : Int
  /-- Whose turn it was. -/
  participant : Participant
  /-- The text that the participant wrote. -/
  text : String := ""
  /-- The tool that was called, if any. -/
  tool? : Option String := none
  /-- The arguments of the call. -/
  arguments : Fields := []
  /-- What the tool returned. -/
  output : Value := .null

/-- The turns of a run, in order. -/
abbrev Transcript := List Turn

/-- What a tool returns if it fails. -/
def failure (message : String) : Value := .object [("error", .text message)]

namespace Turn

/-- The message of a failed tool. -/
def toolError? (t : Turn) : Option String := (t.output.field? "error").map Value.display

/-- The turn as fields of an object. -/
def toFields (t : Turn) : Fields :=
  [("index", .int t.index), ("agent", .text t.participant.address), ("text", .text t.text),
   ("tool_name", .ofText? t.tool?), ("tool_arguments", .object t.arguments),
   ("tool_output", t.output)]

/-- The turn as a loose value. -/
def toValue (t : Turn) : Value := .object t.toFields

end Turn

/-- The rows of a value that a tool returned, if it is a list of rows. -/
def Value.rows? : Value → Option (List Value)
  | .list rows => some rows
  | _ => none

end MeetDesk
