import MeetDesk.Turn

/-!
# Entries of a thread

What is kept of a conversation: what the user asked, and the turns of the run that answered. A turn
is kept as its record, in the form in which it is shown. The time at which an entry was made is left out:
nobody reads it.
-/

namespace MeetDesk

/-- An entry of a thread. -/
inductive Entry where
  /-- A message of the user. -/
  | user (content : String)
  /-- The record of a participant's turn. -/
  | turn (record : Fields)

/-- The entry as fields of an object. -/
def Entry.toFields : Entry → Fields
  | user content => [("role", .text "user"), ("content", .text content)]
  | turn record => ("role", .text "agent") :: record

/-- The entry as a loose value. -/
def Entry.toValue (e : Entry) : Value := .object e.toFields

/-- The entries for a message of the user, if there is one, and for the turns after it. -/
def Entry.ofRun (message? : Option String) (turns : List Turn) : List Entry :=
  (message?.map Entry.user).toList ++ turns.map fun t => Entry.turn t.toFields

end MeetDesk
