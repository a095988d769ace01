import MeetDesk.Inquiry
import MeetDesk.Routing
import MeetDesk.Turn

/-!
# Who goes next

While nobody is scheduled, a completed inquiry is done and any other one goes to the supervisor. After
a turn of the supervisor, the participant that its tool returned goes next.
-/

namespace MeetDesk.Routing

/-- Who goes next when nobody is scheduled. -/
def next? (q : Inquiry) : Option Participant := if q.completed then none else some .supervisor

/-- Whether a turn called a tool by a name. -/
def calledTool (t : Turn) : Bool :=
  match t.tool? with
  | none => false
  | some name => !name.isEmpty

/-- Whom a turn of the supervisor selected, if anybody. -/
def selected? (t : Turn) : Option Participant :=
  if calledTool t then resolve? t.output else none

/-- The message for a turn that selected nobody. -/
def violationMessage (index : String) : String :=
  "Supervisor turn " ++ index ++ " did not select a valid next agent"

end MeetDesk.Routing
