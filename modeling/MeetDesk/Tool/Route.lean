import MeetDesk.Inquiry
import MeetDesk.Room
import MeetDesk.Routing
import MeetDesk.Routing.Choice
import MeetDesk.Turn

/-!
# The routing tool

Records the supervisor's decision in the inquiry. A question that is not about powerlifting always
goes to the summary agent, whoever was named. A choice of the summary agent completes the inquiry in
the same update. A choice that selects nobody changes nothing, and neither does a call whose arguments
are no choice.
-/

namespace MeetDesk.RouteTool

/-- The name of the tool. -/
def name : String := "route_to_agent"

/-- The participant that a choice selects. -/
def target? (c : RouteChoice) : Option Participant :=
  if c.inDomain? = some false then some .summary else Routing.named? c.agent

/-- What a choice says about the domain. Whoever asks the analyst takes the question to be about
powerlifting. -/
def domainFlag? (c : RouteChoice) (target : Participant) : Option Bool :=
  c.inDomain?.or (if target = .analyst then some true else none)

/-- The update that records a choice. -/
def update (c : RouteChoice) (target : Participant) : Update :=
  { reasoning? := some c.reasoning?
    completed? := some (decide (target = .summary))
    inDomain? := (domainFlag? c target).map some }

/-- Carries out a choice: what the tool returns, and the docket afterwards. -/
def choose (c : RouteChoice) (d : Docket) : Value × Docket :=
  match target? c with
  | none => (failure ("unknown agent: " ++ c.agent), d)
  | some target => (.participant target, d.apply (update c target))

/-- Carries out a call with unchecked arguments. What is refused is shown in the log first, which can
fail. -/
def run (room : Room) (arguments : Value) (d : Docket) : Except Fault Value × Docket :=
  match RouteChoice.read arguments with
  | .valid c => (.ok (choose c d).1, (choose c d).2)
  | .invalid issues =>
    if room.Shows issues then (.ok (failure "invalid routing arguments"), d) else (.error .tooDeep, d)

end MeetDesk.RouteTool
