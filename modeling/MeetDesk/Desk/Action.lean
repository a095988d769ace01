import MeetDesk.Agent
import MeetDesk.Desk.Error
import MeetDesk.Desk.Roster
import MeetDesk.Tool.Call

/-!
# What a participant does with its agent's text

The supervisor's text and the analyst's text are searched for a call to their one tool, which is then
carried out. The summary agent's text is the answer.
-/

namespace MeetDesk

/-- What became of a turn. -/
structure Action where
  /-- The turn, or why there is none. -/
  turn : Except RunError Turn
  /-- The docket afterwards. -/
  docket : Docket
  /-- All calls that the store has received. -/
  calls : List StoreCall

namespace Action

/-- The answer when the summary agent writes none. -/
def fallbackAnswer : String :=
  "Sorry, I wasn't able to put together an answer this time. Please try asking again."

/-- A turn of the supervisor with the given text. -/
def supervisor (room : Room) (index : Int) (text : String) (d : Docket) (calls : List StoreCall) :
    Action :=
  match ToolCall.find room Participant.supervisor.tools text with
  | .error limit => ⟨.error (.unreadable limit), d, calls⟩
  | .ok none => ⟨.ok { index, participant := .supervisor, text }, d, calls⟩
  | .ok (some call) =>
    let routed := RouteTool.run room (.object call.arguments) d
    match routed.1 with
    | .error fault => ⟨.error (.fault fault), routed.2, calls⟩
    | .ok output =>
      ⟨.ok { index, participant := .supervisor, text, tool? := some call.name,
             arguments := call.arguments, output }, routed.2, calls⟩

/-- A turn of the analyst with the given text. -/
def analyst (room : Room) (source : ResultsTool.Source) (index : Int) (text : String) (d : Docket)
    (calls : List StoreCall) : Action :=
  match ToolCall.find room Participant.analyst.tools text with
  | .error limit => ⟨.error (.unreadable limit), d, calls⟩
  | .ok none => ⟨.ok { index, participant := .analyst, text }, d, calls⟩
  | .ok (some call) =>
    let outcome := ResultsTool.run room source (.object call.arguments) d calls
    match outcome.returned with
    | .error fault => ⟨.error (.fault fault), outcome.docket, outcome.calls⟩
    | .ok output =>
      ⟨.ok { index, participant := .analyst, text, tool? := some call.name,
             arguments := call.arguments, output }, outcome.docket, outcome.calls⟩

/-- The answer that the summary agent's text makes. -/
def answerOf (text : String) : String :=
  let stripped := Text.strip text
  if stripped.isEmpty then fallbackAnswer else stripped

/-- A turn of the summary agent with the given text. -/
def summary (index : Int) (text : String) (d : Docket) (calls : List StoreCall) : Action :=
  ⟨.ok { index, participant := .summary, text := answerOf text }, d, calls⟩

/-- A turn of a participant whose agent wrote the given text. -/
def take (room : Room) (source : ResultsTool.Source) (p : Participant) (index : Int) (text : String)
    (d : Docket) (calls : List StoreCall) : Action :=
  match p with
  | .supervisor => supervisor room index text d calls
  | .analyst => analyst room source index text d calls
  | .summary => summary index text d calls

/-- A turn of a participant whose agent gave the given reply. -/
def ofReply (room : Room) (source : ResultsTool.Source) (p : Participant) (index : Int) (reply : Reply)
    (d : Docket) (calls : List StoreCall) : Action :=
  match reply.text with
  | .error fault => ⟨.error (.fault fault), d, calls⟩
  | .ok text => take room source p index text d calls

end Action

end MeetDesk
