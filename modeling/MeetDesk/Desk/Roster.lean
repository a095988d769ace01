import MeetDesk.Participant
import MeetDesk.Text.Quoted
import MeetDesk.Tool.Results
import MeetDesk.Tool.Route

/-!
# Rosters

Before a desk opens, its roster is checked: every participant must be there, each under its own
address, and there must be turns to take.
-/

namespace MeetDesk

/-- The tools that a participant may call. -/
def Participant.tools : Participant → List String
  | supervisor => [RouteTool.name]
  | analyst => [ResultsTool.name]
  | summary => []

/-- Who is registered under which key. A key that is registered twice keeps its place and goes to
the later one. -/
abbrev Roster := List (Participant × Participant)

/-- What is wrong with a roster. -/
inductive RosterError where
  /-- Some participants are missing. -/
  | missing (participants : List Participant)
  /-- A participant is registered under another one's address. -/
  | misplaced (participant key : Participant)
  /-- There are no turns to take. -/
  | noTurns
  deriving DecidableEq, Repr

/-- The message for an error. -/
def RosterError.message : RosterError → String
  | missing participants =>
    "Missing participants: " ++ String.intercalate ", " (participants.map Participant.address)
  | misplaced participant key =>
    "Participant " ++ Text.quoted participant.address ++ " registered as " ++
      Text.quoted key.address
  | noTurns => "max_turns must be at least 1"

namespace Roster

/-- Registers a participant under a key. -/
def put (r : Roster) (key participant : Participant) : Roster :=
  match r with
  | [] => [(key, participant)]
  | (k, p) :: rest =>
    if k = key then (k, participant) :: rest else (k, p) :: Roster.put rest key participant

/-- The roster that results from registering one participant after the other. -/
def ofPairs (pairs : List (Participant × Participant)) : Roster :=
  pairs.foldl (fun r pair => put r pair.1 pair.2) []

/-- The roster on which everybody is registered as it should be. -/
def full : Roster := Participant.all.map fun p => (p, p)

/-- The participants that are not registered. -/
def missing (r : Roster) : List Participant :=
  Participant.all.filter fun p => !(r.any fun entry => entry.1 == p)

/-- Checks a roster and a number of turns. -/
def check (r : Roster) (maxTurns : Int) : Except RosterError Unit :=
  if r.missing ≠ [] then .error (.missing r.missing)
  else
    match r.find? fun entry => entry.1 != entry.2 with
    | some (key, participant) => .error (.misplaced participant key)
    | none => if maxTurns < 1 then .error .noTurns else .ok ()

end Roster

end MeetDesk
