import MeetDesk.Archive.Writer
import MeetDesk.Participant
import MeetDesk.Store

/-!
# What a desk leaves behind

Everything around a desk that its runs can see or change: the prompts that the agents have received,
the calls that the store has received, the steps that were reported, and the archive.
-/

namespace MeetDesk

/-- The prompts that the agents have received, each agent's latest one last. -/
structure Inbox where
  /-- The supervisor's prompts. -/
  supervisor : List String := []
  /-- The analyst's prompts. -/
  analyst : List String := []
  /-- The summary agent's prompts. -/
  summary : List String := []
  deriving DecidableEq, Repr

namespace Inbox

/-- The prompts of a participant's agent. -/
def of (i : Inbox) : Participant → List String
  | .supervisor => i.supervisor
  | .analyst => i.analyst
  | .summary => i.summary

/-- Delivers a prompt. -/
def receive (i : Inbox) (p : Participant) (prompt : String) : Inbox :=
  match p with
  | .supervisor => { i with supervisor := i.supervisor ++ [prompt] }
  | .analyst => { i with analyst := i.analyst ++ [prompt] }
  | .summary => { i with summary := i.summary ++ [prompt] }

end Inbox

/-- A step that is reported: a turn of a participant, at its start or at its end. -/
structure Event where
  /-- The number of the run, from zero. -/
  run : Nat
  /-- Whose turn it is. -/
  participant : Participant
  /-- Whether the turn has ended. -/
  finished : Bool
  deriving DecidableEq, Repr

/-- What runs can see or change. -/
structure World where
  /-- The prompts that the agents have received. -/
  inbox : Inbox := {}
  /-- The calls that the store has received. -/
  calls : List StoreCall := []
  /-- The reported steps, the latest one last. -/
  events : List Event := []
  /-- The number of runs that were started. -/
  runs : Nat := 0
  /-- The archive, and the calls to append that it has received. -/
  ledger : Ledger := {}

end MeetDesk
