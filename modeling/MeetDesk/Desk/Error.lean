import MeetDesk.Fault
import MeetDesk.Json.Error
import MeetDesk.Routing.Router

/-!
# Why a run fails

A run fails because the supervisor selects nobody, because its turns are used up, or because
somebody it relies on fails. A run that has a deadline can also be overdue.
-/

namespace MeetDesk

/-- Why a run has no result. -/
inductive RunError where
  /-- The supervisor's turn with this index selected nobody. -/
  | noRoute (index : Int)
  /-- The turns were used up; this was their number. -/
  | outOfTurns (turns : Nat)
  /-- An agent or the store failed. -/
  | fault (f : Fault)
  /-- A response holds JSON that exceeds a limit of the reader. -/
  | unreadable (limit : Json.Limit)
  /-- The deadline passed. -/
  | overdue
  deriving DecidableEq, Repr

namespace RunError

/-- The message for an error. -/
def message : RunError → String
  | noRoute index => Routing.violationMessage (toString index)
  | outOfTurns turns => budgetMessage (toString turns)
  | fault f => f.message
  | unreadable limit => limit.message
  | overdue => ""

/-- Whether the error ends the run on the spot, without waiting for anything. -/
def isAbrupt : RunError → Bool
  | fault f => f.isCancellation
  | overdue => true
  | _ => false

end RunError

end MeetDesk
