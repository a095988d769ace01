import MeetDesk.Column

/-!
# Faults

What an agent, a store or an archive may fail with. The library never looks at a fault's wording;
its family alone decides who handles it and how its message is made.
-/

namespace MeetDesk

/-- The families of faults. -/
inductive FaultFamily where
  /-- The work was called off. Nobody handles it. -/
  | cancellation
  /-- Time ran out. -/
  | timeout
  /-- The system failed: a connection, a file. -/
  | system
  /-- The warehouse driver failed. -/
  | warehouse
  /-- Something was looked up that is not there; the detail names it. -/
  | lookup
  /-- A column was named that the table does not have; the detail names it. -/
  | column
  /-- A run used up its turns; the detail is their number. -/
  | budget
  /-- Any other failure. -/
  | ordinary
  deriving DecidableEq, Repr

/-- A failure of a collaborator. -/
structure Fault where
  /-- The family. -/
  family : FaultFamily
  /-- The word for this kind of failure. -/
  kind : String
  /-- What is said about it, if anything. -/
  detail? : Option String
  deriving DecidableEq, Repr

/-- The message for a run that used up its turns. -/
def budgetMessage (turns : String) : String :=
  "Run exceeded the turn budget of " ++ turns ++ " turns"

namespace Fault

/-- An ordinary failure with a message. -/
def ordinary (kind message : String) : Fault := ⟨.ordinary, kind, some message⟩

/-- The message of a fault. -/
def message (f : Fault) : String :=
  match f.detail? with
  | none => ""
  | some detail =>
    match f.family with
    | .lookup => Text.quoted detail
    | .column => Column.unknownMessage detail
    | .budget => budgetMessage detail
    | _ => detail

/-- Whether the work was called off. -/
def isCancellation (f : Fault) : Bool := f.family == .cancellation

end Fault

end MeetDesk
