import MeetDesk.Decimal.Binary
import MeetDesk.Fault

/-!
# The progress log

Writes a line when a step of a run starts and one when it ends, the latter with the time that it took.
A start is remembered under the run and the step, so runs that overlap do not disturb each other. A
step that ends without a start has no duration.
-/

namespace MeetDesk

/-- What a start is remembered under: the run, if it is known, and the step. -/
abbrev StepKey := Option String × String

/-- The log with the starts that have not ended yet. -/
structure ProgressLog where
  /-- The seconds on the clock when a step started. -/
  started : List (StepKey × Float) := []
  /-- The lines, the latest one last. -/
  lines : List String := []

namespace ProgressLog

/-- How a run is named in a line. -/
def runLabel : Option String → String
  | none => "-"
  | some run => if run.isEmpty then "-" else run

/-- Whole milliseconds between two readings of the clock. -/
def milliseconds (start now : Float) : Except Fault Int :=
  match Decimal.Reading.ofFloat ((now - start) * 1000) with
  | .nan => .error (.ordinary "ValueError" "cannot convert float NaN to integer")
  | .infinite _ => .error (.ordinary "OverflowError" "cannot convert float infinity to integer")
  | .finite negative d => .ok (Decimal.signed negative d.floor)

/-- Forgets the start of a step. -/
def forget (log : ProgressLog) (key : StepKey) : ProgressLog :=
  { log with started := log.started.filter fun entry => entry.1 != key }

/-- Adds a line. -/
def write (log : ProgressLog) (line : String) : ProgressLog :=
  { log with lines := log.lines ++ [line] }

/-- Notes that a step starts. -/
def start (log : ProgressLog) (key : StepKey) (now : Float) : ProgressLog :=
  let remembered := { log.forget key with started := (log.forget key).started ++ [(key, now)] }
  remembered.write ("[" ++ runLabel key.1 ++ "] Step started: " ++ key.2)

/-- The text of a duration. -/
def durationText : Option Int → String
  | some n => toString n
  | none => "None"

/-- The line for the end of a step. -/
def finishLine (key : StepKey) (duration? : Option Int) : String :=
  "[" ++ runLabel key.1 ++ "] Step completed: " ++ key.2 ++ " (duration_ms=" ++
    durationText duration? ++ ")"

/-- Notes that a step ends. -/
def finish (log : ProgressLog) (key : StepKey) (now : Float) : Except Fault ProgressLog :=
  match log.started.lookup key with
  | none => .ok (log.write (finishLine key none))
  | some start =>
    match milliseconds start now with
    | .ok n => .ok ((log.forget key).write (finishLine key (some n)))
    | .error fault => .error fault

end ProgressLog

end MeetDesk
