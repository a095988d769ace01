import MeetDesk.Archive.Entry
import MeetDesk.Desk
import MeetDesk.Form.Slot

/-!
# Reports

The two bodies that are sent to a caller on success: what a run came to, and what a thread holds.
Both can be read back.
-/

namespace MeetDesk

/-- What a run came to. -/
structure RunReport where
  /-- The word for how the run ended. -/
  status : String
  /-- The answer. -/
  answer : String
  /-- The thread that the request named. -/
  threadId? : Option String
  /-- The turns, as objects. -/
  turns : List Fields
  /-- The number of rows that the latest query returned. -/
  resultCount : Int

/-- The word for a run that was completed. -/
def completedStatus : String := "completed"

/-- The word for a run that failed. -/
def failedStatus : String := "failed"

namespace RunReport

/-- The slot of the status. -/
def statusSlot : Slot String := .required (.single "status") Coercion.text

/-- The slot of the answer. -/
def answerSlot : Slot String := .required (.single "answer") Coercion.text

/-- The slot of the thread. -/
def threadSlot : Slot (Option String) :=
  .optional ⟨"thread_id", "threadId"⟩ none (Coercion.orNull Coercion.text)

/-- The slot of the turns. -/
def turnsSlot : Slot (List Fields) :=
  .optional (.single "turns") [] (Coercion.list Coercion.object)

/-- The slot of the number of rows. -/
def countSlot : Slot Int := .optional ⟨"result_count", "resultCount"⟩ 0 Coercion.integer

/-- Reads a report. -/
def read : Coercion.Reader RunReport := Coercion.form "RunResponse" fun fields =>
  RunReport.mk <$> statusSlot.fill fields <*> answerSlot.fill fields <*> threadSlot.fill fields
    <*> turnsSlot.fill fields <*> countSlot.fill fields

/-- The report as a loose value, with its fields under the given naming. -/
def toValue (naming : Naming) (r : RunReport) : Value :=
  .object [(statusSlot.label.under naming, .text r.status),
    (answerSlot.label.under naming, .text r.answer),
    (threadSlot.label.under naming, .ofText? r.threadId?),
    (turnsSlot.label.under naming, .list (r.turns.map Value.object)),
    (countSlot.label.under naming, .int r.resultCount)]

/-- The report on a completed run. -/
def ofResult (r : RunResult) : RunReport :=
  { status := completedStatus, answer := r.answer, threadId? := r.threadId?,
    turns := r.turns.map Turn.toFields, resultCount := r.results.length }

end RunReport

/-- What a thread holds. -/
structure ThreadReport where
  /-- The name of the thread. -/
  threadId : String
  /-- Its entries, the oldest first. -/
  entries : List Fields

namespace ThreadReport

/-- The slot of the thread. -/
def threadSlot : Slot String := .required ⟨"thread_id", "threadId"⟩ Coercion.text

/-- The slot of the entries. -/
def entriesSlot : Slot (List Fields) :=
  .optional (.single "entries") [] (Coercion.list Coercion.object)

/-- Reads a report. -/
def read : Coercion.Reader ThreadReport := Coercion.form "ThreadHistoryResponse" fun fields =>
  ThreadReport.mk <$> threadSlot.fill fields <*> entriesSlot.fill fields

/-- The report as a loose value, with its fields under the given naming. -/
def toValue (naming : Naming) (r : ThreadReport) : Value :=
  .object [(threadSlot.label.under naming, .text r.threadId),
    (entriesSlot.label.under naming, .list (r.entries.map Value.object))]

end ThreadReport

end MeetDesk
