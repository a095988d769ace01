import MeetDesk.Form.Slot
import MeetDesk.Inquiry

/-!
# Requests

What starts a run: a question, the thread that it belongs to, and who asks it.
-/

namespace MeetDesk

/-- A request for a run. -/
structure RunRequest where
  /-- The question; it is not empty. -/
  input : String
  /-- The thread that the question belongs to. -/
  threadId : String
  /-- Who asks, if known. -/
  userId? : Option String := none
  /-- The message that holds the question, if known. -/
  messageId? : Option String := none

namespace RunRequest

/-- The slot of the question. -/
def inputSlot : Slot String := .required (.single "input") Coercion.nonEmptyText

/-- The slot of the thread. -/
def threadSlot : Slot String := .required ⟨"thread_id", "threadId"⟩ Coercion.text

/-- The slot of who asks. -/
def userSlot : Slot (Option String) :=
  .optional ⟨"user_id", "userId"⟩ none (Coercion.orNull Coercion.text)

/-- The slot of the message. -/
def messageSlot : Slot (Option String) :=
  .optional ⟨"message_id", "messageId"⟩ none (Coercion.orNull Coercion.text)

/-- Reads a request from the fields of an object. -/
def ofFields (fields : Fields) : Checked RunRequest :=
  RunRequest.mk <$> inputSlot.fill fields <*> threadSlot.fill fields <*> userSlot.fill fields
    <*> messageSlot.fill fields

/-- Reads a request. -/
def read : Coercion.Reader RunRequest := Coercion.form "AgentRunRequest" ofFields

/-- The request as a loose value, with its fields under the given naming. -/
def toValue (naming : Naming) (r : RunRequest) : Value :=
  .object [(inputSlot.label.under naming, .text r.input),
    (threadSlot.label.under naming, .text r.threadId),
    (userSlot.label.under naming, .ofText? r.userId?),
    (messageSlot.label.under naming, .ofText? r.messageId?)]

/-- The inquiry that a request opens. -/
def toInquiry (r : RunRequest) : Inquiry :=
  { question := r.input, userId? := r.userId?, threadId? := some r.threadId,
    messageId? := r.messageId? }

end RunRequest

end MeetDesk
