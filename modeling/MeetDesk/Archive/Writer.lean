import MeetDesk.Archive

/-!
# The archive's writer

A run does not wait for the archive. It submits what is to be appended to a writer, which attempts
the appends one after the other while the run waits for something else. An append that fails is
passed over. A run that ends waits for its writer; a run that is cancelled drops what has not been
attempted yet.

An attempt has two sides. The archive receives a call from the writer, which is kept on its ledger, and
then it carries the call out or fails.
-/

namespace MeetDesk

/-- A call to append to an archive: the thread, a message of the user if there is one, and turns. -/
structure AppendCall where
  /-- The thread. -/
  thread : String
  /-- The message of the user. -/
  message? : Option String
  /-- The turns. -/
  turns : List Turn

/-- What is to be appended to a thread. -/
structure Submission where
  /-- The message of the user, if the submission has one. -/
  message? : Option String := none
  /-- The turns. -/
  turns : List Turn := []

/-- How the archive of a desk behaves. -/
structure ArchivePolicy where
  /-- Whether no thread can be created. -/
  refusesThreads : Bool := false
  /-- Whether the latest of the calls to append fails, given all that were received. -/
  refusesAppend : List AppendCall → Bool := fun _ => false

/-- The writer of a run. -/
structure Writer where
  /-- The thread that is written to. -/
  thread : String
  /-- What has not been attempted yet, in the order of submission. -/
  queue : List Submission := []

namespace Writer

/-- Takes a submission. -/
def submit (w : Writer) (s : Submission) : Writer := { w with queue := w.queue ++ [s] }

end Writer

/-- The call by which a submission is appended to a thread. -/
def Submission.toCall (thread : String) (s : Submission) : AppendCall :=
  ⟨thread, s.message?, s.turns⟩

/-- An archive together with the calls to append that it has received. -/
structure Ledger where
  /-- The archive. -/
  archive : Archive := {}
  /-- The calls, those that failed included, the latest one last. -/
  received : List AppendCall := []

namespace Ledger

/-- A call is received. -/
def receive (l : Ledger) (call : AppendCall) : Ledger := { l with received := l.received ++ [call] }

/-- The call that was received last is carried out. A failure leaves the archive as the call left it. -/
def settle (policy : ArchivePolicy) (l : Ledger) (call : AppendCall) : Ledger :=
  if policy.refusesAppend l.received then l
  else { l with archive := (l.archive.append call.thread call.message? call.turns).2 }

/-- Attempts one append: the archive receives the call for it, and then carries it out or fails. -/
def attempt (policy : ArchivePolicy) (thread : String) (l : Ledger) (s : Submission) : Ledger :=
  (l.receive (s.toCall thread)).settle policy (s.toCall thread)

/-- Attempts all that a writer has in its queue, in order. -/
def drain (policy : ArchivePolicy) (l : Ledger) (w : Writer) : Ledger :=
  w.queue.foldl (attempt policy w.thread) l

end Ledger

end MeetDesk
