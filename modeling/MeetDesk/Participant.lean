/-!
# Participants

The three parties to a conversation: the supervisor decides who speaks next, the analyst queries
the results table, and the summary agent writes the answer.
-/

namespace MeetDesk

/-- A party to the conversation. -/
inductive Participant where
  /-- Decides who speaks next. -/
  | supervisor
  /-- Turns the question into a query of the results table. -/
  | analyst
  /-- Writes the answer. -/
  | summary
  deriving DecidableEq, Repr

namespace Participant

/-- All participants, in their fixed order. -/
def all : List Participant := [supervisor, analyst, summary]

/-- The name under which a participant is addressed. -/
def address : Participant → String
  | supervisor => "Supervisor"
  | analyst => "Meet performance analyst"
  | summary => "Meet Summary Agent"

/-- The symbolic name that stands for a participant in a message. -/
def symbol : Participant → String
  | supervisor => "AgentName.SUPERVISOR"
  | analyst => "AgentName.MEET_ANALYST"
  | summary => "AgentName.MEET_SUMMARY"

/-- The participant with a given address. -/
def ofAddress? (s : String) : Option Participant := all.find? fun p => p.address == s

theorem mem_all (p : Participant) : p ∈ all := by cases p <;> decide

end Participant

end MeetDesk
