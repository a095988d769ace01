import MeetDesk.Value
import MeetDesk.Text.Blank
import MeetDesk.Text.Case

/-!
# Routing targets

The participants that the supervisor can select, and the names by which it may select them. A name
counts whatever its case and the blanks around it. The supervisor itself is no target.
-/

namespace MeetDesk.Routing

/-- The accepted names, with the participants that they stand for. -/
def targets : List (String × Participant) :=
  [(Participant.analyst.address, .analyst), ("meetQueryAgent", .analyst),
   (Participant.summary.address, .summary), ("answerAgent", .summary)]

/-- The spelling by which names are compared. -/
def canonical (s : String) : List Char := Text.fold (Text.trim s.toList)

/-- The participant that a name stands for. -/
def named? (s : String) : Option Participant :=
  (targets.find? fun entry => Text.fold entry.1.toList == canonical s).map Prod.snd

/-- The participant that a value selects. -/
def resolve? : Value → Option Participant
  | .participant p => if p = .supervisor then none else some p
  | .text s => named? s
  | _ => none

/-- No value selects the supervisor. -/
theorem resolve?_ne_supervisor (v : Value) : resolve? v ≠ some .supervisor := by
  have key : ∀ entry ∈ targets, entry.2 ≠ .supervisor := by decide
  intro h
  cases v with
  | participant p => cases p <;> simp [resolve?] at h
  | text s =>
    simp only [resolve?, named?, Option.map_eq_some_iff] at h
    obtain ⟨entry, hfind, hp⟩ := h
    exact key entry (List.mem_of_find?_eq_some hfind) hp
  | _ => simp [resolve?] at h

end MeetDesk.Routing
