import MeetDesk.Form.Problem

/-!
# Checked values

The outcome of reading a value: the value, or all that is wrong with it. Two outcomes are put
together with `<*>`, which keeps the issues of both sides in order, so a form reports all its
problems at once and in the order of its fields.
-/

namespace MeetDesk

/-- A value that passed its checks, or the issues that it has. -/
inductive Checked (α : Type) where
  /-- All checks were passed. -/
  | valid (a : α)
  /-- Some were not. -/
  | invalid (issues : List Issue)

namespace Checked

variable {α β : Type}

/-- A single problem with a value. -/
def fault (problem : Problem) (offender : Value) : Checked α := invalid [⟨problem, [], offender⟩]

/-- Applies a function to the value. -/
def map (f : α → β) : Checked α → Checked β
  | valid a => valid (f a)
  | invalid issues => invalid issues

/-- Puts two outcomes together; issues of both sides are kept. -/
def apply : Checked (α → β) → Checked α → Checked β
  | valid f, valid a => valid (f a)
  | valid _, invalid issues => invalid issues
  | invalid issues, valid _ => invalid issues
  | invalid issues, invalid more => invalid (issues ++ more)

/-- The outcome as seen from one step further out. -/
def under (step : Step) : Checked α → Checked α
  | valid a => valid a
  | invalid issues => invalid (issues.map (Issue.under step))

/-- The value, if there are no issues. -/
def toOption : Checked α → Option α
  | valid a => some a
  | invalid _ => none

instance : Applicative Checked where
  pure := valid
  seq f a := apply f (a ())
  map := map

/-- What was put together is valid only if both sides are. -/
theorem seq_eq_valid {f : Checked (α → β)} {a : Checked α} {y : β} (h : (f <*> a) = .valid y) :
    ∃ g x, f = .valid g ∧ a = .valid x ∧ g x = y := by
  cases f with
  | invalid issues => cases a <;> cases h
  | valid g =>
    cases a with
    | invalid issues => cases h
    | valid x =>
      cases h
      exact ⟨g, x, rfl, rfl, rfl⟩

theorem map_eq_valid {f : α → β} {a : Checked α} {y : β} (h : f <$> a = .valid y) :
    ∃ x, a = .valid x ∧ f x = y := by
  cases a with
  | invalid issues => cases h
  | valid x =>
    cases h
    exact ⟨x, rfl, rfl⟩

theorem eq_valid_of_toOption {a : Checked α} {x : α} (h : a.toOption = some x) : a = .valid x := by
  cases a with
  | invalid issues => cases h
  | valid x' => rw [Option.some.inj h]

theorem under_eq_valid {step : Step} {a : Checked α} {x : α} (h : a.under step = .valid x) :
    a = .valid x := by
  cases a with
  | invalid issues => cases h
  | valid x' =>
    cases h
    rfl

end Checked

end MeetDesk
