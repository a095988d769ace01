import MeetDesk.Desk
import MeetDesk.Proofs.Desk.Action

/-!
# The course of a run

What one turn can do to a run, which runs the loop comes to, and how it ends. Every statement about
whole runs goes through `Desk.Reaches` (an invariant that a turn preserves holds wherever the loop
comes to) and `Desk.loop_ends` (the loop ends in one of three ways).

The archive and the clock of a run play no part in any of this: `Run.core` forgets them.
-/

namespace MeetDesk

theorem eq_ok_of_toOption {ε α : Type} {x : Except ε α} {a : α} (h : x.toOption = some a) :
    x = .ok a := by
  cases x with
  | error e => cases h
  | ok a' => rw [Option.some.inj h]

/-! ## What does not depend on the archive and the clock -/

/-- A run without its archive and its clock. -/
def Run.core (r : Run) : Run :=
  { r with world := { r.world with ledger := {} }, writer? := none, left? := none, waited := false }

/-- The prompt that a participant gets if it goes next. -/
def Run.promptFor (r : Run) (p : Participant) : String :=
  Prompt.build p r.docket.inquiry r.transcript

/-- A run in which an action has been taken. -/
def Run.perform (r : Run) (a : Action) : Run :=
  { r with docket := a.docket, world := { r.world with calls := a.calls } }

/-- What does not depend on the archive and the clock is the same in runs that differ in these only. -/
theorem Run.eq_of_core {β : Sort _} (part : Run → β) (hpart : ∀ r, part r.core = part r) {r r' : Run}
    (h : r.core = r'.core) : part r = part r' := by
  rw [← hpart r, h, hpart r']

theorem Run.core_perform {r r' : Run} (h : r.core = r'.core) (a : Action) :
    (r.perform a).core = (r'.perform a).core :=
  Run.eq_of_core (fun r => (r.perform a).core) (fun _ => rfl) h

/-- The answer is the text of the last turn, if that is the summary agent's. -/
theorem Run.answerIn_concat {ts : Transcript} {t : Turn} (h : t.participant = .summary) :
    Run.answerIn (ts ++ [t]) = t.text := by
  have hfind : (ts ++ [t]).reverse.find? (fun t => t.participant == .summary) = some t := by
    rw [List.reverse_append, List.reverse_singleton, List.singleton_append]
    exact List.find?_cons_of_pos (by simp [h])
  unfold Run.answerIn
  rw [hfind]
  rfl

namespace Desk

/-- What a participant's agent replies if it goes next. -/
def reply (desk : Desk) (r : Run) (p : Participant) : Reply :=
  desk.agent p ((r.world.inbox.receive p (r.promptFor p)).of p)

/-- What becomes of the turn of a participant that goes next. -/
def action (desk : Desk) (r : Run) (p : Participant) : Action :=
  Action.ofReply desk.room desk.source p r.transcript.length (desk.reply r p) r.docket r.world.calls

variable {desk : Desk}

theorem core_catchUp (desk : Desk) (r : Run) : (desk.catchUp r).core = r.core := by
  unfold catchUp
  split <;> rfl

theorem left?_catchUp (r : Run) : (desk.catchUp r).left? = r.left? := by
  unfold catchUp
  split <;> rfl

/-- Waiting takes time and lets the writer catch up; it does nothing else. -/
theorem core_wait (desk : Desk) (r : Run) (pause? : Option Float) :
    (desk.wait r pause?).2.core = r.core := by
  unfold wait
  cases pause? with
  | none => rfl
  | some seconds =>
    simp only
    split
    · exact core_catchUp desk r
    · exact core_catchUp desk r

/-- Who has no deadline is never overdue. -/
theorem wait_of_left?_eq_none (desk : Desk) {r : Run} (h : r.left? = none)
    (pause? : Option Float) :
    (desk.wait r pause?).1 = .ok () ∧ (desk.wait r pause?).2.left? = none := by
  unfold wait
  cases pause? with
  | none => exact ⟨rfl, h⟩
  | some seconds =>
    have hc : (desk.catchUp r).left? = none := by rw [left?_catchUp, h]
    simp [Run.isOverdueAfter, Run.isPressed, hc]

/-- A pause that is not waited for to its end is cut short by the deadline. -/
theorem wait_error {r r' : Run} {pause? : Option Float} {e : RunError}
    (h : desk.wait r pause? = (.error e, r')) : e = .overdue := by
  unfold wait at h
  cases pause? with
  | none => simp at h
  | some seconds =>
    simp only at h
    split at h
    · simp only [Prod.mk.injEq, Except.error.injEq] at h
      exact h.1.symm
    · simp at h

/-! ## A turn -/

/-- A participant that acts is prompted. Then either the deadline passes, or its action is taken. -/
theorem act_cases (desk : Desk) (r : Run) (p : Participant) :
    (r.left? ≠ none ∧ (desk.act r p).1 = .error .overdue ∧
      (desk.act r p).2.core = (r.deliver p (r.promptFor p)).core) ∨
    ((desk.act r p).1 = (desk.action r p).turn ∧
      (r.left? = none → (desk.act r p).2.left? = none) ∧
      (desk.act r p).2.core = ((r.deliver p (r.promptFor p)).perform (desk.action r p)).core) := by
  have hcore := core_wait desk (r.deliver p (r.promptFor p)) (desk.reply r p).pause?
  have hnone : r.left? = none → _ := fun h => wait_of_left?_eq_none desk
    (show (r.deliver p (r.promptFor p)).left? = none from h) (desk.reply r p).pause?
  unfold act
  dsimp only
  split
  · rename_i e r' hw
    change desk.wait (r.deliver p (r.promptFor p)) (desk.reply r p).pause? = _ at hw
    rw [hw] at hcore hnone
    obtain rfl := wait_error hw
    exact Or.inl ⟨fun hleft => absurd (hnone hleft).1 (by simp), rfl, hcore⟩
  · rename_i r' hw
    change desk.wait (r.deliver p (r.promptFor p)) (desk.reply r p).pause? = _ at hw
    rw [hw] at hcore hnone
    -- The writer may have caught up in the meantime, but the action reads nothing of the archive.
    have haction : Action.ofReply desk.room desk.source p r'.transcript.length (desk.reply r p) r'.docket
        r'.world.calls = desk.action r p := by
      have hsame := Run.eq_of_core (fun s => Action.ofReply desk.room desk.source p s.transcript.length
        (desk.reply r p) s.docket s.world.calls) (fun _ => rfl) hcore
      exact hsame
    refine Or.inr ⟨congrArg Action.turn haction, fun hleft => (hnone hleft).2, ?_⟩
    rw [← haction]
    exact Run.core_perform hcore _

/-- The action of a participant is one of those that it can take. -/
theorem action_acts (desk : Desk) (r : Run) (p : Participant) :
    Acts r.transcript.length r.docket p (desk.action r p).turn (desk.action r p).docket :=
  Action.ofReply_acts desk.room desk.source p r.transcript.length (desk.reply r p) r.docket r.world.calls

/-- A recorded turn is the turn of the participant whose action it was, under the next number. -/
theorem action_turn {r : Run} {p : Participant} {t : Turn} (h : (desk.action r p).turn = .ok t) :
    t.participant = p ∧ t.index = r.transcript.length := by
  have hacts := action_acts desk r p
  rw [h] at hacts
  generalize (desk.action r p).docket = d at hacts
  cases hacts with
  | routed place | undecided place | returned place | refused place | answered place => exact place

/-- What an action of the participant `p` makes of the run `r`, apart from its outcome. -/
structure Took (desk : Desk) (r : Run) (p : Participant) (r' : Run) : Prop where
  inbox : r'.world.inbox = r.world.inbox.receive p (r.promptFor p)
  docket : r'.docket = (desk.action r p).docket
  calls : r'.world.calls = (desk.action r p).calls
  left? : r.left? = none → r'.left? = none

/-- What a participant that is overtaken by the deadline makes of the run `r`. -/
structure Missed (r : Run) (p : Participant) (r' : Run) : Prop where
  inbox : r'.world.inbox = r.world.inbox.receive p (r.promptFor p)
  docket : r'.docket = r.docket
  calls : r'.world.calls = r.world.calls
  left? : r.left? ≠ none

/-- Reporting a turn changes nothing that the turn depends on, so a reported turn acts as an unreported
one. -/
theorem act_report (desk : Desk) (r : Run) (p : Participant) :
    (Missed r p (desk.act (r.report p false) p).2 ∧
      (desk.act (r.report p false) p).1 = .error .overdue ∧
      (desk.act (r.report p false) p).2.transcript = r.transcript) ∨
    (Took desk r p (desk.act (r.report p false) p).2 ∧
      (desk.act (r.report p false) p).1 = (desk.action r p).turn ∧
      (desk.act (r.report p false) p).2.transcript = r.transcript) := by
  rcases act_cases desk (r.report p false) p with ⟨hleft, hturn, hcore⟩ | ⟨hturn, hleft, hcore⟩
  all_goals
    have hinbox := Run.eq_of_core (fun r => r.world.inbox) (fun _ => rfl) hcore
    have hdocket := Run.eq_of_core Run.docket (fun _ => rfl) hcore
    have hcalls := Run.eq_of_core (fun r => r.world.calls) (fun _ => rfl) hcore
    have htranscript := Run.eq_of_core Run.transcript (fun _ => rfl) hcore
  · exact Or.inl ⟨⟨hinbox, hdocket, hcalls, hleft⟩, hturn, htranscript⟩
  · exact Or.inr ⟨⟨hinbox, hdocket, hcalls, hleft⟩, hturn, htranscript⟩

/-- Recording a turn leaves everything but the transcript and the schedule as it is. -/
theorem record_frame (r : Run) (t : Turn) :
    (record r t).2.transcript = r.transcript ++ [t] ∧ (record r t).2.docket = r.docket ∧
      (record r t).2.world = r.world ∧ (record r t).2.left? = r.left? := by
  unfold record
  dsimp only
  split
  · split <;> exact ⟨rfl, rfl, rfl, rfl⟩
  · exact ⟨rfl, rfl, rfl, rfl⟩

/-- A turn of the supervisor is followed by whom it selected; if it selected nobody, it cannot be
recorded. Any other turn is followed by nobody in particular. -/
theorem record_cases (r : Run) (t : Turn) :
    (t.participant = .supervisor ∧ Routing.selected? t = none ∧
      (record r t).1 = .error (.noRoute t.index)) ∨
    (t.participant = .supervisor ∧ (∃ q, Routing.selected? t = some q ∧
      (record r t).2.scheduled? = some q) ∧ (record r t).1 = .ok ()) ∨
    (t.participant ≠ .supervisor ∧ (record r t).2.scheduled? = none ∧
      (record r t).1 = .ok ()) := by
  unfold record
  dsimp only
  split
  · rename_i hp
    split
    · rename_i q hq
      exact Or.inr (Or.inl ⟨hp, ⟨q, hq, rfl⟩, rfl⟩)
    · rename_i hq
      exact Or.inl ⟨hp, hq, rfl⟩
  · rename_i hp
    exact Or.inr (Or.inr ⟨hp, rfl, rfl⟩)

/-- How a turn can come out. -/
inductive Outcome (desk : Desk) (r : Run) (p : Participant) : Except RunError Unit → Run → Prop
  /-- The deadline passes first. -/
  | missed {r' : Run} (missed : Missed r p r') (transcript : r'.transcript = r.transcript) :
      Outcome desk r p (.error .overdue) r'
  /-- The action fails. -/
  | raised {r' : Run} {e : RunError} (took : Took desk r p r')
      (turn : (desk.action r p).turn = .error e) (transcript : r'.transcript = r.transcript) :
      Outcome desk r p (.error e) r'
  /-- The supervisor selects nobody. -/
  | lost {r' : Run} {t : Turn} (took : Took desk r p r') (turn : (desk.action r p).turn = .ok t)
      (transcript : r'.transcript = r.transcript ++ [t]) (supervisor : p = .supervisor)
      (selected : Routing.selected? t = none) :
      Outcome desk r p (.error (.noRoute r.transcript.length)) r'
  /-- The supervisor selects a participant. -/
  | routed {r' : Run} {t : Turn} {q : Participant} (took : Took desk r p r')
      (turn : (desk.action r p).turn = .ok t) (transcript : r'.transcript = r.transcript ++ [t])
      (supervisor : p = .supervisor) (selected : Routing.selected? t = some q)
      (scheduled : r'.scheduled? = some q) : Outcome desk r p (.ok ()) r'
  /-- Another participant has had its turn. -/
  | spoke {r' : Run} {t : Turn} (took : Took desk r p r') (turn : (desk.action r p).turn = .ok t)
      (transcript : r'.transcript = r.transcript ++ [t]) (other : p ≠ .supervisor)
      (scheduled : r'.scheduled? = none) : Outcome desk r p (.ok ()) r'

/-- A turn comes out in one of these ways. -/
theorem turn_outcome (desk : Desk) (r : Run) (p : Participant) :
    Outcome desk r p (desk.turn r p).1 (desk.turn r p).2 := by
  unfold turn
  rcases act_report desk r p with ⟨hmissed, hturn, htranscript⟩ | ⟨htook, hturn, htranscript⟩
  · generalize desk.act (r.report p false) p = acted at *
    obtain ⟨outcome, r1⟩ := acted
    subst hturn
    exact .missed ⟨hmissed.inbox, hmissed.docket, hmissed.calls, hmissed.left?⟩ htranscript
  · generalize desk.act (r.report p false) p = acted at *
    obtain ⟨outcome, r1⟩ := acted
    cases outcome with
    | error e =>
      exact .raised ⟨htook.inbox, htook.docket, htook.calls, htook.left?⟩ hturn.symm htranscript
    | ok t =>
      obtain ⟨hp, hindex⟩ := action_turn hturn.symm
      obtain ⟨htr, hdocket, hworld, hleft⟩ := record_frame (r1.report p true) t
      have hall : (record (r1.report p true) t).2.transcript = r.transcript ++ [t] := by
        rw [htr, ← htranscript]
        rfl
      have htook' : Took desk r p (record (r1.report p true) t).2 := by
        refine ⟨?_, hdocket.trans htook.docket, ?_, fun h => hleft.trans (htook.left? h)⟩
        · rw [hworld]
          exact htook.inbox
        · rw [hworld]
          exact htook.calls
      dsimp only
      rcases record_cases (r1.report p true) t with
        ⟨hs, hsel, hres⟩ | ⟨hs, ⟨q, hsel, hsched⟩, hres⟩ | ⟨hs, hsched, hres⟩
      · rw [hres, hindex]
        exact .lost htook' hturn.symm hall (hp.symm.trans hs) hsel
      · rw [hres]
        exact .routed htook' hturn.symm hall (hp.symm.trans hs) hsel hsched
      · rw [hres]
        exact .spoke htook' hturn.symm hall (fun h => hs (hp.trans h)) hsched

end Desk

end MeetDesk
