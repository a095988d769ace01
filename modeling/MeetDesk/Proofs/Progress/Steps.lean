import MeetDesk.Proofs.Desk.History
import MeetDesk.Proofs.Progress.Log
import Mathlib.Data.List.Forall2

/-!
# What a run reports

Every turn that a run attempts is reported at its start and at its end, whatever comes of it, and nothing
else is (`Desk.events_run`). So a run reports in brackets, and the runs that share a log do so as
`ProgressLog.Sharing` has it.
-/

namespace MeetDesk

/-- The events of a turn: its start, and its end. -/
def Event.bracket (run : Nat) (p : Participant) : List Event := [⟨run, p, false⟩, ⟨run, p, true⟩]

/-- An event is reported to a log by a call, under the name of its run. -/
structure Event.Reported (name : String) (e : Event) (c : ProgressLog.Call) : Prop where
  key : c.key = (some name, e.participant.address)
  finished : c.finished = e.finished

/-- The error is raised in a turn, not by the router or the loop. -/
def RunError.isRaised : RunError → Bool
  | .noRoute _ | .outOfTurns _ => false
  | .fault _ | .unreadable _ | .overdue => true

namespace Desk

/-- The first of the turns that returned no record. -/
def unreturned? (desk : Desk) (begun : List Attempt) : Option Attempt :=
  begun.find? fun a => (desk.returned? a).isNone

/-- The participants whose turns a run attempts, in order. -/
def attempted (desk : Desk) (world : World) (request : RunRequest) (deadline? : Option Float) :
    List Participant :=
  (desk.begun world request deadline?).map Attempt.participant

/-- The turns that a run has recorded when it ends. -/
def recorded (desk : Desk) (world : World) (request : RunRequest) (deadline? : Option Float) :
    Transcript :=
  (desk.loop desk.maxTurns (desk.start world request deadline?)).2.transcript

/-- The participant whose turn raised, if one did. -/
def raised? (desk : Desk) (world : World) (request : RunRequest) (deadline? : Option Float) :
    Option Participant :=
  (desk.unreturned? (desk.begun world request deadline?)).map Attempt.participant

variable {desk : Desk} {world : World} {request : RunRequest} {deadline? : Option Float}
  {first r r' : Run} {p : Participant}

/-! ## Events -/

/-- Acting reports nothing. -/
theorem events_act (desk : Desk) (r : Run) (p : Participant) :
    (desk.act r p).2.world.events = r.world.events ∧ (desk.act r p).2.number = r.number := by
  rcases act_cases desk r p with ⟨-, -, hcore⟩ | ⟨-, -, hcore⟩
  all_goals
    have hevents := Run.eq_of_core (fun r => r.world.events) (fun _ => rfl) hcore
    have hnumber := Run.eq_of_core Run.number (fun _ => rfl) hcore
    exact ⟨hevents, hnumber⟩

theorem number_record (r : Run) (t : Turn) : (record r t).2.number = r.number := by
  unfold record
  dsimp only
  split
  · split <;> rfl
  · rfl

/-- Whatever comes of a turn, it is reported at its start and at its end. -/
theorem events_turn (desk : Desk) (r : Run) (p : Participant) :
    (desk.turn r p).2.world.events = r.world.events ++ Event.bracket r.number p ∧
      (desk.turn r p).2.number = r.number := by
  obtain ⟨hevents, hnumber⟩ := events_act desk (r.report p false) p
  unfold turn
  generalize desk.act (r.report p false) p = acted at hevents hnumber
  obtain ⟨e | t, r1⟩ := acted
  all_goals
    have hended : (r1.report p true).world.events = r.world.events ++ Event.bracket r.number p := by
      show r1.world.events ++ [⟨r1.number, p, true⟩] = _
      dsimp only at hevents hnumber
      rw [hevents, hnumber]
      exact List.append_assoc ..
  · exact ⟨hended, hnumber⟩
  · obtain ⟨-, -, hworld, -⟩ := record_frame (r1.report p true) t
    dsimp only
    rw [hworld, number_record]
    exact ⟨hended, hnumber⟩

/-- A run keeps its number. -/
theorem Reaches.number (h : Reaches desk first r) : r.number = first.number := by
  induction h with
  | start => rfl
  | @turn r r' p _ _ hturn ih =>
    have hnumber := (events_turn desk r p).2
    rw [hturn] at hnumber
    exact hnumber.trans ih

/-- The loop reports the start and the end of every turn that it begins. -/
theorem events_loop (desk : Desk) (left : Nat) (r : Run) :
    (desk.loop left r).2.world.events =
      r.world.events ++ (desk.attempts left r).flatMap fun a => Event.bracket r.number a.participant := by
  have hfold : (desk.loop left r).2.world.events = _ :=
    loop_fold (fun r => r.world.events)
      (fun events a => events ++ Event.bracket r.number a.participant) fun a ha => by
        rw [← (reaches_of_mem_attempts ha).1.number]
        exact (events_turn desk a.before a.participant).1
  rw [hfold, List.foldl_append_eq_append, List.flatMap_def]

theorem events_start (desk : Desk) (world : World) (request : RunRequest) (deadline? : Option Float) :
    (desk.start world request deadline?).world.events = world.events ∧
      (desk.start world request deadline?).number = world.runs := by
  unfold start openThread
  split
  · exact ⟨rfl, rfl⟩
  · split
    · exact ⟨rfl, rfl⟩
    · dsimp only
      split <;> exact ⟨rfl, rfl⟩

/-- A run reports the turns that it attempts, one after the other, and nothing else. -/
theorem events_run (desk : Desk) (world : World) (request : RunRequest) (deadline? : Option Float) :
    (desk.run world request deadline?).2.events =
      world.events ++ (desk.attempted world request deadline?).flatMap (Event.bracket world.runs) := by
  obtain ⟨hevents, hnumber⟩ := events_start desk world request deadline?
  obtain ⟨ledger, hworld⟩ :=
    world_finish desk (desk.loop desk.maxTurns (desk.start world request deadline?))
  unfold run attempted begun
  rw [hworld, List.flatMap_map]
  dsimp only
  rw [events_loop, hevents, hnumber]

/-! ## Attempts, records and what raised -/

/-- The turn that is returned is the participant's. -/
theorem participant_of_returned? {a : Attempt} {t : Turn} (h : desk.returned? a = some t) :
    t.participant = a.participant := by
  have hact := eq_ok_of_toOption h
  rcases act_report desk a.before a.participant with ⟨-, hmissed, -⟩ | ⟨-, hturn, -⟩
  · cases hmissed.symm.trans hact
  · exact (action_turn (hturn.symm.trans hact)).1

/-- A turn that was begun raises, or it returns a record and is at worst refused by the router. -/
theorem returned?_cases (desk : Desk) (a : Attempt) :
    (desk.returned? a = none ∧
      ∃ e, (desk.turn a.before a.participant).1 = .error e ∧ e.isRaised = true) ∨
    ∃ t, desk.returned? a = some t ∧
      ∀ e, (desk.turn a.before a.participant).1 = .error e → e.isRaised = false := by
  have hact : ∀ e, (desk.act (a.before.report a.participant false) a.participant).1 = .error e →
      e.isRaised = true := by
    intro e he
    rcases act_report desk a.before a.participant with ⟨-, hmissed, -⟩ | ⟨-, hturn, -⟩
    · obtain rfl := Except.error.inj (hmissed.symm.trans he)
      rfl
    · rcases action_error (hturn.symm.trans he) with ⟨fault, rfl⟩ | ⟨limit, rfl⟩ <;> rfl
  unfold returned? turn
  generalize desk.act (a.before.report a.participant false) a.participant = acted at hact
  obtain ⟨e | t, r1⟩ := acted
  · exact Or.inl ⟨rfl, e, rfl, hact e rfl⟩
  · refine Or.inr ⟨t, rfl, fun e he => ?_⟩
    dsimp only at he
    rcases record_cases (r1.report a.participant true) t with
      ⟨-, -, hres⟩ | ⟨-, -, hres⟩ | ⟨-, -, hres⟩
    · obtain rfl := Except.error.inj (hres.symm.trans he)
      rfl
    all_goals cases hres.symm.trans he

/-- Every turn that was begun has a record, but for a last one that raised. It is what ended the loop. -/
theorem Loops.attempted_eq {left : Nat} {ended : Except RunError Unit × Run} {begun : List Attempt}
    (h : Loops desk left r ended begun) :
    begun.map Attempt.participant = (begun.filterMap desk.returned?).map Turn.participant ++
        ((desk.unreturned? begun).map Attempt.participant).toList ∧
      ((desk.unreturned? begun).isSome ↔ ∃ e, ended.1 = .error e ∧ e.isRaised = true) := by
  unfold unreturned?
  induction h with
  | done => exact ⟨rfl, by simp⟩
  | spent => exact ⟨rfl, by simp [RunError.isRaised]⟩
  | @stopped _ r r' p e _ hturn =>
    rcases returned?_cases desk ⟨p, r⟩ with ⟨hnone, e', herror, hraised⟩ | ⟨t, hsome, hrefused⟩
    · rw [hturn] at herror
      obtain rfl := Except.error.inj herror
      exact ⟨by simp [hnone], by simp [hnone, hraised]⟩
    · have hkept := hrefused e (by rw [hturn])
      have hp : t.participant = p := participant_of_returned? hsome
      exact ⟨by simp [hsome, hp], by simp [hsome, hkept]⟩
  | @turn _ r r' p _ _ _ hturn _ ih =>
    rcases returned?_cases desk ⟨p, r⟩ with ⟨-, e, herror, -⟩ | ⟨t, hsome, -⟩
    · rw [hturn] at herror
      cases herror
    · have hp : t.participant = p := participant_of_returned? hsome
      obtain ⟨hparticipants, hraised⟩ := ih
      refine ⟨?_, ?_⟩
      · rw [List.filterMap_cons_some hsome, List.find?_cons_of_neg (by simp [hsome]), List.map_cons,
          List.map_cons, hparticipants, hp]
        rfl
      · rw [List.find?_cons_of_neg (by simp [hsome]), hraised]

/-- A run attempts the turns that it records, and one more if a turn raised. Nothing raised if the run has a
result, if a turn selected nobody and if the turns were used up; else it was a turn that raised, unless
the run was overtaken by the deadline. -/
theorem attempted_eq (desk : Desk) (world : World) (request : RunRequest) (deadline? : Option Float) :
    desk.attempted world request deadline? =
        (desk.recorded world request deadline?).map Turn.participant ++
          (desk.raised? world request deadline?).toList ∧
      (∀ result, (desk.run world request deadline?).1 = .ok result →
        desk.recorded world request deadline? = result.turns ∧
          desk.raised? world request deadline? = none) ∧
      ∀ e, (desk.run world request deadline?).1 = .error e → e ≠ .overdue →
        ((desk.raised? world request deadline?).isSome ↔ e.isRaised = true) := by
  have hloops := loops desk desk.maxTurns (desk.start world request deadline?)
  obtain ⟨hparticipants, hraised⟩ := hloops.attempted_eq
  have hrecorded : desk.recorded world request deadline? =
      (desk.begun world request deadline?).filterMap desk.returned? :=
    transcript_loop_start desk world request deadline?
  have hisSome : (desk.raised? world request deadline?).isSome =
      (desk.unreturned? (desk.begun world request deadline?)).isSome := Option.isSome_map
  refine ⟨by rw [hrecorded]; exact hparticipants, fun result hresult => ?_, fun e he hdeadline => ?_⟩
  · obtain ⟨r, hloop, -, -, rfl⟩ := exists_of_run_ok hresult
    rw [hloop] at hraised
    refine ⟨by unfold recorded; rw [hloop]; rfl, ?_⟩
    rw [← Option.not_isSome_iff_eq_none, hisSome]
    exact fun h => by simpa using hraised.mp h
  · rcases finish_error he with hloop | hoverdue
    · rw [hisSome]
      refine hraised.trans ⟨?_, fun h => ⟨e, hloop, h⟩⟩
      rintro ⟨e', he', h⟩
      rw [hloop] at he'
      obtain rfl := Except.error.inj he'
      exact h
    · exact absurd hoverdue hdeadline

/-! ## Calls to a log -/

/-- What the events of turns make of a log's calls is in brackets. -/
theorem bracketed_of_reported {name : String} {run : Nat} {ps : List Participant}
    {calls : List ProgressLog.Call}
    (h : List.Forall₂ (Event.Reported name) (ps.flatMap (Event.bracket run)) calls) :
    ProgressLog.Bracketed (some name) calls := by
  induction ps generalizing calls with
  | nil =>
    obtain rfl := List.forall₂_nil_left_iff.mp h
    exact .nil
  | cons p rest ih =>
    rw [List.flatMap_cons, Event.bracket, List.cons_append, List.singleton_append,
      List.forall₂_cons_left_iff] at h
    obtain ⟨⟨_, _, opened⟩, _, ⟨rfl, rfl⟩, h, rfl⟩ := h
    obtain ⟨⟨_, _, closed⟩, later, ⟨rfl, rfl⟩, hlater, rfl⟩ := List.forall₂_cons_left_iff.mp h
    exact .step (ih hlater)

/-- Every run, however it ends, reports one bracket for each turn that it records, and one more for a turn
that raised, all under its own number. On a log, a step that ends has no duration exactly if the latest
call before for the same run and step is not a start; so whatever runs share the log, each under a name of
its own, no step lacks a duration, and the log remembers nothing in the end. -/
theorem run_bracketed :
    (∀ (desk : Desk) (world : World) (request : RunRequest) (deadline? : Option Float),
      (desk.run world request deadline?).2.events =
          world.events ++ (desk.attempted world request deadline?).flatMap (Event.bracket world.runs) ∧
        desk.attempted world request deadline? =
          (desk.recorded world request deadline?).map Turn.participant ++
            (desk.raised? world request deadline?).toList ∧
        (∀ result, (desk.run world request deadline?).1 = .ok result →
          desk.recorded world request deadline? = result.turns ∧
            desk.raised? world request deadline? = none) ∧
        (∀ e, (desk.run world request deadline?).1 = .error e → e ≠ .overdue →
          ((desk.raised? world request deadline?).isSome ↔ e.isRaised = true)) ∧
        ∀ name calls, List.Forall₂ (Event.Reported name)
            ((desk.run world request deadline?).2.events.drop world.events.length) calls →
          ProgressLog.Bracketed (some name) calls) ∧
    (∀ calls key now, ProgressLog.ReportsNone (ProgressLog.after calls) key now ↔
      ∀ c, ProgressLog.latest? calls key = some c → c.finished = true) ∧
    ∀ s : ProgressLog.Sharing,
      (∀ before c later, s.calls = before ++ c :: later → c.finished = true →
        ¬ ProgressLog.ReportsNone (ProgressLog.after before) c.key c.now) ∧
      (ProgressLog.after s.calls).started = [] := by
  refine ⟨fun desk world request deadline? => ?_, ProgressLog.reportsNone_iff, fun s =>
    ⟨fun before c later => s.not_reportsNone, s.started_after⟩⟩
  have hevents := events_run desk world request deadline?
  obtain ⟨hattempted, hresult, herror⟩ := attempted_eq desk world request deadline?
  refine ⟨hevents, hattempted, hresult, herror, fun name calls hcalls => ?_⟩
  rw [hevents, List.drop_left] at hcalls
  exact bracketed_of_reported hcalls

/-- What the run of a desk whose supervisor selects nobody reports under a name. -/
def undecidedSession (name : String) (opened closed : Float) : List ProgressLog.Call :=
  [⟨(some name, Participant.supervisor.address), false, opened⟩,
   ⟨(some name, Participant.supervisor.address), true, closed⟩]

theorem run_bracketed_undecided :
    undecided.attempted {} { input := "Who?", threadId := "1" } none = [.supervisor] ∧
      undecided.raised? {} { input := "Who?", threadId := "1" } none = none ∧
      ∃ s : ProgressLog.Sharing, s.sessions.map ProgressLog.Session.name = ["a", "b"] ∧
        s.calls = [⟨(some "a", "Supervisor"), false, 1⟩, ⟨(some "b", "Supervisor"), false, 2⟩,
          ⟨(some "a", "Supervisor"), true, 3⟩, ⟨(some "b", "Supervisor"), true, 4⟩] ∧
        (ProgressLog.after s.calls).started = [] := by
  obtain ⟨hruns, -, hshared⟩ := run_bracketed
  have hevents : (undecided.run {} { input := "Who?", threadId := "1" }).2.events =
      Event.bracket 0 .supervisor := by
    decide +kernel
  obtain ⟨hrun, hattempted, -, -, hbracketed⟩ :=
    hruns undecided {} { input := "Who?", threadId := "1" } none
  have hsession : ∀ name opened closed,
      ProgressLog.Bracketed (some name) (undecidedSession name opened closed) := by
    intro name opened closed
    refine hbracketed name _ ?_
    rw [hevents]
    exact .cons ⟨rfl, rfl⟩ (.cons ⟨rfl, rfl⟩ .nil)
  have hone : undecided.attempted {} { input := "Who?", threadId := "1" } none = [.supervisor] := by
    decide +kernel
  have hnone : undecided.raised? {} { input := "Who?", threadId := "1" } none = none := by
    decide +kernel
  have hmerged : Interleaves [undecidedSession "a" 1 3, undecidedSession "b" 2 4] _ :=
    .take (i := 0) rfl (.take (i := 1) rfl (.take (i := 0) rfl (.take (i := 1) rfl (.done (by simp)))))
  exact ⟨hone, hnone,
    ⟨[⟨"a", _, hsession "a" 1 3⟩, ⟨"b", _, hsession "b" 2 4⟩], by simp, _, hmerged⟩,
    rfl, rfl, (hshared _).2⟩

end Desk

end MeetDesk
