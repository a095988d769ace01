import MeetDesk.Proofs.Desk.Course

/-!
# The loop of a run

Which runs the loop comes to, which turns it begins, and how it ends. An invariant of runs is proved by
induction on `Desk.Reaches`; `Desk.loop_ends` then carries it to the end of the loop. What a run leaves
behind is the fold of what its turns leave behind (`Desk.loop_fold`). Every induction over the loop
itself is an induction on `Desk.Loops`, which has one constructor for each way through its body.
-/

namespace MeetDesk

namespace Desk

/-- The loop that starts with the run `first` comes to a run. -/
inductive Reaches (desk : Desk) (first : Run) : Run → Prop
  | start : Reaches desk first first
  | turn {r r' : Run} {p : Participant} (reached : Reaches desk first r) (next : r.next? = some p)
      (turn : desk.turn r p = (.ok (), r')) : Reaches desk first r'

/-- A turn that is begun: whose it is, and the run before it. -/
structure Attempt where
  participant : Participant
  before : Run

/-- The run after a turn that was begun, however it came out. -/
def after (desk : Desk) (a : Attempt) : Run := (desk.turn a.before a.participant).2

/-- The turns that the loop begins, in order, with the given number of turns left. -/
def attempts (desk : Desk) : (left : Nat) → Run → List Attempt
  | left, r =>
    match r.next? with
    | none => []
    | some p =>
      match left with
      | 0 => []
      | left + 1 =>
        ⟨p, r⟩ :: match desk.turn r p with
          | (.error _, _) => []
          | (.ok (), r') => attempts desk left r'

/-- How a loop ends that starts with the run `first`, has `left` turns left and begins the turns
`begun`. -/
inductive Ends (desk : Desk) (first : Run) (left : Nat) (begun : List Attempt) :
    Except RunError Unit × Run → Prop
  /-- Nobody is next. -/
  | done {r : Run} (reached : Reaches desk first r) (next : r.next? = none)
      (count : r.transcript.length = first.transcript.length + begun.length)
      (within : begun.length ≤ left) : Ends desk first left begun (.ok (), r)
  /-- Somebody is next, but the turns are used up. -/
  | spent {r : Run} {p : Participant} (reached : Reaches desk first r) (next : r.next? = some p)
      (count : r.transcript.length = first.transcript.length + begun.length)
      (within : begun.length = left) :
      Ends desk first left begun (.error (.outOfTurns desk.maxTurns), r)
  /-- The turn that was begun last goes wrong. -/
  | stopped {r r' : Run} {p : Participant} {e : RunError} (reached : Reaches desk first r)
      (next : r.next? = some p) (turn : desk.turn r p = (.error e, r')) (mem : ⟨p, r⟩ ∈ begun)
      (count : r.transcript.length + 1 = first.transcript.length + begun.length)
      (within : begun.length ≤ left) : Ends desk first left begun (.error e, r')

variable {desk : Desk} {first r r' : Run} {p : Participant}

/-- A turn that is recorded makes the transcript longer by one. -/
theorem length_of_turn_ok (h : desk.turn r p = (.ok (), r')) :
    r'.transcript.length = r.transcript.length + 1 := by
  have hout := turn_outcome desk r p
  rw [h] at hout
  cases hout with
  | routed _ _ htranscript | spoke _ _ htranscript =>
    rw [htranscript, List.length_append, List.length_singleton]

/-- The loop ends where nobody is next. -/
theorem loop_of_next?_none (desk : Desk) (h : r.next? = none) (left : Nat) :
    desk.loop left r = (.ok (), r) ∧ desk.attempts left r = [] := by
  unfold loop attempts
  simp [h]

/-- The loop fails where somebody is next but no turn is left. -/
theorem loop_zero (desk : Desk) (h : r.next? = some p) :
    desk.loop 0 r = (.error (.outOfTurns desk.maxTurns), r) ∧ desk.attempts 0 r = [] := by
  unfold loop attempts
  simp [h]

/-- The loop ends with a turn that fails. -/
theorem loop_of_turn_error {e : RunError} (h : r.next? = some p)
    (hturn : desk.turn r p = (.error e, r')) (left : Nat) :
    desk.loop (left + 1) r = (.error e, r') ∧ desk.attempts (left + 1) r = [⟨p, r⟩] := by
  rw [loop, attempts]
  simp [h, hturn]

/-- The loop goes on behind a turn. -/
theorem loop_of_turn_ok (h : r.next? = some p) (hturn : desk.turn r p = (.ok (), r')) (left : Nat) :
    desk.loop (left + 1) r = desk.loop left r' ∧
      desk.attempts (left + 1) r = ⟨p, r⟩ :: desk.attempts left r' := by
  rw [loop, attempts]
  simp [h, hturn]

/-- With `left` turns left, the loop takes a run to what stands after it, and begins the turns in the
list. -/
inductive Loops (desk : Desk) : (left : Nat) → Run → Except RunError Unit × Run → List Attempt → Prop
  /-- Nobody is next. -/
  | done {left : Nat} {r : Run} (next : r.next? = none) : Loops desk left r (.ok (), r) []
  /-- Somebody is next, but the turns are used up. -/
  | spent {r : Run} {p : Participant} (next : r.next? = some p) :
      Loops desk 0 r (.error (.outOfTurns desk.maxTurns), r) []
  /-- The turn goes wrong. -/
  | stopped {left : Nat} {r r' : Run} {p : Participant} {e : RunError} (next : r.next? = some p)
      (turn : desk.turn r p = (.error e, r')) : Loops desk (left + 1) r (.error e, r') [⟨p, r⟩]
  /-- The loop goes on after the turn. -/
  | turn {left : Nat} {r r' : Run} {p : Participant} {ended : Except RunError Unit × Run}
      {begun : List Attempt} (next : r.next? = some p) (turn : desk.turn r p = (.ok (), r'))
      (rest : Loops desk left r' ended begun) : Loops desk (left + 1) r ended (⟨p, r⟩ :: begun)

/-- The loop is one of its courses. The induction is on the turns that are left. -/
theorem loops (desk : Desk) (left : Nat) (r : Run) :
    Loops desk left r (desk.loop left r) (desk.attempts left r) := by
  induction left generalizing r with
  | zero =>
    cases hnext : r.next? with
    | none =>
      obtain ⟨hloop, hattempts⟩ := loop_of_next?_none desk hnext 0
      rw [hloop, hattempts]
      exact .done hnext
    | some p =>
      obtain ⟨hloop, hattempts⟩ := loop_zero desk hnext
      rw [hloop, hattempts]
      exact .spent hnext
  | succ left ih =>
    cases hnext : r.next? with
    | none =>
      obtain ⟨hloop, hattempts⟩ := loop_of_next?_none desk hnext (left + 1)
      rw [hloop, hattempts]
      exact .done hnext
    | some p =>
      rcases hturn : desk.turn r p with ⟨⟨e⟩ | ⟨⟨⟩⟩, r'⟩
      · obtain ⟨hloop, hattempts⟩ := loop_of_turn_error hnext hturn left
        rw [hloop, hattempts]
        exact .stopped hnext hturn
      · obtain ⟨hloop, hattempts⟩ := loop_of_turn_ok hnext hturn left
        rw [hloop, hattempts]
        exact .turn hnext hturn (ih r')

/-- What is reached after a first turn is reached. -/
theorem Reaches.head (h : Reaches desk r' r) (hnext : first.next? = some p)
    (hturn : desk.turn first p = (.ok (), r')) : Reaches desk first r := by
  induction h with
  | start => exact .turn .start hnext hturn
  | turn _ hnext' hturn' ih => exact .turn ih hnext' hturn'

/-- A loop that begins with a turn ends as the rest of it does. -/
theorem Ends.cons {left : Nat} {begun : List Attempt} {ended : Except RunError Unit × Run}
    (h : Ends desk r' left begun ended) (hnext : first.next? = some p)
    (hturn : desk.turn first p = (.ok (), r')) :
    Ends desk first (left + 1) (⟨p, first⟩ :: begun) ended := by
  have hlen := length_of_turn_ok hturn
  cases h with
  | done hreach hnone hcount hwithin =>
    refine .done (hreach.head hnext hturn) hnone ?_ (Nat.succ_le_succ hwithin)
    rw [hcount, hlen, List.length_cons]
    omega
  | spent hreach hsome hcount hwithin =>
    refine .spent (hreach.head hnext hturn) hsome ?_ (congrArg Nat.succ hwithin)
    rw [hcount, hlen, List.length_cons]
    omega
  | stopped hreach hsome herror hmem hcount hwithin =>
    refine .stopped (hreach.head hnext hturn) hsome herror (List.mem_cons_of_mem _ hmem) ?_
      (Nat.succ_le_succ hwithin)
    rw [hcount, hlen, List.length_cons]
    omega

/-- The loop ends in one of the three ways. -/
theorem loop_ends (desk : Desk) (left : Nat) (r : Run) :
    Ends desk r left (desk.attempts left r) (desk.loop left r) := by
  have hloops := loops desk left r
  generalize desk.attempts left r = begun, desk.loop left r = ended at hloops
  induction hloops with
  | done hnext => exact .done .start hnext rfl (Nat.zero_le _)
  | spent hnext => exact .spent .start hnext rfl rfl
  | stopped hnext hturn =>
    exact .stopped .start hnext hturn List.mem_cons_self rfl (Nat.succ_le_succ (Nat.zero_le _))
  | turn hnext hturn _ ih => exact ih.cons hnext hturn

/-- What the loop makes of a part of the run is the fold of what its turns make of it. -/
theorem loop_fold {β : Type} (part : Run → β) (step : β → Attempt → β) {left : Nat} {r : Run}
    (hstep : ∀ a ∈ desk.attempts left r, part (desk.after a) = step (part a.before) a) :
    part (desk.loop left r).2 = (desk.attempts left r).foldl step (part r) := by
  have hloops := loops desk left r
  generalize desk.attempts left r = begun, desk.loop left r = ended at hloops hstep ⊢
  induction hloops with
  | done | spent => rfl
  | stopped _ hturn =>
    rw [List.foldl_cons, List.foldl_nil, ← hstep _ List.mem_cons_self, after, hturn]
  | turn _ hturn _ ih =>
    rw [List.foldl_cons, ← hstep _ List.mem_cons_self, after, hturn]
    exact ih fun a ha => hstep a (List.mem_cons_of_mem _ ha)

/-- Whatever a turn comes to, its participant's agent has received its prompt. -/
theorem inbox_after (desk : Desk) (a : Attempt) :
    (desk.after a).world.inbox =
      a.before.world.inbox.receive a.participant (a.before.promptFor a.participant) := by
  have hout := turn_outcome desk a.before a.participant
  unfold after
  generalize (desk.turn a.before a.participant).1 = outcome at hout
  cases hout with
  | missed hmissed => exact hmissed.inbox
  | raised htook | lost htook | routed htook | spoke htook => exact htook.inbox

/-- A run without a deadline stays without one. -/
theorem left?_turn (desk : Desk) (p : Participant) (h : r.left? = none) :
    (desk.turn r p).2.left? = none := by
  have hout := turn_outcome desk r p
  generalize (desk.turn r p).1 = outcome at hout
  cases hout with
  | missed hmissed => exact absurd h hmissed.left?
  | raised htook | lost htook | routed htook | spoke htook => exact htook.left? h

theorem Reaches.left? (h : Reaches desk first r) (hfirst : first.left? = none) : r.left? = none := by
  induction h with
  | start => exact hfirst
  | @turn _ _ p _ _ hturn ih =>
    have hleft := left?_turn desk p ih
    rw [hturn] at hleft
    exact hleft

/-- A loop without a deadline ends without one. -/
theorem left?_loop (desk : Desk) (left : Nat) (h : r.left? = none) :
    (desk.loop left r).2.left? = none := by
  have hends := loop_ends desk left r
  generalize desk.loop left r = ended at hends
  cases hends with
  | done hreach | spent hreach => exact hreach.left? h
  | @stopped _ _ p _ hreach _ hturn =>
    have hleft := left?_turn desk p (hreach.left? h)
    rw [hturn] at hleft
    exact hleft

/-- No turn takes anything out of the transcript. -/
theorem transcript_prefix_turn (desk : Desk) (r : Run) (p : Participant) :
    r.transcript <+: (desk.turn r p).2.transcript := by
  have hout := turn_outcome desk r p
  generalize (desk.turn r p).1 = outcome at hout
  cases hout with
  | missed _ htranscript | raised _ _ htranscript =>
    exact ⟨[], by rw [htranscript, List.append_nil]⟩
  | @lost _ t _ _ htranscript | @routed _ t _ _ _ htranscript | @spoke _ t _ _ htranscript =>
    exact ⟨[t], htranscript.symm⟩

/-- The loop takes nothing out of the transcript. -/
theorem Loops.transcript_isPrefix {left : Nat} {ended : Except RunError Unit × Run}
    {begun : List Attempt} (h : Loops desk left r ended begun) :
    r.transcript <+: ended.2.transcript := by
  induction h with
  | done | spent => exact List.prefix_rfl
  | @stopped _ r _ p _ _ hturn =>
    have hprefix := transcript_prefix_turn desk r p
    rw [hturn] at hprefix
    exact hprefix
  | @turn _ r _ p _ _ _ hturn _ ih =>
    have hprefix := transcript_prefix_turn desk r p
    rw [hturn] at hprefix
    exact hprefix.trans ih

/-- A turn that the loop begins is the turn of whoever is next in a run that it comes to, under the
number of the turns before it. -/
theorem attempts_getElem? {left i : Nat} {a : Attempt} (h : (desk.attempts left r)[i]? = some a) :
    Reaches desk r a.before ∧ a.before.next? = some a.participant ∧
      a.before.transcript.length = r.transcript.length + i ∧
      a.before.transcript <+: (desk.loop left r).2.transcript := by
  have hloops := loops desk left r
  generalize desk.attempts left r = begun, desk.loop left r = ended at hloops h ⊢
  induction hloops generalizing i with
  | done | spent => cases h
  | stopped hnext hturn =>
    have hstopped : Loops desk 1 _ _ _ := .stopped hnext hturn
    have hprefix := hstopped.transcript_isPrefix
    cases i with
    | zero =>
      cases h
      exact ⟨.start, hnext, rfl, hprefix⟩
    | succ i => cases h
  | turn hnext hturn hrest ih =>
    cases i with
    | zero =>
      cases h
      exact ⟨.start, hnext, rfl, (hrest.turn hnext hturn).transcript_isPrefix⟩
    | succ i =>
      obtain ⟨hreach, hnext', hlen', hprefix⟩ := ih h
      have hlen := length_of_turn_ok hturn
      exact ⟨hreach.head hnext hturn, hnext', by omega, hprefix⟩

/-- A turn that the loop begins is the turn of whoever is next in a run that it comes to. -/
theorem reaches_of_mem_attempts {left : Nat} {a : Attempt} (h : a ∈ desk.attempts left r) :
    Reaches desk r a.before ∧ a.before.next? = some a.participant := by
  obtain ⟨i, hi⟩ := List.mem_iff_getElem?.mp h
  obtain ⟨hreach, hnext, -⟩ := attempts_getElem? hi
  exact ⟨hreach, hnext⟩

/-! ## The start and the end of a run -/

/-- The turns that a run begins, in order. -/
def begun (desk : Desk) (world : World) (request : RunRequest) (deadline? : Option Float) :
    List Attempt :=
  desk.attempts desk.maxTurns (desk.start world request deadline?)

/-- A run starts with the world as it is, an inquiry that holds the request, and nothing else. -/
structure Fresh (world : World) (request : RunRequest) (deadline? : Option Float) (r : Run) :
    Prop where
  docket : r.docket = { inquiry := request.toInquiry }
  transcript : r.transcript = []
  scheduled? : r.scheduled? = none
  inbox : r.world.inbox = world.inbox
  calls : r.world.calls = world.calls
  left? : r.left? = deadline?

/-- A run starts fresh. -/
theorem start_fresh (desk : Desk) (world : World) (request : RunRequest)
    (deadline? : Option Float) :
    Fresh world request deadline? (desk.start world request deadline?) := by
  unfold start openThread
  split
  · exact ⟨rfl, rfl, rfl, rfl, rfl, rfl⟩
  · split
    · exact ⟨rfl, rfl, rfl, rfl, rfl, rfl⟩
    · dsimp only
      split <;> exact ⟨rfl, rfl, rfl, rfl, rfl, rfl⟩

/-- Closing a run changes nothing but the archive. -/
theorem world_close (desk : Desk) (r : Run) :
    ∃ ledger, (desk.close r).2 = { r.world with ledger } := by
  have hcaught : ∃ ledger, (desk.catchUp r).world = { r.world with ledger } := by
    unfold catchUp
    split
    · exact ⟨_, rfl⟩
    · exact ⟨r.world.ledger, rfl⟩
  unfold close
  split
  · dsimp only
    split
    · exact ⟨r.world.ledger, rfl⟩
    · exact hcaught
  · exact hcaught

/-- Ending a run changes nothing but the archive. -/
theorem world_finish (desk : Desk) (ended : Except RunError Unit × Run) :
    ∃ ledger, (desk.finish ended).2 = { ended.2.world with ledger } := by
  obtain ⟨⟨e⟩ | ⟨⟨⟩⟩, r⟩ := ended
  · unfold finish
    dsimp only
    split
    · exact ⟨r.world.ledger, rfl⟩
    · exact world_close desk r
  · exact world_close desk r

/-- Finishing a run prompts nobody and asks nothing of the store. -/
theorem finish_frame (desk : Desk) (ended : Except RunError Unit × Run) :
    (desk.finish ended).2.inbox = ended.2.world.inbox ∧
      (desk.finish ended).2.calls = ended.2.world.calls := by
  obtain ⟨ledger, hworld⟩ := world_finish desk ended
  rw [hworld]
  exact ⟨rfl, rfl⟩

/-- A run with a result has come to where nobody is next. -/
theorem finish_ok {ended : Except RunError Unit × Run} {result : RunResult}
    (h : (desk.finish ended).1 = .ok result) : ended.1 = .ok () ∧ result = ended.2.result := by
  obtain ⟨⟨e⟩ | ⟨⟨⟩⟩, r⟩ := ended
  · unfold finish at h
    dsimp only at h
    split at h
    · cases h
    · cases hclose : (desk.close r).1 with
      | error e' => simp [hclose, Except.bind] at h
      | ok u => simp [hclose, Except.bind] at h
  · unfold finish at h
    cases hclose : (desk.close r).1 with
    | error e' => simp [hclose, Except.map] at h
    | ok u =>
      simp only [hclose, Except.map, Except.ok.injEq] at h
      exact ⟨rfl, h.symm⟩

/-- Without a deadline, a run ends as its loop does. -/
theorem finish_of_left?_eq_none {ended : Except RunError Unit × Run}
    (h : ended.2.left? = none) :
    (desk.finish ended).1 = ended.1.map fun _ => ended.2.result := by
  have hclose : ∀ r : Run, r.left? = none → (desk.close r).1 = .ok () := by
    intro r hr
    simp [close, Run.isPressed, hr]
  obtain ⟨⟨e⟩ | ⟨⟨⟩⟩, r⟩ := ended
  · unfold finish
    dsimp only
    split
    · rfl
    · rw [hclose r h]
      rfl
  · unfold finish
    dsimp only
    rw [hclose r h]

/-- Without a deadline a run ends as its loop does. -/
theorem run_eq_map_loop (desk : Desk) (world : World) (request : RunRequest) :
    (desk.run world request).1 =
      (desk.loop desk.maxTurns (desk.start world request none)).1.map fun _ =>
        (desk.loop desk.maxTurns (desk.start world request none)).2.result :=
  finish_of_left?_eq_none
    (left?_loop desk desk.maxTurns (start_fresh desk world request none).left?)

/-- A run with a result has come to where nobody is next, and the result is what stands there. -/
theorem exists_of_run_ok {world : World} {request : RunRequest} {deadline? : Option Float}
    {result : RunResult} (h : (desk.run world request deadline?).1 = .ok result) :
    ∃ r, desk.loop desk.maxTurns (desk.start world request deadline?) = (.ok (), r) ∧
      Reaches desk (desk.start world request deadline?) r ∧ r.next? = none ∧ result = r.result := by
  obtain ⟨hdone, rfl⟩ := finish_ok h
  have hends := loop_ends desk desk.maxTurns (desk.start world request deadline?)
  generalize desk.loop desk.maxTurns (desk.start world request deadline?) = ended at hdone hends ⊢
  cases hends with
  | @done r hreach hnext => exact ⟨r, rfl, hreach, hnext, rfl⟩
  | spent => cases hdone
  | stopped => cases hdone

end Desk

end MeetDesk
