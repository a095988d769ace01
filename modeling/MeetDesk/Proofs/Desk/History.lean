import MeetDesk.Proofs.Archive.Interleaving
import MeetDesk.Proofs.Desk.Verdict

/-!
# What a run leaves in the archive

A run submits the user's message and then every turn that returned a record, one by one. Each step of
a desk is some steps of an interleaving of the loop with the writer (`Run.Tracked`), and every
interleaving attempts what is submitted in order and once (`Writing.Sound`).
-/

namespace MeetDesk

/-- A message of the user, and then each turn on its own. -/
def submissions (message : String) (ts : Transcript) : List Submission :=
  { message? := some message } :: ts.map fun t => { turns := [t] }

/-- A turn more is a submission more. -/
theorem submissions_append (message : String) (ts : Transcript) (t : Turn) :
    submissions message (ts ++ [t]) = submissions message ts ++ [{ turns := [t] }] := by
  simp [submissions]

/-- The calls to append that are due to a thread: the message of the user without turns, and then each turn
on its own without a message. -/
def AppendCall.due (thread message : String) (ts : Transcript) : List AppendCall :=
  ⟨thread, some message, []⟩ :: ts.map fun t => ⟨thread, none, [t]⟩

/-- The calls that are due are those for the submissions. -/
theorem map_toCall_submissions (thread message : String) (ts : Transcript) :
    (submissions message ts).map (Submission.toCall thread) = AppendCall.due thread message ts := by
  unfold submissions AppendCall.due
  rw [List.map_cons, List.map_map]
  rfl

/-- A run is where the writing `w` is, which started with the given ledger: the queue and the archive
are the same, and what was submitted is the message and the turns so far. -/
structure Run.Tracks (policy : ArchivePolicy) (thread : String) (ledger : Ledger)
    (message : String) (r : Run) (w : Writing) : Prop where
  reached : Writing.Leads policy thread { ledger } w
  caller : w.caller = .running
  worker : w.worker = .waiting
  queue : w.queue = w.queued.map some
  writer? : r.writer? = some { thread, queue := w.queued }
  ledger : r.world.ledger = w.ledger
  submitted : w.submitted = submissions message r.transcript

/-- A run is where some writing is that started with the given ledger. -/
def Run.Tracked (policy : ArchivePolicy) (thread : String) (ledger : Ledger) (message : String)
    (r : Run) : Prop :=
  ∃ w, r.Tracks policy thread ledger message w

namespace Desk

/-- The record of a turn that was begun, if it returned one. -/
def returned? (desk : Desk) (a : Attempt) : Option Turn :=
  (desk.act (a.before.report a.participant false) a.participant).1.toOption

/-- What a run offers to the archive. -/
def offers (desk : Desk) (world : World) (request : RunRequest) (deadline? : Option Float) :
    List Submission :=
  submissions request.input ((desk.begun world request deadline?).filterMap desk.returned?)

variable {desk : Desk} {policy : ArchivePolicy} {thread : String} {ledger : Ledger}
  {message : String} {r r' : Run} {p : Participant}

/-! ## Turns that returned a record -/

/-- An attempt adds the turn that it returns, if it returns one. -/
theorem transcript_after (desk : Desk) (a : Attempt) :
    (desk.after a).transcript = a.before.transcript ++ (desk.returned? a).toList := by
  have htranscript : (desk.act (a.before.report a.participant false) a.participant).2.transcript =
      a.before.transcript := by
    rcases act_report desk a.before a.participant with ⟨-, -, h⟩ | ⟨-, -, h⟩ <;> exact h
  unfold after turn returned?
  generalize desk.act (a.before.report a.participant false) a.participant = acted at htranscript
  obtain ⟨e | t, r⟩ := acted
  · exact htranscript.trans (List.append_nil _).symm
  · rw [← htranscript]
    exact (record_frame (r.report a.participant true) t).1

theorem foldl_returned (ts : Transcript) (as : List Attempt) :
    as.foldl (fun ts a => ts ++ (desk.returned? a).toList) ts = ts ++ as.filterMap desk.returned? := by
  induction as generalizing ts with
  | nil => simp
  | cons a rest ih =>
    rw [List.foldl_cons, ih, List.append_assoc, List.filterMap_cons]
    cases desk.returned? a <;> rfl

/-- The transcript of a run has the turns that were returned, in order. -/
theorem transcript_loop_start (desk : Desk) (world : World) (request : RunRequest)
    (deadline? : Option Float) :
    (desk.loop desk.maxTurns (desk.start world request deadline?)).2.transcript =
      (desk.begun world request deadline?).filterMap desk.returned? := by
  have hfold : (desk.loop desk.maxTurns (desk.start world request deadline?)).2.transcript = _ :=
    loop_fold Run.transcript (fun ts a => ts ++ (desk.returned? a).toList)
      fun a _ => transcript_after desk a
  rw [hfold, foldl_returned, (start_fresh desk world request deadline?).transcript]
  rfl

/-- A turn that is recorded is submitted. -/
theorem writer?_record (r : Run) (t : Turn) :
    (record r t).2.writer? = r.writer?.map (·.submit { turns := [t] }) := by
  unfold record
  dsimp only
  split
  · split <;> rfl
  · rfl

end Desk

/-! ## A run is an interleaving -/

namespace Run.Tracked

open Desk

variable {desk : Desk} {policy : ArchivePolicy} {thread : String} {ledger : Ledger}
  {message : String} {r r' : Run}

/-- Only the writer, the archive and the transcript of a run matter. -/
theorem congr (h : r.Tracked policy thread ledger message) (hwriter : r'.writer? = r.writer?)
    (hledger : r'.world.ledger = r.world.ledger) (htranscript : r'.transcript = r.transcript) :
    r'.Tracked policy thread ledger message := by
  obtain ⟨w, h⟩ := h
  refine ⟨w, h.reached, h.caller, h.worker, h.queue, hwriter.trans h.writer?, hledger.trans h.ledger, ?_⟩
  rw [htranscript, h.submitted]

/-- Recording a turn keeps the writer on track. -/
theorem record (h : r.Tracked policy thread ledger message) (t : Turn) :
    (Desk.record r t).2.Tracked policy thread ledger message := by
  obtain ⟨w, h⟩ := h
  obtain ⟨htranscript, -, hworld, -⟩ := record_frame r t
  have hqueued : (w.queue ++ [some ({ turns := [t] } : Submission)]).filterMap id =
      w.queued ++ [{ turns := [t] }] := by
    rw [List.filterMap_append]
    rfl
  refine ⟨_, h.reached.step (.submit { turns := [t] } h.caller), h.caller, h.worker, ?_, ?_, ?_, ?_⟩
  · unfold Writing.queued
    dsimp only
    rw [hqueued, List.map_append, ← h.queue]
    rfl
  · rw [writer?_record, h.writer?]
    unfold Writing.queued
    dsimp only
    rw [hqueued]
    rfl
  · rw [hworld, h.ledger]
  · rw [htranscript, submissions_append, h.submitted]

/-- A run whose thread is created starts with its writer on track. -/
theorem start {world : World} {request : RunRequest} {archive : Archive} (deadline? : Option Float)
    (hpolicy : desk.archive? = some policy) (hthreads : policy.refusesThreads = false)
    (hcreate : world.ledger.archive.create (some request.threadId) = (.ok thread, archive)) :
    (desk.start world request deadline?).Tracked policy thread { world.ledger with archive }
      request.input := by
  have hsubmit : Writing.Leads policy thread { ledger := { world.ledger with archive } } _ :=
    .step .refl (.submit { message? := some request.input } rfl)
  refine ⟨_, hsubmit, rfl, rfl, rfl, ?_, ?_, ?_⟩
  all_goals
    unfold Desk.start Desk.openThread
    simp only [hpolicy, hthreads, hcreate]
  all_goals rfl

variable (hpolicy : desk.archive? = some policy)

include hpolicy

/-- A writer that catches up drains its queue. -/
theorem catchUp (h : r.Tracked policy thread ledger message) :
    (desk.catchUp r).Tracked policy thread ledger message := by
  obtain ⟨w, h⟩ := h
  have hqueue : w.queue = w.queued.map some ++ [] := by rw [List.append_nil, ← h.queue]
  have hdrained : Writing.Leads policy thread w _ := Writing.leads_drain w.queued h.worker hqueue
  refine ⟨_, h.reached.trans hdrained, h.caller, h.worker, rfl, ?_, ?_, ?_⟩
  all_goals
    unfold Desk.catchUp
    rw [hpolicy, h.writer?]
  · rfl
  · dsimp only
    rw [h.ledger]
    rfl
  · exact h.submitted

/-- Waiting keeps the writer on track. -/
theorem wait (h : r.Tracked policy thread ledger message) (pause? : Option Float) :
    (desk.wait r pause?).2.Tracked policy thread ledger message := by
  unfold Desk.wait
  cases pause? with
  | none => exact h
  | some seconds =>
    have hcaught := h.catchUp hpolicy
    dsimp only
    split
    · exact hcaught
    · exact hcaught.congr rfl rfl rfl

/-- Acting keeps the writer on track. -/
theorem act (h : r.Tracked policy thread ledger message) (p : Participant) :
    (desk.act r p).2.Tracked policy thread ledger message := by
  have hdelivered : (r.deliver p (r.promptFor p)).Tracked policy thread ledger message :=
    h.congr rfl rfl rfl
  have hwaited := hdelivered.wait hpolicy (desk.reply r p).pause?
  unfold Desk.act
  dsimp only
  split
  · rename_i e r' hwait
    change desk.wait (r.deliver p (r.promptFor p)) (desk.reply r p).pause? = _ at hwait
    rw [hwait] at hwaited
    exact hwaited
  · rename_i r' hwait
    change desk.wait (r.deliver p (r.promptFor p)) (desk.reply r p).pause? = _ at hwait
    rw [hwait] at hwaited
    exact hwaited.congr rfl rfl rfl

/-- A turn keeps the writer on track. -/
theorem turn (h : r.Tracked policy thread ledger message) (p : Participant) :
    (desk.turn r p).2.Tracked policy thread ledger message := by
  have hreported : (r.report p false).Tracked policy thread ledger message := h.congr rfl rfl rfl
  have hacted := hreported.act hpolicy p
  unfold Desk.turn
  generalize desk.act (r.report p false) p = acted at hacted
  obtain ⟨e | t, r1⟩ := acted
  · exact hacted.congr rfl rfl rfl
  · have hended : (r1.report p true).Tracked policy thread ledger message := hacted.congr rfl rfl rfl
    exact hended.record t

/-- The loop keeps the writer on track. The induction is on the turns that are left. -/
theorem loop (h : r.Tracked policy thread ledger message) (left : Nat) :
    (desk.loop left r).2.Tracked policy thread ledger message := by
  have hloops := loops desk left r
  generalize desk.loop left r = ended, desk.attempts left r = begun at hloops
  induction hloops with
  | done | spent => exact h
  | @stopped _ r r' p _ _ hturn =>
    have hafter := h.turn hpolicy p
    rw [hturn] at hafter
    exact hafter
  | @turn _ r r' p _ _ _ hturn _ ih =>
    have hafter := h.turn hpolicy p
    rw [hturn] at hafter
    exact ih hafter

end Run.Tracked

namespace Desk

variable {desk : Desk} {policy : ArchivePolicy} {thread : String} {ledger : Ledger}
  {message : String} {r : Run} {p : Participant}

/-- Whether a run is broken off, so that it does not wait for its writer. -/
def isBrokenOff : Except RunError RunResult → Bool
  | .error e => e.isAbrupt
  | .ok _ => false

/-- How the writing of a run ends that had the given outcome and left the given ledger. -/
structure Settled (policy : ArchivePolicy) (thread : String) (ledger : Ledger)
    (offers : List Submission) (outcome : Except RunError RunResult) (left : Ledger) (w : Writing) :
    Prop where
  reached : Writing.Leads policy thread { ledger } w
  submitted : w.submitted = offers
  ledger : w.ledger = left
  closed : isBrokenOff outcome = false → w.caller = .closed
  cancelled : isBrokenOff outcome = true → w.caller = .cancelled

/-- A run that is broken off leaves the archive as it is. -/
theorem settled_of_cancel {outcome : Except RunError RunResult}
    (h : r.Tracked policy thread ledger message) (houtcome : isBrokenOff outcome = true) :
    ∃ w, Settled policy thread ledger (submissions message r.transcript) outcome r.world.ledger w := by
  obtain ⟨w, h⟩ := h
  refine ⟨_, h.reached.step (.cancel (Or.inl h.caller)), h.submitted, h.ledger.symm, fun hclosed => ?_,
    fun _ => rfl⟩
  exact absurd (hclosed.symm.trans houtcome) Bool.false_ne_true

/-- A run that waits for its writer leaves the archive with everything attempted. -/
theorem settled_of_close {outcome : Except RunError RunResult}
    (h : r.Tracked policy thread ledger message) (hpolicy : desk.archive? = some policy)
    (houtcome : isBrokenOff outcome = false) :
    ∃ w, Settled policy thread ledger (submissions message r.transcript) outcome
      (desk.catchUp r).world.ledger w := by
  obtain ⟨w, h⟩ := h
  have hclosing := h.reached.step (.close h.caller)
  have hqueue : w.queue ++ [none] = w.queued.map some ++ [none] := by rw [← h.queue]
  have hclosed := hclosing.trans (Writing.leads_closed w.queued rfl h.worker hqueue)
  refine ⟨_, hclosed, h.submitted, ?_, fun _ => rfl, fun hbroken => ?_⟩
  · unfold catchUp
    rw [hpolicy, h.writer?]
    dsimp only
    rw [h.ledger]
    rfl
  · exact absurd (houtcome.symm.trans hbroken) Bool.false_ne_true

/-- A run that ends lets its writer catch up, unless it is overdue. -/
theorem close_cases (desk : Desk) (r : Run) :
    ((desk.close r).1 = .ok () ∧ (desk.close r).2 = (desk.catchUp r).world) ∨
    ((desk.close r).1 = .error .overdue ∧
      ((desk.close r).2 = r.world ∨ (desk.close r).2 = (desk.catchUp r).world)) := by
  unfold close
  split
  · refine Or.inr ⟨rfl, ?_⟩
    dsimp only
    split
    · exact Or.inl rfl
    · exact Or.inr rfl
  · exact Or.inl ⟨rfl, rfl⟩

/-- A run that comes to wait for its writer settles, with what it would answer or with being overdue. -/
theorem settled_of_closing {outcome : Except RunError RunResult}
    (h : r.Tracked policy thread ledger message) (hpolicy : desk.archive? = some policy)
    (hoverdue : (desk.close r).1 = .error .overdue → isBrokenOff outcome = true)
    (hok : (desk.close r).1 = .ok () → isBrokenOff outcome = false) :
    ∃ w, Settled policy thread ledger (submissions message r.transcript) outcome
      (desk.close r).2.ledger w := by
  rcases close_cases desk r with ⟨hclose, hworld⟩ | ⟨hclose, hworld | hworld⟩
  · rw [hworld]
    exact settled_of_close h hpolicy (hok hclose)
  · rw [hworld]
    exact settled_of_cancel h (hoverdue hclose)
  · have htranscript : (desk.catchUp r).transcript = r.transcript :=
      Run.eq_of_core Run.transcript (fun _ => rfl) (core_catchUp desk r)
    rw [hworld, ← htranscript]
    exact settled_of_cancel (h.catchUp hpolicy) (hoverdue hclose)

/-- A run that ends has its writer settled. -/
theorem exists_settled_finish {ended : Except RunError Unit × Run}
    (h : ended.2.Tracked policy thread ledger message) (hpolicy : desk.archive? = some policy) :
    ∃ w, Settled policy thread ledger (submissions message ended.2.transcript)
      (desk.finish ended).1 (desk.finish ended).2.ledger w := by
  obtain ⟨⟨e⟩ | ⟨⟨⟩⟩, r⟩ := ended
  · unfold finish
    dsimp only
    by_cases habrupt : e.isAbrupt = true
    · rw [if_pos habrupt]
      exact settled_of_cancel h habrupt
    · rw [if_neg habrupt]
      refine settled_of_closing h hpolicy (fun hclose => ?_) fun hclose => ?_
      · rw [hclose]
        rfl
      · rw [hclose]
        exact Bool.eq_false_iff.mpr habrupt
  · unfold finish
    dsimp only
    refine settled_of_closing h hpolicy (fun hclose => ?_) fun hclose => ?_
    · rw [hclose]
      rfl
    · rw [hclose]
      rfl

/-- The run of a desk whose thread was created is one interleaving of the loop with the writer, which
offers the message and the turns that returned a record. -/
theorem exists_settled_run {world : World} {request : RunRequest} {archive : Archive}
    (deadline? : Option Float) (hpolicy : desk.archive? = some policy)
    (hthreads : policy.refusesThreads = false)
    (hcreate : world.ledger.archive.create (some request.threadId) = (.ok thread, archive)) :
    ∃ w, Settled policy thread { world.ledger with archive } (desk.offers world request deadline?)
      (desk.run world request deadline?).1 (desk.run world request deadline?).2.ledger w := by
  have hstart := Run.Tracked.start deadline? hpolicy hthreads hcreate
  have hloop := hstart.loop hpolicy desk.maxTurns
  rw [offers, ← transcript_loop_start]
  exact exists_settled_finish hloop hpolicy

/-! ## The turn that breaks the contract -/

theorem action_error {e : RunError} (h : (desk.action r p).turn = .error e) :
    (∃ fault, e = .fault fault) ∨ ∃ limit, e = .unreadable limit := by
  have hfails := Action.fails_of_error h
  cases hfails with
  | silent | calledOff | unshown => exact Or.inl ⟨_, rfl⟩
  | beyond => exact Or.inr ⟨_, rfl⟩

/-- A run that fails with a turn of the supervisor has this turn as its last one. -/
theorem exists_last_of_noRoute {left : Nat} {i : Int} (h : (desk.loop left r).1 = .error (.noRoute i)) :
    ∃ before t, (desk.loop left r).2.transcript = before ++ [t] ∧ t.participant = .supervisor ∧
      t.index = i ∧ Routing.selected? t = none := by
  have hends := loop_ends desk left r
  generalize desk.loop left r = ended at h hends
  cases hends with
  | done => cases h
  | spent => cases h
  | @stopped r r' p e _ _ hturn =>
    obtain rfl : e = .noRoute i := Except.error.inj h
    have hout := turn_outcome desk r p
    rw [hturn] at hout
    generalize hoc : Except.error (RunError.noRoute i) = oc at hout
    cases hout with
    | missed => cases hoc
    | raised _ haction =>
      obtain rfl := Except.error.inj hoc
      rcases action_error haction with ⟨fault, hfault⟩ | ⟨limit, hlimit⟩
      · cases hfault
      · cases hlimit
    | @lost _ t _ haction htranscript hp hselected =>
      obtain ⟨ht, hindex⟩ := action_turn haction
      have hi : i = r.transcript.length := RunError.noRoute.inj (Except.error.inj hoc)
      exact ⟨r.transcript, t, htranscript, ht.trans hp, hindex.trans hi.symm, hselected⟩
    | routed => cases hoc
    | spoke => cases hoc

theorem close_error {e : RunError} (h : (desk.close r).1 = .error e) : e = .overdue := by
  rcases close_cases desk r with ⟨hok, -⟩ | ⟨herror, -⟩
  · cases hok.symm.trans h
  · exact (Except.error.inj (herror.symm.trans h)).symm

/-- A run that fails does so in its loop, or is overtaken by the deadline at its end. -/
theorem finish_error {ended : Except RunError Unit × Run} {e : RunError}
    (h : (desk.finish ended).1 = .error e) : ended.1 = .error e ∨ e = .overdue := by
  obtain ⟨⟨e'⟩ | ⟨⟨⟩⟩, r⟩ := ended
  · unfold finish at h
    dsimp only at h
    split at h
    · exact Or.inl (congrArg Except.error (Except.error.inj h))
    · cases hclose : (desk.close r).1 with
      | error e'' =>
        rw [hclose] at h
        obtain rfl : e'' = e := Except.error.inj h
        exact Or.inr (close_error hclose)
      | ok u =>
        rw [hclose] at h
        exact Or.inl (congrArg Except.error (Except.error.inj h))
  · unfold finish at h
    dsimp only at h
    cases hclose : (desk.close r).1 with
    | error e'' =>
      rw [hclose] at h
      obtain rfl : e'' = e := Except.error.inj h
      exact Or.inr (close_error hclose)
    | ok u =>
      rw [hclose] at h
      cases h

/-! ## Whole runs -/

/-- What the archive has received by the end of a run are the first of the calls that are due to the thread
for the user's message and every turn that returned a record. Unless the run is broken off, it has received
all of them. -/
theorem received_of_run {world : World} {request : RunRequest} {archive : Archive}
    (deadline? : Option Float) (hpolicy : desk.archive? = some policy)
    (hthreads : policy.refusesThreads = false)
    (hcreate : world.ledger.archive.create (some request.threadId) = (.ok thread, archive)) :
    ∃ received, (desk.run world request deadline?).2.ledger.received = world.ledger.received ++ received ∧
      received <+: AppendCall.due thread request.input
        ((desk.begun world request deadline?).filterMap desk.returned?) ∧
      (isBrokenOff (desk.run world request deadline?).1 = false →
        received = AppendCall.due thread request.input
          ((desk.begun world request deadline?).filterMap desk.returned?)) := by
  obtain ⟨w, hw⟩ := exists_settled_run deadline? hpolicy hthreads hcreate
  have hsound := Writing.sound_of_leads hw.reached
  have hreceived := hsound.received
  rw [hw.ledger] at hreceived
  rw [← map_toCall_submissions, ← offers, ← hw.submitted]
  refine ⟨_, hreceived, hsound.isPrefix.map _, fun houtcome => ?_⟩
  have horder := hsound.order
  obtain ⟨hall, -⟩ := hsound.closed (hw.closed houtcome)
  -- Everything has been attempted, so nothing is held.
  have hheld : w.worker.held?.toList = [] := by
    have hlength := congrArg List.length horder
    rw [hall, List.length_append, List.length_append] at hlength
    exact List.length_eq_zero_iff.mp (by omega)
  rw [hall, hheld, List.append_nil]

/-- In every interleaving of a run with the writer of its thread, what has been attempted, what is being
attempted and what is queued are the submissions in order, and the archive has received the calls for the
first two; once closed, each has been attempted once; after a cancellation, those attempted are the first
ones. The run of the desk is such an interleaving. The archive receives the call for the user's message and
then one for every turn that returned a record, in order, or the first of these if the run is broken off.
Unless it is, the archive is left with these attempts; the turn whose routing breaks the contract is the
last one. -/
theorem run_history (desk : Desk) (world : World) (request : RunRequest) (deadline? : Option Float)
    {policy : ArchivePolicy} {thread : String} {archive : Archive}
    (hpolicy : desk.archive? = some policy) (hthreads : policy.refusesThreads = false)
    (hcreate : world.ledger.archive.create (some request.threadId) = (.ok thread, archive)) :
    (∀ w, Writing.Leads policy thread { ledger := { world.ledger with archive } } w →
      Writing.Sound policy thread { world.ledger with archive } w ∧
      (w.caller = .closing → ∃ w', Writing.Leads policy thread w w' ∧ w'.caller = .closed ∧
        w'.submitted = w.submitted) ∧
      (w.caller = .closed → w.attempted = w.submitted) ∧
      (w.caller = .cancelled → w.attempted ++ w.worker.held?.toList <+: w.submitted)) ∧
    (∃ w, Settled policy thread { world.ledger with archive } (desk.offers world request deadline?)
      (desk.run world request deadline?).1 (desk.run world request deadline?).2.ledger w) ∧
    (∃ received, (desk.run world request deadline?).2.ledger.received = world.ledger.received ++ received ∧
      received <+: AppendCall.due thread request.input
        ((desk.begun world request deadline?).filterMap desk.returned?) ∧
      (isBrokenOff (desk.run world request deadline?).1 = false →
        received = AppendCall.due thread request.input
          ((desk.begun world request deadline?).filterMap desk.returned?))) ∧
    (isBrokenOff (desk.run world request deadline?).1 = false →
      (desk.run world request deadline?).2.ledger =
        (desk.offers world request deadline?).foldl (Ledger.attempt policy thread)
          { world.ledger with archive }) ∧
    (∀ result, (desk.run world request deadline?).1 = .ok result →
      desk.offers world request deadline? = submissions request.input result.turns) ∧
    ∀ i, (desk.run world request deadline?).1 = .error (.noRoute i) →
      ∃ before t, desk.offers world request deadline? =
          submissions request.input before ++ [{ turns := [t] }] ∧
        t.participant = .supervisor ∧ t.index = i ∧ Routing.selected? t = none := by
  refine ⟨fun w hw => ?_, ?_, received_of_run deadline? hpolicy hthreads hcreate, fun houtcome => ?_,
    fun result hresult => ?_, fun i herror => ?_⟩
  · have hsound := Writing.sound_of_leads hw
    exact ⟨hsound, hsound.exists_closed, fun hclosed => (hsound.closed hclosed).1,
      fun _ => hsound.isPrefix⟩
  · exact exists_settled_run deadline? hpolicy hthreads hcreate
  · obtain ⟨w, hw⟩ := exists_settled_run deadline? hpolicy hthreads hcreate
    have hclosed := (Writing.sound_of_leads hw.reached).closed (hw.closed houtcome)
    rw [← hw.ledger, hclosed.2, hw.submitted]
  · obtain ⟨-, rfl⟩ := finish_ok hresult
    rw [offers, ← transcript_loop_start]
    rfl
  · rcases finish_error herror with hloop | hoverdue
    · obtain ⟨before, t, htranscript, ht⟩ := exists_last_of_noRoute hloop
      refine ⟨before, t, ?_, ht⟩
      rw [offers, ← transcript_loop_start, htranscript, submissions_append]
    · cases hoverdue

/-- A desk whose supervisor selects nobody, and whose archive refuses the first append. -/
def undecided : Desk where
  agent := fun _ _ => { outcome := .ok (.object [("text", .text "Who knows?")]) }
  source := { store? := none }
  archive? := some { refusesAppend := fun calls => calls.length == 1 }

theorem run_history_undecided :
    ∃ t, t.participant = .supervisor ∧ Routing.selected? t = none ∧
      (undecided.run {} { input := "Who?", threadId := "1" }).2.ledger.received =
        [⟨"1", some "Who?", []⟩, ⟨"1", none, [t]⟩] := by
  have herror : (undecided.run {} { input := "Who?", threadId := "1" }).1 = .error (.noRoute 0) := by
    have hrun : (match (undecided.run {} { input := "Who?", threadId := "1" }).1 with
        | .error e => some e
        | .ok _ => none) = some (.noRoute 0) := by
      decide +kernel
    generalize (undecided.run {} { input := "Who?", threadId := "1" }).1 = outcome at hrun ⊢
    cases outcome with
    | ok result => cases hrun
    | error e => exact congrArg Except.error (Option.some.inj hrun)
  obtain ⟨-, -, ⟨received, hreceived, -, hall⟩, -, -, hlast⟩ :=
    run_history undecided {} { input := "Who?", threadId := "1" } none rfl rfl rfl
  have houtcome : isBrokenOff (undecided.run {} { input := "Who?", threadId := "1" }).1 = false := by
    rw [herror]
    rfl
  obtain ⟨before, t, hoffers, hsupervisor, -, hselected⟩ := hlast 0 herror
  have hlength : (undecided.offers {} { input := "Who?", threadId := "1" } none).length = 2 := by
    decide +kernel
  obtain rfl : before = [] := by
    rw [hoffers] at hlength
    simpa [submissions] using hlength
  refine ⟨t, hsupervisor, hselected, ?_⟩
  rw [hreceived, hall houtcome, ← map_toCall_submissions, ← offers, hoffers]
  rfl

end Desk

end MeetDesk
