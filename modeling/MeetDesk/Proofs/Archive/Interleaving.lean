import MeetDesk.Archive.Writer

/-!
# A run and its writer

A run submits to its writer, closes it or is cancelled; meanwhile the writer's worker takes one
submission after the other from the queue and attempts it. `Writing.Step` is one step of either of them,
and `Writing.Leads` is any number of steps in any order, so what holds wherever `Leads` comes to holds
of every interleaving. Which attempts fail is up to the policy of the archive; a failure is passed over.

An attempt starts when the worker takes the submission: the archive receives the call for it there and
then. A worker that is cancelled may go on for a while. When it stops, it may leave the attempt that it is
in without an effect on the archive or with all of it.
-/

namespace MeetDesk

/-- What the worker of a writer does. -/
inductive Worker where
  /-- It waits for the queue. -/
  | waiting
  | attempting (s : Submission)
  /-- It has come to the mark at the end of the queue. -/
  | ended
  /-- It was cancelled, perhaps during an attempt. -/
  | stopped (during? : Option Submission)

inductive Caller where
  | running | closing | closed | cancelled
  deriving DecidableEq

structure Writing where
  submitted : List Submission := []
  /-- What waits for the worker; `none` is the mark that closes the queue. -/
  queue : List (Option Submission) := []
  worker : Worker := .waiting
  attempted : List Submission := []
  ledger : Ledger
  caller : Caller := .running

/-- The submission that a worker has taken and not finished. -/
def Worker.held? : Worker → Option Submission
  | attempting s => some s
  | stopped during? => during?
  | _ => none

/-- The worker has neither ended nor stopped. -/
inductive Worker.AtWork : Worker → Prop
  | waiting : AtWork .waiting
  | attempting (s : Submission) : AtWork (.attempting s)

namespace Writing

/-- The submissions in the queue. -/
def queued (w : Writing) : List Submission := w.queue.filterMap id

/-- One step of the run or of the worker. -/
inductive Step (policy : ArchivePolicy) (thread : String) (w : Writing) : Writing → Prop
  /-- The run submits something. -/
  | submit (s : Submission) (caller : w.caller = .running) :
      Step policy thread w { w with submitted := w.submitted ++ [s], queue := w.queue ++ [some s] }
  /-- The run closes the queue, and waits for the worker to end. -/
  | close (caller : w.caller = .running) :
      Step policy thread w { w with queue := w.queue ++ [none], caller := .closing }
  /-- The run goes on after the worker has ended. -/
  | resume (caller : w.caller = .closing) (worker : w.worker = .ended) :
      Step policy thread w { w with caller := .closed }
  /-- The run is cancelled, and its worker with it. -/
  | cancel (caller : w.caller = .running ∨ w.caller = .closing) :
      Step policy thread w { w with caller := .cancelled }
  /-- The worker takes a submission from the queue, and the archive receives the call. -/
  | take (s : Submission) (rest : List (Option Submission)) (worker : w.worker = .waiting)
      (queue : w.queue = some s :: rest) :
      Step policy thread w
        { w with queue := rest, worker := .attempting s, ledger := w.ledger.receive (s.toCall thread) }
  /-- The call is settled, and the worker has attempted what it took. -/
  | attempt (s : Submission) (worker : w.worker = .attempting s) :
      Step policy thread w
        { w with
          worker := .waiting, attempted := w.attempted ++ [s]
          ledger := w.ledger.settle policy (s.toCall thread) }
  /-- The worker comes to the mark, and ends. -/
  | finish (rest : List (Option Submission)) (worker : w.worker = .waiting)
      (queue : w.queue = none :: rest) :
      Step policy thread w { w with queue := rest, worker := .ended }
  /-- The cancelled worker stops between two attempts. -/
  | stop (caller : w.caller = .cancelled) (worker : w.worker = .waiting) :
      Step policy thread w { w with worker := .stopped none }
  /-- The cancelled worker stops during an attempt. -/
  | interrupt (s : Submission) (ledger : Ledger) (caller : w.caller = .cancelled)
      (worker : w.worker = .attempting s)
      (effect : ledger = w.ledger ∨ ledger = w.ledger.settle policy (s.toCall thread)) :
      Step policy thread w { w with worker := .stopped (some s), ledger }

/-- Steps lead from one state to another. -/
inductive Leads (policy : ArchivePolicy) (thread : String) (w : Writing) : Writing → Prop
  | refl : Leads policy thread w w
  | step {w' w'' : Writing} (before : Leads policy thread w w') (step : Step policy thread w' w'') :
      Leads policy thread w w''

/-- Which workers and queues go with what the run does. -/
inductive Phase : Caller → Worker → List (Option Submission) → Prop
  | running {worker : Worker} (todo : List Submission) (work : worker.AtWork) :
      Phase .running worker (todo.map some)
  | closing {worker : Worker} (todo : List Submission) (work : worker.AtWork) :
      Phase .closing worker (todo.map some ++ [none])
  | emptied : Phase .closing .ended []
  | closed : Phase .closed .ended []
  | cancelled (worker : Worker) (queue : List (Option Submission)) : Phase .cancelled worker queue

/-- What the submissions that were attempted have made of the given ledger, and the one that is held. -/
inductive Effect (policy : ArchivePolicy) (thread : String) (ledger : Ledger)
    (attempted : List Submission) : Worker → Ledger → Prop
  | idle {worker : Worker} (free : worker.held? = none) :
      Effect policy thread ledger attempted worker (attempted.foldl (Ledger.attempt policy thread) ledger)
  | called {worker : Worker} {s : Submission} (held : worker.held? = some s) :
      Effect policy thread ledger attempted worker
        ((attempted.foldl (Ledger.attempt policy thread) ledger).receive (s.toCall thread))
  /-- The worker has stopped just after its last call was settled. -/
  | settled {s : Submission} :
      Effect policy thread ledger attempted (.stopped (some s))
        ((attempted ++ [s]).foldl (Ledger.attempt policy thread) ledger)

/-- What holds in every interleaving that starts with the given ledger. -/
structure Sound (policy : ArchivePolicy) (thread : String) (ledger : Ledger) (w : Writing) :
    Prop where
  /-- Nothing is lost, repeated or out of order. -/
  order : w.attempted ++ w.worker.held?.toList ++ w.queued = w.submitted
  phase : Phase w.caller w.worker w.queue
  /-- The archive has received the calls for what was attempted and for what is held, in this order. -/
  received : w.ledger.received =
    ledger.received ++ (w.attempted ++ w.worker.held?.toList).map (Submission.toCall thread)
  /-- The archive is what the attempts have made of it. -/
  effect : Effect policy thread ledger w.attempted w.worker w.ledger

variable {policy : ArchivePolicy} {thread : String} {ledger : Ledger} {w w' w'' : Writing}

theorem Leads.trans (h : Leads policy thread w w') (h' : Leads policy thread w' w'') :
    Leads policy thread w w'' := by
  induction h' with
  | refl => exact h
  | step _ hstep ih => exact .step ih hstep

/-! ## Steps -/

/-- A step keeps the submissions in order: attempted, held, queued. -/
theorem order_of_step (hstep : Step policy thread w w')
    (h : w.attempted ++ w.worker.held?.toList ++ w.queued = w.submitted) :
    w'.attempted ++ w'.worker.held?.toList ++ w'.queued = w'.submitted := by
  cases hstep with
  | submit s =>
    dsimp only [queued]
    rw [List.filterMap_append, ← List.append_assoc]
    exact congrArg (· ++ [s]) h
  | close =>
    dsimp only [queued]
    rw [List.filterMap_append, ← List.append_assoc]
    exact (List.append_nil _).trans h
  | resume | cancel => exact h
  | take s rest hworker hqueue | finish rest hworker hqueue =>
    rw [← h, queued, hworker, hqueue]
    simp [queued, Worker.held?]
  | attempt s hworker =>
    rw [hworker] at h
    simpa [queued, Worker.held?] using h
  | stop _ hworker | interrupt _ _ _ hworker =>
    rw [hworker] at h
    exact h

/-- A step keeps what the caller and the worker are at in accord. -/
theorem phase_of_step (hstep : Step policy thread w w') (h : Phase w.caller w.worker w.queue) :
    Phase w'.caller w'.worker w'.queue := by
  obtain ⟨submitted, queue, worker, attempted, ledger, caller⟩ := w
  dsimp only at h
  cases hstep with
  | submit s hcaller =>
    obtain rfl : caller = .running := hcaller
    cases h with
    | running todo work =>
      have hqueue : todo.map some ++ [some s] = (todo ++ [s]).map some := by simp
      dsimp only
      rw [hqueue]
      exact .running _ work
  | close hcaller =>
    obtain rfl : caller = .running := hcaller
    cases h with
    | running todo work => exact .closing todo work
  | resume hcaller hworker =>
    obtain rfl : caller = .closing := hcaller
    obtain rfl : worker = .ended := hworker
    cases h with
    | closing _ work => cases work
    | emptied => exact .closed
  | cancel => exact .cancelled _ _
  | take s rest hworker hqueue =>
    obtain rfl : worker = .waiting := hworker
    obtain rfl : queue = some s :: rest := hqueue
    generalize hqueue : some s :: rest = queue at h
    cases h with
    | running todo =>
      cases todo with
      | nil => cases hqueue
      | cons first todo =>
        obtain ⟨-, rfl⟩ := List.cons.inj hqueue
        exact .running todo (.attempting s)
    | closing todo =>
      cases todo with
      | nil => cases hqueue
      | cons first todo =>
        obtain ⟨-, rfl⟩ := List.cons.inj hqueue
        exact .closing todo (.attempting s)
    | cancelled => exact .cancelled _ _
  | attempt s hworker =>
    obtain rfl : worker = .attempting s := hworker
    cases h with
    | running todo => exact .running todo .waiting
    | closing todo => exact .closing todo .waiting
    | cancelled => exact .cancelled _ _
  | finish rest hworker hqueue =>
    obtain rfl : worker = .waiting := hworker
    obtain rfl : queue = none :: rest := hqueue
    generalize hqueue : none :: rest = queue at h
    cases h with
    | running todo => cases todo <;> cases hqueue
    | closing todo =>
      -- The mark is the last thing in the queue.
      cases todo with
      | nil =>
        obtain ⟨-, rfl⟩ := List.cons.inj hqueue
        exact .emptied
      | cons first todo => cases hqueue
    | cancelled => exact .cancelled _ _
  | stop hcaller | interrupt _ _ hcaller =>
    obtain rfl : caller = .cancelled := hcaller
    exact .cancelled _ _

theorem foldl_attempt_concat (attempted : List Submission) (s : Submission) :
    (attempted ++ [s]).foldl (Ledger.attempt policy thread) ledger =
      ((attempted.foldl (Ledger.attempt policy thread) ledger).receive (s.toCall thread)).settle policy
        (s.toCall thread) := by
  rw [List.foldl_append]
  rfl

/-- A step keeps the ledger to what has been attempted. -/
theorem effect_of_step (hstep : Step policy thread w w')
    (h : Effect policy thread ledger w.attempted w.worker w.ledger) :
    Effect policy thread ledger w'.attempted w'.worker w'.ledger := by
  obtain ⟨submitted, queue, worker, attempted, left, caller⟩ := w
  dsimp only at h
  cases hstep with
  | submit | close | resume | cancel => exact h
  | take s _ hworker =>
    obtain rfl : worker = .waiting := hworker
    cases h with
    | idle => exact .called rfl
    | called held => cases held
  | attempt s hworker =>
    obtain rfl : worker = .attempting s := hworker
    cases h with
    | idle free => cases free
    | called held =>
      obtain rfl := Option.some.inj held
      dsimp only
      rw [← foldl_attempt_concat]
      exact .idle rfl
  | finish _ hworker | stop _ hworker =>
    obtain rfl : worker = .waiting := hworker
    cases h with
    | idle => exact .idle rfl
    | called held => cases held
  | interrupt s _ _ hworker heffect =>
    obtain rfl : worker = .attempting s := hworker
    cases h with
    | idle free => cases free
    | called held =>
      obtain rfl := Option.some.inj held
      rcases heffect with rfl | rfl
      · exact .called rfl
      · dsimp only
        rw [← foldl_attempt_concat]
        exact .settled

/-- Each attempt is a call that is received, whatever comes of it. -/
theorem received_foldl_attempt (todo : List Submission) :
    (todo.foldl (Ledger.attempt policy thread) ledger).received =
      ledger.received ++ todo.map (Submission.toCall thread) := by
  induction todo generalizing ledger with
  | nil => exact (List.append_nil _).symm
  | cons s rest ih =>
    have hattempt : (ledger.attempt policy thread s).received = ledger.received ++ [s.toCall thread] := by
      unfold Ledger.attempt Ledger.settle
      split <;> rfl
    rw [List.foldl_cons, ih, hattempt, List.append_assoc]
    rfl

/-- The archive has received a call for each submission that was attempted or is held. -/
theorem Effect.received {attempted : List Submission} {worker : Worker} {left : Ledger}
    (h : Effect policy thread ledger attempted worker left) :
    left.received =
      ledger.received ++ (attempted ++ worker.held?.toList).map (Submission.toCall thread) := by
  cases h with
  | idle free =>
    rw [free, received_foldl_attempt]
    simp
  | called held =>
    rw [held, Ledger.receive, received_foldl_attempt]
    simp
  | settled =>
    rw [received_foldl_attempt]
    rfl

/-! ## Interleavings -/

/-- A step keeps the writing sound. -/
theorem Sound.step (h : Sound policy thread ledger w) (hstep : Step policy thread w w') :
    Sound policy thread ledger w' :=
  have heffect := effect_of_step hstep h.effect
  ⟨order_of_step hstep h.order, phase_of_step hstep h.phase, heffect.received, heffect⟩

/-- What holds when a run starts holds in every interleaving. -/
theorem sound_of_leads (h : Leads policy thread { ledger } w) : Sound policy thread ledger w := by
  induction h with
  | refl => exact ⟨rfl, .running [] .waiting, (List.append_nil _).symm, .idle rfl⟩
  | step _ hstep ih => exact ih.step hstep

/-- Whatever has been attempted was submitted first. -/
theorem Sound.isPrefix (h : Sound policy thread ledger w) :
    w.attempted ++ w.worker.held?.toList <+: w.submitted :=
  ⟨w.queued, h.order⟩

/-- When the run goes on after it has closed the queue, everything has been attempted. -/
theorem Sound.closed (h : Sound policy thread ledger w) (hcaller : w.caller = .closed) :
    w.attempted = w.submitted ∧
      w.ledger = w.submitted.foldl (Ledger.attempt policy thread) ledger := by
  have hphase := h.phase
  have horder := h.order
  have heffect := h.effect
  rw [hcaller] at hphase
  unfold queued at horder
  generalize w.worker = worker, w.queue = queue at hphase horder heffect
  cases hphase with
  | closed =>
    have hall : w.attempted = w.submitted := by simpa [Worker.held?] using horder
    rw [← hall]
    generalize w.ledger = left at heffect
    cases heffect with
    | idle => exact ⟨rfl, rfl⟩
    | called held => cases held

/-- The worker can attempt what is at the front of the queue. -/
theorem leads_drain (todo : List Submission) {rest : List (Option Submission)}
    (hworker : w.worker = .waiting) (hqueue : w.queue = todo.map some ++ rest) :
    Leads policy thread w
      { w with
        queue := rest, attempted := w.attempted ++ todo
        ledger := todo.foldl (Ledger.attempt policy thread) w.ledger } := by
  induction todo generalizing w with
  | nil =>
    obtain ⟨submitted, queue, worker, attempted, ledger, caller⟩ := w
    obtain rfl : queue = rest := hqueue
    simpa using Leads.refl
  | cons s todo ih =>
    have htake : Leads policy thread w
        { w with
          queue := todo.map some ++ rest, worker := .attempting s
          ledger := w.ledger.receive (s.toCall thread) } :=
      .step .refl (.take s _ hworker hqueue)
    have hattempt := htake.step (.attempt s rfl)
    have hrest := hattempt.trans (ih rfl rfl)
    simpa [hworker, Ledger.attempt] using hrest

/-- A worker that waits can come to the mark, and then the run goes on. -/
theorem leads_closed (todo : List Submission) (hcaller : w.caller = .closing)
    (hworker : w.worker = .waiting) (hqueue : w.queue = todo.map some ++ [none]) :
    Leads policy thread w
      { w with
        queue := [], worker := .ended, attempted := w.attempted ++ todo
        ledger := todo.foldl (Ledger.attempt policy thread) w.ledger, caller := .closed } := by
  have hdrained : Leads policy thread w _ := leads_drain todo hworker hqueue
  have hfinished := hdrained.step (.finish [] hworker rfl)
  exact hfinished.step (.resume hcaller rfl)

/-- A run that has closed the queue can always come to go on. -/
theorem Sound.exists_closed (h : Sound policy thread ledger w) (hcaller : w.caller = .closing) :
    ∃ w', Leads policy thread w w' ∧ w'.caller = .closed ∧ w'.submitted = w.submitted := by
  have hphase := h.phase
  rw [hcaller] at hphase
  generalize hworker : w.worker = worker, hqueue : w.queue = queue at hphase
  cases hphase with
  | closing todo work =>
    cases work with
    | waiting => exact ⟨_, leads_closed todo hcaller hworker hqueue, rfl, rfl⟩
    | attempting s =>
      have hattempt : Leads policy thread w _ := .step .refl (.attempt s hworker)
      exact ⟨_, hattempt.trans (leads_closed todo hcaller rfl hqueue), rfl, rfl⟩
  | emptied => exact ⟨_, .step .refl (.resume hcaller hworker), rfl, rfl⟩

end Writing

end MeetDesk
