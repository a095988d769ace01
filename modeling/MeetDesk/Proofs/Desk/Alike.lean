import MeetDesk.Proofs.Desk.Loop

/-!
# What makes no difference to a run

Who asks, in which thread and with which message, what becomes of the archive and who hears of the
steps: a run without deadline does not depend on any of these. Two runs are alike that differ in nothing
else (`Run.Alike`). Alike runs take the same turn and are alike after it (`Run.Alike.turn`), because an
action reads nothing of the docket and changes it by an update (`Action.exists_update`).
-/

namespace MeetDesk

/-- An inquiry without who asks, the thread and the message. -/
def Inquiry.anonymous (q : Inquiry) : Inquiry :=
  { q with userId? := none, threadId? := none, messageId? := none }

/-- A result without the thread. -/
def RunResult.anonymous (result : RunResult) : RunResult := { result with threadId? := none }

/-- Two runs without deadline that differ at most in who asks, in the archive, in what was reported and
in who is scheduled. -/
structure Run.Alike (r r' : Run) : Prop where
  inquiry : r.docket.inquiry.anonymous = r'.docket.inquiry.anonymous
  transcript : r.transcript = r'.transcript
  inbox : r.world.inbox = r'.world.inbox
  calls : r.world.calls = r'.world.calls
  left? : r.left? = none
  left?' : r'.left? = none

/-! ## Actions -/

theorem RouteTool.exists_update (room : Room) (arguments : Value) :
    ∃ output u, ∀ d, RouteTool.run room arguments d = (output, d.apply u) := by
  unfold RouteTool.run
  cases RouteChoice.read arguments with
  | invalid issues =>
    by_cases hshown : room.Shows issues
    · exact ⟨_, {}, fun d => if_pos hshown⟩
    · exact ⟨_, {}, fun d => if_neg hshown⟩
  | valid c =>
    unfold RouteTool.choose
    dsimp only
    cases RouteTool.target? c with
    | none => exact ⟨.ok _, {}, fun d => rfl⟩
    | some q => exact ⟨.ok _, RouteTool.update c q, fun d => rfl⟩

theorem ResultsTool.exists_update (room : Room) (source : ResultsTool.Source) (arguments : Value)
    (calls : List StoreCall) :
    ∃ returned u received, ∀ d,
      ResultsTool.run room source arguments d calls = ⟨returned, d.apply u, received⟩ := by
  unfold ResultsTool.run
  cases Specification.read arguments with
  | invalid issues =>
    by_cases hshown : room.Shows issues
    · exact ⟨_, {}, _, fun d => if_pos hshown⟩
    · exact ⟨_, {}, _, fun d => if_neg hshown⟩
  | valid s =>
    unfold ResultsTool.query
    dsimp only
    cases s.compile source.table source.strict with
    | error e => exact ⟨_, {}, _, fun d => rfl⟩
    | ok compiled =>
      cases source.store? with
      | none => exact ⟨_, {}, _, fun d => rfl⟩
      | some store =>
        unfold ResultsTool.ask
        dsimp only
        cases store (calls ++ [compiled.toCall]) with
        | ok rows => exact ⟨_, ResultsTool.update rows, _, fun d => rfl⟩
        | error fault =>
          dsimp only
          by_cases hc : fault.isCancellation = true
          · exact ⟨_, {}, _, fun d => if_pos hc⟩
          · exact ⟨_, {}, _, fun d => if_neg hc⟩

/-- The turn of an action, its calls and the update that it carries out are the same for all dockets. -/
theorem Action.exists_update (room : Room) (source : ResultsTool.Source) (p : Participant)
    (index : Int) (reply : Reply) (calls : List StoreCall) :
    ∃ turn u received, ∀ d,
      Action.ofReply room source p index reply d calls = ⟨turn, d.apply u, received⟩ := by
  unfold Action.ofReply
  cases reply.text with
  | error fault => exact ⟨_, {}, _, fun d => rfl⟩
  | ok text =>
    cases p with
    | supervisor =>
      unfold Action.take Action.supervisor
      dsimp only
      rcases ToolCall.find room Participant.supervisor.tools text with limit | _ | call
      · exact ⟨_, {}, _, fun d => rfl⟩
      · exact ⟨_, {}, _, fun d => rfl⟩
      · obtain ⟨output, u, hrun⟩ := RouteTool.exists_update room (.object call.arguments)
        simp only [hrun]
        cases output with
        | error fault => exact ⟨_, u, _, fun d => rfl⟩
        | ok output => exact ⟨_, u, _, fun d => rfl⟩
    | analyst =>
      unfold Action.take Action.analyst
      dsimp only
      rcases ToolCall.find room Participant.analyst.tools text with limit | _ | call
      · exact ⟨_, {}, _, fun d => rfl⟩
      · exact ⟨_, {}, _, fun d => rfl⟩
      · obtain ⟨returned, u, received, hrun⟩ :=
          ResultsTool.exists_update room source (.object call.arguments) calls
        simp only [hrun]
        cases returned with
        | error fault => exact ⟨_, u, _, fun d => rfl⟩
        | ok output => exact ⟨_, u, _, fun d => rfl⟩
    | summary => exact ⟨_, {}, _, fun d => rfl⟩

namespace Desk

variable {desk : Desk} {r r' : Run} {p : Participant}

/-! ## Turns without deadline -/

/-- Who is scheduled after a turn that came out as given, unless the turn goes wrong. -/
def schedule (p : Participant) (index : Int) :
    Except RunError Turn → Except RunError (Option Participant)
  | .error e => .error e
  | .ok t =>
    if p = .supervisor then
      match Routing.selected? t with
      | some q => .ok (some q)
      | none => .error (.noRoute index)
    else .ok none

/-- Without a deadline, what is recorded of a turn and who is scheduled after it follow from the turn. -/
theorem turn_of_left?_eq_none (desk : Desk) (p : Participant) (h : r.left? = none) :
    Took desk r p (desk.turn r p).2 ∧
      (desk.turn r p).2.transcript = r.transcript ++ (desk.action r p).turn.toOption.toList ∧
      (desk.turn r p).1 = (schedule p r.transcript.length (desk.action r p).turn).map (fun _ => ()) ∧
      ∀ next?, schedule p r.transcript.length (desk.action r p).turn = .ok next? →
        (desk.turn r p).2.scheduled? = next? := by
  have hout := turn_outcome desk r p
  generalize desk.turn r p = ended at hout
  obtain ⟨outcome, after⟩ := ended
  dsimp only at hout ⊢
  cases hout with
  | missed hmissed => exact absurd h hmissed.left?
  | raised htook hturn htranscript =>
    rw [hturn]
    exact ⟨htook, htranscript.trans (List.append_nil _).symm, rfl, fun next? hnext => by cases hnext⟩
  | lost htook hturn htranscript hp hselected =>
    have hlost : schedule p r.transcript.length (desk.action r p).turn =
        .error (.noRoute r.transcript.length) := by
      rw [hturn, schedule, if_pos hp, hselected]
    rw [hlost, hturn]
    exact ⟨htook, htranscript, rfl, fun next? hnext => by cases hnext⟩
  | @routed _ t q htook hturn htranscript hp hselected hscheduled =>
    have hrouted : schedule p r.transcript.length (desk.action r p).turn = .ok (some q) := by
      rw [hturn, schedule, if_pos hp, hselected]
    rw [hrouted, hturn]
    refine ⟨htook, htranscript, rfl, fun next? hnext => ?_⟩
    rw [hscheduled]
    exact Except.ok.inj hnext
  | spoke htook hturn htranscript hp hscheduled =>
    have hspoke : schedule p r.transcript.length (desk.action r p).turn = .ok none := by
      rw [hturn, schedule, if_neg hp]
    rw [hspoke, hturn]
    refine ⟨htook, htranscript, rfl, fun next? hnext => ?_⟩
    rw [hscheduled]
    exact Except.ok.inj hnext

end Desk

/-! ## Alike runs -/

namespace Run.Alike

open Desk

variable {desk : Desk} {r r' : Run}

theorem promptFor (h : r.Alike r') (p : Participant) : r.promptFor p = r'.promptFor p := by
  have hbuild : ∀ q ts, Prompt.build p q ts = Prompt.build p q.anonymous ts := by
    intro q ts
    cases p <;> rfl
  rw [Run.promptFor, Run.promptFor, hbuild, h.inquiry, ← hbuild, h.transcript]

theorem next? (h : r.Alike r') (hscheduled : r.scheduled? = r'.scheduled?) :
    r.next? = r'.next? := by
  have hcompleted : r.docket.inquiry.completed = r'.docket.inquiry.completed := by
    show r.docket.inquiry.anonymous.completed = r'.docket.inquiry.anonymous.completed
    rw [h.inquiry]
  unfold Run.next? Routing.next?
  rw [hscheduled, hcompleted]

theorem result (h : r.Alike r') : r.result.anonymous = r'.result.anonymous := by
  have hresults : r.docket.inquiry.results = r'.docket.inquiry.results := by
    show r.docket.inquiry.anonymous.results = r'.docket.inquiry.anonymous.results
    rw [h.inquiry]
  have hdomain : r.docket.inquiry.inDomain? = r'.docket.inquiry.inDomain? := by
    show r.docket.inquiry.anonymous.inDomain? = r'.docket.inquiry.anonymous.inDomain?
    rw [h.inquiry]
  unfold RunResult.anonymous Run.result
  rw [h.transcript, hresults, hdomain]

theorem action (desk : Desk) (h : r.Alike r') (p : Participant) :
    (desk.action r p).turn = (desk.action r' p).turn ∧
      (desk.action r p).calls = (desk.action r' p).calls ∧
      (desk.action r p).docket.inquiry.anonymous = (desk.action r' p).docket.inquiry.anonymous := by
  have hreply : desk.reply r p = desk.reply r' p := by
    unfold Desk.reply
    rw [h.inbox, h.promptFor p]
  unfold Desk.action
  rw [hreply, h.transcript, h.calls]
  obtain ⟨turn, u, received, hupdate⟩ := Action.exists_update desk.room desk.source p r'.transcript.length
    (desk.reply r' p) r'.world.calls
  rw [hupdate, hupdate]
  have hcommutes : ∀ q : Inquiry, (u.applyTo q).anonymous = u.applyTo q.anonymous := fun q => rfl
  refine ⟨rfl, rfl, ?_⟩
  rw [Docket.inquiry_apply, Docket.inquiry_apply, hcommutes, hcommutes, h.inquiry]

/-- Alike runs take the same turn, whatever becomes of their archives, and are alike after it. -/
theorem turn (desk : Desk) (other? : Option ArchivePolicy) (h : r.Alike r') (p : Participant) :
    (desk.turn r p).1 = ({ desk with archive? := other? }.turn r' p).1 ∧
      (desk.turn r p).2.Alike ({ desk with archive? := other? }.turn r' p).2 ∧
      ((desk.turn r p).1 = .ok () →
        (desk.turn r p).2.scheduled? = ({ desk with archive? := other? }.turn r' p).2.scheduled?) := by
  obtain ⟨hturn, hcalls, hinquiry⟩ := h.action desk p
  obtain ⟨htook, htranscript, hout, hnext⟩ := desk.turn_of_left?_eq_none p h.left?
  obtain ⟨htook', htranscript', hout', hnext'⟩ :=
    { desk with archive? := other? }.turn_of_left?_eq_none p h.left?'
  -- An action does not depend on the archive.
  have haction : { desk with archive? := other? }.action r' p = desk.action r' p := rfl
  have hschedule : schedule p r.transcript.length (desk.action r p).turn =
      schedule p r'.transcript.length (desk.action r' p).turn := by
    rw [h.transcript, hturn]
  rw [haction] at htranscript' hout' hnext'
  refine ⟨?_, ⟨?_, ?_, ?_, ?_, htook.left? h.left?, htook'.left? h.left?'⟩, fun hok => ?_⟩
  · rw [hout, hout', hschedule]
  · rw [htook.docket, htook'.docket]
    exact hinquiry
  · rw [htranscript, htranscript', h.transcript, hturn]
  · rw [htook.inbox, htook'.inbox, h.inbox, h.promptFor p]
  · rw [htook.calls, htook'.calls]
    exact hcalls
  · rw [hout] at hok
    cases hs : schedule p r.transcript.length (desk.action r p).turn with
    | error e =>
      rw [hs] at hok
      cases hok
    | ok next? => rw [hnext next? hs, hnext' next? (hschedule.symm.trans hs)]

end Run.Alike

/-! ## Whole runs -/

/-- What can be seen of a run without deadline, apart from the archive and the reports. -/
structure Observed where
  prompts : List (Participant × String)
  turns : Transcript
  inbox : Inbox
  calls : List StoreCall
  outcome : Except RunError RunResult

namespace Desk

/-- The prompts of turns that were begun, with the participants whose they are. -/
def prompts (begun : List Attempt) : List (Participant × String) :=
  begun.map fun a => (a.participant, a.before.promptFor a.participant)

/-- What can be seen of the run of a request. -/
def observed (desk : Desk) (world : World) (request : RunRequest) : Observed where
  prompts := prompts (desk.begun world request none)
  turns := (desk.loop desk.maxTurns (desk.start world request none)).2.transcript
  inbox := (desk.run world request).2.inbox
  calls := (desk.run world request).2.calls
  outcome := (desk.run world request).1.map RunResult.anonymous

/-- Alike runs have the same prompts and end alike, with the same error if there is one. -/
theorem loop_alike (desk : Desk) (other? : Option ArchivePolicy) (left : Nat) {r r' : Run}
    (h : r.Alike r') (hscheduled : r.scheduled? = r'.scheduled?) :
    (desk.loop left r).1 = ({ desk with archive? := other? }.loop left r').1 ∧
      (desk.loop left r).2.Alike ({ desk with archive? := other? }.loop left r').2 ∧
      prompts (desk.attempts left r) = prompts ({ desk with archive? := other? }.attempts left r') := by
  have hloops := loops desk left r
  generalize desk.loop left r = ended, desk.attempts left r = begun at hloops ⊢
  induction hloops generalizing r' with
  | @done left r hnext =>
    have hnext' : r'.next? = none := (h.next? hscheduled).symm.trans hnext
    obtain ⟨hloop, hattempts⟩ := loop_of_next?_none { desk with archive? := other? } hnext' left
    rw [hloop, hattempts]
    exact ⟨rfl, h, rfl⟩
  | @spent r p hnext =>
    have hnext' : r'.next? = some p := (h.next? hscheduled).symm.trans hnext
    obtain ⟨hloop, hattempts⟩ := loop_zero { desk with archive? := other? } hnext'
    rw [hloop, hattempts]
    exact ⟨rfl, h, rfl⟩
  | @stopped left r s p e hnext hturn =>
    have hnext' : r'.next? = some p := (h.next? hscheduled).symm.trans hnext
    obtain ⟨hout, halike, -⟩ := h.turn desk other? p
    generalize hturn' : { desk with archive? := other? }.turn r' p = ended' at hout halike
    obtain ⟨outcome, s'⟩ := ended'
    rw [hturn] at hout halike
    obtain rfl : .error e = outcome := hout
    obtain ⟨hloop, hattempts⟩ := loop_of_turn_error hnext' hturn' left
    rw [hloop, hattempts]
    refine ⟨rfl, halike, ?_⟩
    unfold prompts
    rw [List.map_singleton, List.map_singleton, h.promptFor p]
  | @turn left r s p ended begun hnext hturn _ ih =>
    have hnext' : r'.next? = some p := (h.next? hscheduled).symm.trans hnext
    obtain ⟨hout, halike, hsched⟩ := h.turn desk other? p
    generalize hturn' : { desk with archive? := other? }.turn r' p = ended' at hout halike hsched
    obtain ⟨outcome, s'⟩ := ended'
    rw [hturn] at hout halike hsched
    obtain rfl : .ok () = outcome := hout
    obtain ⟨hloop, hattempts⟩ := loop_of_turn_ok hnext' hturn' left
    obtain ⟨hsame, hends, hprompts⟩ := ih halike (hsched rfl)
    rw [hloop, hattempts]
    refine ⟨hsame, hends, ?_⟩
    unfold prompts at hprompts ⊢
    rw [List.map_cons, List.map_cons, hprompts, h.promptFor p]

/-- Runs without deadline that start in the same way are alike, whoever asks and whatever becomes of the
archive. -/
theorem start_alike (desk : Desk) (other? : Option ArchivePolicy) (world world' : World)
    (request request' : RunRequest) (hinbox : world.inbox = world'.inbox)
    (hcalls : world.calls = world'.calls) (hinput : request.input = request'.input) :
    (desk.start world request none).Alike
        ({ desk with archive? := other? }.start world' request' none) ∧
      (desk.start world request none).scheduled? =
        ({ desk with archive? := other? }.start world' request' none).scheduled? := by
  have hfresh := start_fresh desk world request none
  have hfresh' := start_fresh { desk with archive? := other? } world' request' none
  refine ⟨⟨?_, ?_, ?_, ?_, hfresh.left?, hfresh'.left?⟩, ?_⟩
  · rw [hfresh.docket, hfresh'.docket]
    unfold RunRequest.toInquiry Inquiry.anonymous
    rw [hinput]
  · rw [hfresh.transcript, hfresh'.transcript]
  · rw [hfresh.inbox, hfresh'.inbox, hinbox]
  · rw [hfresh.calls, hfresh'.calls, hcalls]
  · rw [hfresh.scheduled?, hfresh'.scheduled?]

/-- Who asks, in which thread and with which message, whether there is an archive, what it holds and what
it refuses, and what was reported: none of this can be seen of a run. Its prompts, its turns, the calls
to the store and its error, or its result up to the thread, are the same. -/
theorem run_indifferent (desk : Desk) (other? : Option ArchivePolicy) (world : World)
    (events : List Event) (runs : Nat) (ledger : Ledger) (request : RunRequest) (threadId : String)
    (userId? messageId? : Option String) :
    { desk with archive? := other? }.observed { world with events, runs, ledger }
        { request with threadId, userId?, messageId? } =
      desk.observed world request := by
  obtain ⟨halike, hscheduled⟩ := start_alike desk other? world { world with events, runs, ledger }
    request { request with threadId, userId?, messageId? } rfl rfl rfl
  obtain ⟨hout, hends, hprompts⟩ := loop_alike desk other? desk.maxTurns halike hscheduled
  have hresult := hends.result
  -- Without a deadline a run ends as its loop does, and ending it changes nothing but the archive.
  have houtcome : (desk.run world request).1.map RunResult.anonymous =
      ({ desk with archive? := other? }.run { world with events, runs, ledger }
        { request with threadId, userId?, messageId? }).1.map RunResult.anonymous := by
    unfold run
    rw [finish_of_left?_eq_none hends.left?, finish_of_left?_eq_none hends.left?', ← hout]
    cases (desk.loop desk.maxTurns (desk.start world request none)).1 with
    | error e => rfl
    | ok u => exact congrArg Except.ok hresult
  have hinbox : (desk.run world request).2.inbox = ({ desk with archive? := other? }.run
      { world with events, runs, ledger } { request with threadId, userId?, messageId? }).2.inbox := by
    unfold run
    rw [(finish_frame desk _).1, (finish_frame _ _).1]
    exact hends.inbox
  have hcalls : (desk.run world request).2.calls = ({ desk with archive? := other? }.run
      { world with events, runs, ledger } { request with threadId, userId?, messageId? }).2.calls := by
    unfold run
    rw [(finish_frame desk _).2, (finish_frame _ _).2]
    exact hends.calls
  unfold observed begun
  rw [← hprompts, ← hends.transcript, ← houtcome, ← hinbox, ← hcalls]

end Desk

end MeetDesk
