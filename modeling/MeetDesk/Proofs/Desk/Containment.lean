import MeetDesk.Proofs.Desk.Replay

/-!
# Questions that are declined

A supervisor that takes the question not to be about powerlifting declines it, whoever it names and
whatever has been found out before. From then on the run has only the summary agent's turn left
(`Desk.loops_of_summary`), for which the question and the reason of the choice are everything there is.
-/

namespace MeetDesk

/-- The prompt for the summary agent on a question that was declined. -/
def Prompt.farewell (question : String) (reasoning? : Option String) : String :=
  Prompt.summary { question, inDomain? := some false, reasoning? } []

/-- On a question that is not about powerlifting, the summary agent sees no rows and no errors. -/
theorem Prompt.summary_eq_farewell {q : Inquiry} (h : q.inDomain? = some false) (ts : Transcript) :
    Prompt.summary q ts = Prompt.farewell q.question q.reasoning? := by
  have hunrelated : decide (q.inDomain? ≠ some false) = false := by simp [h]
  unfold Prompt.farewell Prompt.summary
  rw [hunrelated]
  rfl

namespace Desk

/-- A turn of the supervisor declines the question: the agent's text holds a call to the routing tool
with the choice `c`, which says that the question is not about powerlifting. -/
structure Declines (desk : Desk) (a : Attempt) (c : RouteChoice) : Prop where
  participant : a.participant = .supervisor
  called : ∃ text call, (desk.reply a.before .supervisor).text = .ok text ∧
    ToolCall.find desk.room Participant.supervisor.tools text = .ok (some call) ∧
    RouteChoice.read (.object call.arguments) = .valid c
  inDomain? : c.inDomain? = some false

variable {desk : Desk} {left : Nat} {r r' : Run} {a : Attempt} {c : RouteChoice}
  {ended : Except RunError Unit × Run} {before later : List Attempt}

/-! ## The turn that declines -/

/-- The summary agent is selected, whoever was named, and the store is not asked. -/
theorem action_of_declines (h : desk.Declines a c) :
    ∃ t, (desk.action a.before .supervisor).turn = .ok t ∧
      Routing.selected? t = some .summary ∧
      (desk.action a.before .supervisor).docket =
        a.before.docket.apply (RouteTool.update c .summary) ∧
      (desk.action a.before .supervisor).calls = a.before.world.calls := by
  obtain ⟨text, call, htext, hfind, hread⟩ := h.called
  have htarget := RouteTool.target?_of_declined h.inDomain?
  have hrun : ∀ d, RouteTool.run desk.room (.object call.arguments) d =
      (.ok (.participant .summary), d.apply (RouteTool.update c .summary)) := by
    intro d
    unfold RouteTool.run RouteTool.choose
    rw [hread]
    dsimp only
    rw [htarget]
  have hname : call.name = RouteTool.name := ToolCall.name_eq_of_find hfind
  unfold action Action.ofReply
  rw [htext]
  dsimp only [Action.take]
  unfold Action.supervisor
  rw [hfind]
  dsimp only
  rw [hrun]
  refine ⟨_, rfl, Routes.selected? (c := c) ⟨congrArg some hname, hread, htarget, rfl⟩, rfl, rfl⟩

/-- After the turn that declines, the summary agent is next, unless the deadline has passed. -/
theorem turn_of_declines (h : desk.Declines a c) :
    (desk.turn a.before .supervisor).2.world.calls = a.before.world.calls ∧
      ((a.before.left? ≠ none ∧ (desk.turn a.before .supervisor).1 = .error .overdue) ∨
        ((desk.turn a.before .supervisor).1 = .ok () ∧
          (desk.turn a.before .supervisor).2.scheduled? = some .summary ∧
          (desk.turn a.before .supervisor).2.docket =
            a.before.docket.apply (RouteTool.update c .summary))) := by
  obtain ⟨t, hturn, hselected, hdocket, hcalls⟩ := action_of_declines h
  have hout := turn_outcome desk a.before .supervisor
  generalize (desk.turn a.before .supervisor).1 = outcome at hout ⊢
  cases hout with
  | missed hmissed => exact ⟨hmissed.calls, Or.inl ⟨hmissed.left?, rfl⟩⟩
  | raised htook herror => cases herror.symm.trans hturn
  | lost htook hturn' _ _ hselected' =>
    obtain rfl := Except.ok.inj (hturn.symm.trans hturn')
    cases hselected.symm.trans hselected'
  | routed htook hturn' _ _ hselected' hscheduled =>
    obtain rfl := Except.ok.inj (hturn.symm.trans hturn')
    obtain rfl := Option.some.inj (hselected.symm.trans hselected')
    exact ⟨htook.calls.trans hcalls, Or.inr ⟨rfl, hscheduled, htook.docket.trans hdocket⟩⟩
  | spoke _ _ _ hother => exact absurd rfl hother

/-! ## The rest of the loop -/

/-- What is left of a loop where one of its turns begins. -/
theorem Loops.drop (h : Loops desk left r ended (before ++ a :: later)) :
    ∃ rest, left = before.length + (rest + 1) ∧ Loops desk (rest + 1) a.before ended (a :: later) := by
  induction before generalizing left r with
  | nil =>
    rw [List.nil_append] at h
    cases h with
    | stopped hnext hturn => exact ⟨_, (Nat.zero_add _).symm, .stopped hnext hturn⟩
    | turn hnext hturn hrest => exact ⟨_, (Nat.zero_add _).symm, .turn hnext hturn hrest⟩
  | cons first before ih =>
    generalize hlist : first :: before ++ a :: later = begun at h
    cases h with
    | done | spent => cases hlist
    | stopped hnext hturn =>
      have hnil := (List.cons.inj hlist).2
      simp at hnil
    | turn hnext hturn hrest =>
      obtain ⟨rfl, rfl⟩ := List.cons.inj hlist
      obtain ⟨rest, hleft, hloops⟩ := ih hrest
      refine ⟨rest, ?_, hloops⟩
      rw [hleft, List.length_cons]
      omega

/-- The summary agent's turn changes neither the docket nor what the store has received. It fails only
if the agent does; else its text is the answer. -/
theorem action_summary (desk : Desk) (r : Run) :
    (desk.action r .summary).docket = r.docket ∧ (desk.action r .summary).calls = r.world.calls ∧
      ((∃ fault, (desk.reply r .summary).text = .error fault ∧
          (desk.action r .summary).turn = .error (.fault fault)) ∨
        ∃ text t, (desk.reply r .summary).text = .ok text ∧ (desk.action r .summary).turn = .ok t ∧
          t.participant = .summary ∧ t.text = Action.answerOf text) := by
  unfold action Action.ofReply
  cases (desk.reply r .summary).text with
  | error fault => exact ⟨rfl, rfl, Or.inl ⟨fault, rfl, rfl⟩⟩
  | ok text => exact ⟨rfl, rfl, Or.inr ⟨text, _, rfl, rfl, rfl, rfl⟩⟩

/-- A loop that has come to the summary agent's turn begins this turn and no other. -/
structure EndsBySummary (desk : Desk) (left : Nat) (r : Run) (ended : Except RunError Unit × Run)
    (later : List Attempt) : Prop where
  attempts : later = [] ∨ later = [⟨.summary, r⟩]
  calls : ended.2.world.calls = r.world.calls
  /-- Without a deadline, it ends with the answer unless there is no turn left or the agent fails. -/
  outcome : r.left? = none →
    (left = 0 ∧ later = [] ∧ ended.1 = .error (.outOfTurns desk.maxTurns)) ∨
    (0 < left ∧ later = [⟨.summary, r⟩] ∧
      ((∃ fault, (desk.reply r .summary).text = .error fault ∧ ended.1 = .error (.fault fault)) ∨
        ∃ text, (desk.reply r .summary).text = .ok text ∧ ended.1 = .ok () ∧
          ended.2.result.answer = Action.answerOf text ∧
          ended.2.docket = r.docket))

theorem loops_of_summary (h : Loops desk left r ended later) (hscheduled : r.scheduled? = some .summary)
    (hcompleted : r.docket.inquiry.completed = true) : EndsBySummary desk left r ended later := by
  have hsummary : r.next? = some .summary := by
    unfold Run.next?
    rw [hscheduled]
    rfl
  obtain ⟨hdocket, hcalls, haction⟩ := action_summary desk r
  cases h with
  | done hnext => cases hsummary.symm.trans hnext
  | spent => exact ⟨Or.inl rfl, rfl, fun _ => Or.inl ⟨rfl, rfl, rfl⟩⟩
  | @stopped left _ s p e hnext hturn =>
    obtain rfl := Option.some.inj (hsummary.symm.trans hnext)
    have hout := turn_outcome desk r .summary
    rw [hturn] at hout
    cases hout with
    | missed hmissed => exact ⟨Or.inr rfl, hmissed.calls, fun hleft => absurd hleft hmissed.left?⟩
    | raised htook herror =>
      refine ⟨Or.inr rfl, htook.calls.trans hcalls, fun _ => Or.inr ⟨Nat.succ_pos left, rfl, Or.inl ?_⟩⟩
      obtain ⟨fault, htext, hfault⟩ | ⟨text, t, -, hok, -⟩ := haction
      · exact ⟨fault, htext, congrArg Except.error (Except.error.inj (herror.symm.trans hfault))⟩
      · cases herror.symm.trans hok
    | lost _ _ _ hsupervisor => cases hsupervisor
  | @turn left _ s p _ begun hnext hturn hrest =>
    obtain rfl := Option.some.inj (hsummary.symm.trans hnext)
    have hout := turn_outcome desk r .summary
    rw [hturn] at hout
    cases hout with
    | routed _ _ _ hsupervisor => cases hsupervisor
    | @spoke _ t htook hact htranscript _ hnobody =>
      -- Nobody is scheduled and the inquiry is complete, so the loop is done.
      have hdone : s.next? = none := by
        unfold Run.next? Routing.next?
        rw [hnobody, htook.docket, hdocket, hcompleted]
        rfl
      cases hrest with
      | spent hnext' | stopped hnext' | turn hnext' => cases hdone.symm.trans hnext'
      | done =>
        refine ⟨Or.inr rfl, htook.calls.trans hcalls,
          fun _ => Or.inr ⟨Nat.succ_pos left, rfl, Or.inr ?_⟩⟩
        obtain ⟨fault, -, herror⟩ | ⟨text, t', htext, hok, ht, hanswer⟩ := haction
        · cases herror.symm.trans hact
        · obtain rfl := Except.ok.inj (hok.symm.trans hact)
          refine ⟨text, htext, rfl, ?_, htook.docket.trans hdocket⟩
          unfold Run.result
          dsimp only
          rw [htranscript, Run.answerIn_concat ht, hanswer]

/-- A choice that declines completes the inquiry and says what it is about. -/
theorem applyTo_of_declines (h : c.inDomain? = some false) (q : Inquiry) :
    (RouteTool.update c .summary).applyTo q =
      { q with inDomain? := some false, reasoning? := c.reasoning?, completed := true } := by
  unfold RouteTool.update RouteTool.domainFlag? Update.applyTo
  rw [h]
  rfl

/-- The turn that declines is overtaken by the deadline, or has the summary agent's turn after it. -/
theorem loops_of_declines (hloops : Loops desk left a.before ended (a :: later))
    (h : desk.Declines a c) :
    (a.before.left? ≠ none ∧ later = [] ∧ ended.2.world.calls = a.before.world.calls) ∨
    ∃ rest s, left = rest + 1 ∧ (a.before.left? = none → s.left? = none) ∧
      s.docket.inquiry = { a.before.docket.inquiry with
        inDomain? := some false, reasoning? := c.reasoning?, completed := true } ∧
      s.world.calls = a.before.world.calls ∧ EndsBySummary desk rest s ended later := by
  obtain ⟨hcalls, hdeclined⟩ := turn_of_declines h
  have hunhurried := left?_turn desk .supervisor (r := a.before)
  obtain ⟨p, first⟩ := a
  obtain rfl : p = .supervisor := h.participant
  dsimp only at *
  cases hloops with
  | stopped hnext hturn =>
    rw [hturn] at hcalls hdeclined
    obtain ⟨hdeadline, -⟩ | ⟨hok, -⟩ := hdeclined
    · exact Or.inl ⟨hdeadline, rfl, hcalls⟩
    · cases hok
  | @turn rest _ s _ _ _ hnext hturn hrest =>
    rw [hturn] at hcalls hdeclined hunhurried
    obtain ⟨-, hmissed⟩ | ⟨-, hscheduled, hdocket⟩ := hdeclined
    · cases hmissed
    have hinquiry := Docket.inquiry_apply first.docket (RouteTool.update c .summary)
    rw [← hdocket, applyTo_of_declines h.inDomain?] at hinquiry
    have hcompleted : s.docket.inquiry.completed = true := by rw [hinquiry]
    exact Or.inr ⟨rest, s, rfl, hunhurried, hinquiry, hcalls,
      loops_of_summary hrest hscheduled hcompleted⟩

/-! ## Whole runs -/

/-- How a run ends in which a turn declined the question after the turns `before`. -/
inductive Dismissed (desk : Desk) (before : Nat) :
    List Attempt → Except RunError RunResult → Prop
  /-- There is no turn left. -/
  | spent (last : before + 1 = desk.maxTurns) :
      Dismissed desk before [] (.error (.outOfTurns desk.maxTurns))
  /-- The summary agent fails. -/
  | failed {b : Attempt} {fault : Fault} (within : before + 1 < desk.maxTurns)
      (reply : (desk.reply b.before .summary).text = .error fault) :
      Dismissed desk before [b] (.error (.fault fault))
  /-- The summary agent answers. -/
  | answered {b : Attempt} {text : String} {result : RunResult} (within : before + 1 < desk.maxTurns)
      (reply : (desk.reply b.before .summary).text = .ok text)
      (answer : result.answer = Action.answerOf text) (inDomain? : result.inDomain? = some false) :
      Dismissed desk before [b] (.ok result)

/-- Once the supervisor has declined the question, whoever it named and whatever was found out before,
the store is not asked again, and the summary agent is the only one that gets another turn, once, with a
prompt that the question and the reason determine. Without a deadline it gets this turn unless the
turns are used up, and the run ends with its answer, on a question that is not about powerlifting,
unless it fails. -/
theorem run_declined (desk : Desk) (world : World) (request : RunRequest) (deadline? : Option Float)
    (hbegun : desk.begun world request deadline? = before ++ a :: later) (h : desk.Declines a c) :
    later.length ≤ 1 ∧
    (∀ b ∈ later, b.participant = .summary ∧
      b.before.promptFor .summary = Prompt.farewell request.input c.reasoning?) ∧
    (desk.run world request deadline?).2.calls = a.before.world.calls ∧
    (deadline? = none →
      Dismissed desk before.length later (desk.run world request deadline?).1) := by
  have hfresh := start_fresh desk world request deadline?
  have hmem : a ∈ desk.begun world request deadline? := by simp [hbegun]
  have hreach := (reaches_of_mem_attempts hmem).1
  have hloops := loops desk desk.maxTurns (desk.start world request deadline?)
  have hended : deadline? = none → _ := fun hnone =>
    left?_loop desk desk.maxTurns (hfresh.left?.trans hnone)
  unfold begun at hbegun
  unfold run
  rw [(finish_frame desk _).2]
  rw [hbegun] at hloops
  generalize desk.loop desk.maxTurns (desk.start world request deadline?) = ended at hloops hended ⊢
  obtain ⟨left, hleft, hrest⟩ := hloops.drop
  obtain ⟨hdeadline, hnil, hcalls⟩ | ⟨rest, s, hone, hunhurried, hinquiry, hcalls, hsummary⟩ :=
    loops_of_declines hrest h
  · rw [hnil]
    refine ⟨Nat.zero_le 1, fun b hb => absurd hb List.not_mem_nil, hcalls, fun hnone => ?_⟩
    exact absurd (hreach.left? (hfresh.left?.trans hnone)) hdeadline
  · obtain rfl : left = rest := Nat.succ.inj hone
    refine ⟨?_, fun b hb => ?_, hsummary.calls.trans hcalls, fun hnone => ?_⟩
    · obtain hnil | hone := hsummary.attempts
      · simp [hnil]
      · simp [hone]
    · obtain rfl : b = ⟨.summary, s⟩ := by
        obtain hnil | hone := hsummary.attempts
        · simp [hnil] at hb
        · simpa [hone] using hb
      have hquestion : s.docket.inquiry.question = request.input := by
        rw [hinquiry, (replays_of_reaches hreach).inquiry]
        rfl
      have hreasoning : s.docket.inquiry.reasoning? = c.reasoning? := by rw [hinquiry]
      rw [← hquestion, ← hreasoning]
      exact ⟨rfl, Prompt.summary_eq_farewell (by rw [hinquiry]) s.transcript⟩
    · rw [finish_of_left?_eq_none (hended hnone)]
      obtain ⟨hspent, hnil, hout⟩ | ⟨hpos, hone, ⟨fault, hreply, hout⟩ |
        ⟨text, hreply, hout, hanswer, hdocket⟩⟩ :=
          hsummary.outcome (hunhurried (hreach.left? (hfresh.left?.trans hnone)))
      · rw [hnil, hout]
        exact .spent (by omega)
      · rw [hone, hout]
        exact .failed (by omega) hreply
      · rw [hone, hout]
        refine .answered (by omega) hreply hanswer ?_
        unfold Run.result
        dsimp only
        rw [hdocket, hinquiry]

/-- A call to the routing tool that declines, and names nobody. -/
def decliningText : String :=
  "\x7b\"tool\": \"route_to_agent\", \"arguments\": \x7b\"agent\": \"nobody\", " ++
    "\"is_powerlifting_query\": \"Off\", \"reasoning\": \"small talk\"\x7d\x7d"

/-- A desk whose supervisor asks the analyst at first, which gets a row, and then declines. -/
def askingThenDeclining : Desk where
  agent
    | .supervisor => fun prompts =>
      { outcome := .ok (.object [("text", .text (if prompts.length = 1 then
          "\x7b\"tool\": \"route_to_agent\", \"arguments\": \x7b\"agent\": \"meetQueryAgent\"\x7d\x7d"
          else decliningText))]) }
    | .analyst => fun _ => { outcome := .ok (.object [("text",
        .text "\x7b\"tool\": \"get_meet_results\", \"arguments\": \x7b\x7d\x7d")]) }
    | .summary => fun _ => { outcome := .ok (.object [("text", .text "I only know meets.")]) }
  source := { store? := some fun _ => .ok [[("Name", .text "Ann")]] }

theorem exists_decliningCall : ∃ call c,
    ToolCall.find {} Participant.supervisor.tools decliningText = .ok (some call) ∧
      RouteChoice.read (.object call.arguments) = .valid c ∧ c.inDomain? = some false ∧
      c.reasoning? = some "small talk" := by
  have hread : (((ToolCall.find {} Participant.supervisor.tools
      decliningText).toOption.join.bind fun call =>
      (RouteChoice.read (.object call.arguments)).toOption).any fun c =>
        c.inDomain? == some false && c.reasoning? == some "small talk") = true := by
    decide +kernel
  obtain ⟨c, hc, hchecked⟩ := (Option.any_eq_true ..).mp hread
  obtain ⟨call, hcall, hchoice⟩ := Option.bind_eq_some_iff.mp hc
  rw [Bool.and_eq_true, beq_iff_eq, beq_iff_eq] at hchecked
  exact ⟨call, c, eq_ok_of_toOption (Option.join_eq_some_iff.mp hcall),
    Checked.eq_valid_of_toOption hchoice, hchecked⟩

theorem exists_split {α : Type} {l : List α} {i : Nat} {x : α} (h : l[i]? = some x) :
    ∃ before later, l = before ++ x :: later ∧ before.length = i := by
  obtain ⟨hlt, hget⟩ := List.getElem?_eq_some_iff.mp h
  refine ⟨l.take i, l.drop (i + 1), ?_, List.length_take_of_le (Nat.le_of_lt hlt)⟩
  rw [← hget, ← List.drop_eq_getElem_cons hlt, List.take_append_drop]

theorem run_declined_askingThenDeclining :
    ∃ before a later c result,
      askingThenDeclining.begun {} { input := "Who?", threadId := "1" } none = before ++ a :: later ∧
      askingThenDeclining.Declines a c ∧ a.before.docket.inquiry.results.length = 1 ∧
      later.length = 1 ∧
      (∀ b ∈ later, b.participant = .summary ∧
        b.before.promptFor .summary = Prompt.farewell "Who?" (some "small talk")) ∧
      (askingThenDeclining.run {} { input := "Who?", threadId := "1" }).2.calls.length = 1 ∧
      (askingThenDeclining.run {} { input := "Who?", threadId := "1" }).1 = .ok result ∧
      result.answer = Action.answerOf "I only know meets." ∧ result.inDomain? = some false := by
  have hthird : ((askingThenDeclining.begun {} { input := "Who?", threadId := "1" } none)[2]?.any
      fun a => a.participant == .supervisor &&
        (askingThenDeclining.reply a.before .supervisor).text.toOption == some decliningText &&
        a.before.docket.inquiry.results.length == 1 && a.before.world.calls.length == 1) = true := by
    decide +kernel
  obtain ⟨a, ha, hchecked⟩ := (Option.any_eq_true ..).mp hthird
  simp only [Bool.and_eq_true, beq_iff_eq] at hchecked
  obtain ⟨⟨⟨hsupervisor, htext⟩, hresults⟩, hcalls⟩ := hchecked
  obtain ⟨call, c, hfind, hread, hdomain, hreasoning⟩ := exists_decliningCall
  have hdeclines : askingThenDeclining.Declines a c :=
    ⟨hsupervisor, ⟨decliningText, call, eq_ok_of_toOption htext, hfind, hread⟩, hdomain⟩
  obtain ⟨before, later, hbegun, hbefore⟩ := exists_split ha
  obtain ⟨-, hsummary, hasked, hended⟩ :=
    run_declined askingThenDeclining {} { input := "Who?", threadId := "1" } none hbegun hdeclines
  rw [hreasoning] at hsummary
  rw [← hasked] at hcalls
  have hdismissed := hended rfl
  rw [hbefore] at hdismissed
  generalize (askingThenDeclining.run {} { input := "Who?", threadId := "1" }).1 = outcome
    at hdismissed ⊢
  have hreply : ∀ r, (askingThenDeclining.reply r .summary).text = .ok "I only know meets." :=
    fun r => rfl
  cases hdismissed with
  | spent hlast => cases hlast
  | failed _ hfault => cases (hreply _).symm.trans hfault
  | @answered b text result _ htext' hanswer hdomain' =>
    obtain rfl := Except.ok.inj ((hreply _).symm.trans htext')
    exact ⟨before, a, [b], c, result, hbegun, hdeclines, hresults, rfl, hsummary, hcalls, rfl,
      hanswer, hdomain'⟩

end Desk

end MeetDesk
