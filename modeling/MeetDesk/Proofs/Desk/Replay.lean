import MeetDesk.Proofs.Desk.Loop

/-!
# Replaying a transcript

A run keeps its state twice: in the inquiry, which the tools update, and in the transcript, which only
grows. `Replay.inquiry` reads the inquiry off the transcript by looking for the latest turns that
matter. The two stay in step through every turn, however it comes out (`Desk.turn_replays`), so the
prompts and the result of a run say nothing that its turns do not say.
-/

namespace MeetDesk

namespace Replay

/-! ## What a turn says -/

/-- Whether a turn is a call to the results tool whose output is no error. -/
def answered (t : Turn) : Bool := t.tool? == some ResultsTool.name && t.toolError?.isNone

/-- The choice of a turn that called the routing tool with success, and the participant that the tool
returned. -/
def route? (t : Turn) : Option (RouteChoice × Participant) :=
  if t.tool? = some RouteTool.name then
    match t.output, RouteChoice.read (.object t.arguments) with
    | .participant q, .valid c => some (c, q)
    | _, _ => none
  else none

/-- The domain flag that a successful choice sets: the one that it gives, or that the question is
about powerlifting if it selects the analyst without giving one. -/
def flag? (routed : RouteChoice × Participant) : Option Bool :=
  match routed.1.inDomain? with
  | some flag => some flag
  | none => if routed.2 = .analyst then some true else none

/-! ## What a transcript says -/

/-- The output of the last successful call to the results tool; the empty list if there is none. -/
def lastOutput (ts : Transcript) : Value :=
  ((ts.filter answered).getLast?.map Turn.output).getD (.list [])

/-- The fields of a value, if it is an object. -/
def fields? : Value → Option Fields
  | .object fields => some fields
  | _ => none

/-- The rows of an output. -/
def rowsOf : Value → List Row
  | .list items => items.filterMap fields?
  | _ => []

/-- The inquiry of a request after the given turns. -/
def inquiry (request : RunRequest) (ts : Transcript) : Inquiry :=
  { request.toInquiry with
    results := rowsOf (lastOutput ts)
    inDomain? := ((ts.filterMap route?).filterMap flag?).getLast?
    reasoning? := (ts.filterMap route?).getLast?.bind fun routed => routed.1.reasoning?
    completed := (ts.filterMap route?).getLast?.any fun routed => routed.2 == .summary }

theorem rowsOf_list (rows : List Row) : rowsOf (.list (rows.map Value.object)) = rows := by
  induction rows with
  | nil => rfl
  | cons row rest ih =>
    have hrow : fields? (.object row) = some row := rfl
    simp only [rowsOf, List.map_cons, List.filterMap_cons_some hrow] at ih ⊢
    rw [ih]

variable {request : RunRequest} {ts : Transcript} {t : Turn}

theorem lastOutput_append_of_answered (h : answered t = true) :
    lastOutput (ts ++ [t]) = t.output := by
  simp [lastOutput, h]

theorem lastOutput_append_of_not_answered (h : answered t = false) :
    lastOutput (ts ++ [t]) = lastOutput ts := by
  simp [lastOutput, h]

/-- A turn that says nothing leaves the inquiry as it is. -/
theorem inquiry_append_of_silent (ha : answered t = false) (hr : route? t = none) :
    inquiry request (ts ++ [t]) = inquiry request ts := by
  simp [inquiry, lastOutput_append_of_not_answered ha, hr]

/-- A turn that returned rows puts them into the inquiry. -/
theorem inquiry_append_of_answered {rows : List Row} (ha : answered t = true) (hr : route? t = none)
    (hrows : t.output = .list (rows.map Value.object)) :
    inquiry request (ts ++ [t]) = (ResultsTool.update rows).applyTo (inquiry request ts) := by
  have hlast : rowsOf (lastOutput (ts ++ [t])) = rows := by
    rw [lastOutput_append_of_answered ha, hrows, rowsOf_list]
  simp [inquiry, hlast, hr, ResultsTool.update, Update.applyTo]

/-- The flag of a choice is what the routing tool makes of it. -/
theorem flag?_eq (c : RouteChoice) (q : Participant) : flag? (c, q) = RouteTool.domainFlag? c q := by
  unfold flag? RouteTool.domainFlag?
  cases c.inDomain? <;> simp

/-- A turn that routed puts its choice into the inquiry. -/
theorem inquiry_append_of_routes {c : RouteChoice} {q : Participant} (h : Routes t c q) :
    answered t = false ∧
      inquiry request (ts ++ [t]) = (RouteTool.update c q).applyTo (inquiry request ts) := by
  have ha : answered t = false := by
    have hname : (some RouteTool.name == some ResultsTool.name) = false := by decide
    rw [answered, h.tool, hname, Bool.false_and]
  have hr : route? t = some (c, q) := by
    simp [route?, h.tool, h.output, h.choice]
  refine ⟨ha, ?_⟩
  have hflag : (((ts ++ [t]).filterMap route?).filterMap flag?).getLast? =
      ((RouteTool.domainFlag? c q).map some).getD ((ts.filterMap route?).filterMap flag?).getLast? := by
    rw [← flag?_eq]
    cases hf : flag? (c, q) with
    | none => simp [hr, hf]
    | some flag => simp [hr, hf]
  have hdone : ((ts ++ [t]).filterMap route?).getLast? = some (c, q) := by
    simp [hr]
  simp only [inquiry, hflag, hdone, lastOutput_append_of_not_answered ha, RouteTool.update,
    Update.applyTo, Option.getD_some, Option.getD_none, Option.bind_some, Option.any_some]
  rfl

end Replay

open Replay

/-- The docket of a run is what its transcript says. -/
structure Replays (request : RunRequest) (d : Docket) (ts : Transcript) : Prop where
  inquiry : d.inquiry = Replay.inquiry request ts
  output : Value.list (d.inquiry.results.map Value.object) = lastOutput ts

namespace Replays

variable {request : RunRequest} {d d' : Docket} {ts : Transcript} {t : Turn}

/-- A turn that neither returns rows nor routes leaves the replay as it is. -/
theorem silent (h : Replays request d ts) (ha : answered t = false) (hr : route? t = none) :
    Replays request d (ts ++ [t]) :=
  ⟨h.inquiry.trans (inquiry_append_of_silent ha hr).symm,
    h.output.trans (lastOutput_append_of_not_answered ha).symm⟩

/-- A turn that returns rows puts them into the replay. -/
theorem returned {rows : List Row} (h : Replays request d ts) (ha : answered t = true)
    (hr : route? t = none) (hrows : t.output = .list (rows.map Value.object)) :
    Replays request (d.apply (ResultsTool.update rows)) (ts ++ [t]) := by
  constructor
  · rw [Docket.inquiry_apply, h.inquiry, inquiry_append_of_answered ha hr hrows]
  · rw [Docket.inquiry_apply, lastOutput_append_of_answered ha, hrows]
    rfl

/-- A turn that routes puts its choice into the replay. -/
theorem routed {c : RouteChoice} {q : Participant} (h : Replays request d ts) (ht : Routes t c q) :
    Replays request (d.apply (RouteTool.update c q)) (ts ++ [t]) := by
  obtain ⟨ha, hinquiry⟩ : answered t = false ∧ Replay.inquiry request (ts ++ [t]) =
    (RouteTool.update c q).applyTo (Replay.inquiry request ts) := inquiry_append_of_routes ht
  constructor
  · rw [Docket.inquiry_apply, h.inquiry, hinquiry]
  · rw [Docket.inquiry_apply, lastOutput_append_of_not_answered ha, ← h.output]
    rfl

end Replays

theorem Replay.route?_eq_none_of_tool (t : Turn) (h : t.tool? ≠ some RouteTool.name) :
    route? t = none := if_neg h

theorem Replay.route?_eq_none_of_output (t : Turn) (h : ∀ q, t.output ≠ .participant q) :
    route? t = none := by
  unfold route?
  split
  · split
    · rename_i q c hq _
      exact absurd hq (h q)
    · rfl
  · rfl

theorem Replay.answered_of_tool (t : Turn) (h : t.tool? ≠ some ResultsTool.name) :
    answered t = false := by
  simp [answered, h]

namespace Desk

variable {desk : Desk} {request : RunRequest} {r : Run} {p : Participant}

/-- An action that fails leaves the docket as it is. -/
theorem docket_of_action_error {e : RunError} (h : (desk.action r p).turn = .error e) :
    (desk.action r p).docket = r.docket := by
  have hacts := action_acts desk r p
  rw [h] at hacts
  generalize (desk.action r p).docket = d at hacts
  cases hacts with
  | failed => rfl

/-- A recorded turn says what its action did to the docket. -/
theorem action_replays {t : Turn} {ts : Transcript} (h : (desk.action r p).turn = .ok t)
    (hr : Replays request r.docket ts) : Replays request (desk.action r p).docket (ts ++ [t]) := by
  have hacts := action_acts desk r p
  rw [h] at hacts
  generalize (desk.action r p).docket = d at hacts
  cases hacts with
  | routed _ hroutes => exact hr.routed hroutes
  | undecided _ _ houtput htool =>
    exact hr.silent (answered_of_tool t htool) (route?_eq_none_of_output t houtput)
  | returned _ htool houtput =>
    have ha : answered t = true := by
      simp [answered, htool, Turn.toolError?, houtput, Value.field?]
    have hroute : t.tool? ≠ some RouteTool.name := by
      rw [htool]
      decide
    exact hr.returned ha (route?_eq_none_of_tool t hroute) houtput
  | refused _ htool hfailed =>
    have ha : answered t = false := by
      by_cases hname : t.tool? = some ResultsTool.name
      · cases herror : t.toolError? with
        | none => exact absurd herror (hfailed hname)
        | some message => simp [answered, herror]
      · exact answered_of_tool t hname
    exact hr.silent ha (route?_eq_none_of_tool t htool)
  | answered _ htool =>
    exact hr.silent (answered_of_tool t (by simp [htool]))
      (route?_eq_none_of_tool t (by simp [htool]))

/-- Docket and transcript stay in step through a turn, however it comes out. -/
theorem turn_replays (desk : Desk) (p : Participant)
    (hr : Replays request r.docket r.transcript) :
    Replays request (desk.turn r p).2.docket (desk.turn r p).2.transcript := by
  have hout := turn_outcome desk r p
  generalize (desk.turn r p).1 = outcome at hout
  cases hout with
  | missed hmissed htranscript =>
    rw [hmissed.docket, htranscript]
    exact hr
  | raised htook hturn htranscript =>
    rw [htook.docket, htranscript, docket_of_action_error hturn]
    exact hr
  | lost htook hturn htranscript | routed htook hturn htranscript | spoke htook hturn htranscript =>
    rw [htook.docket, htranscript]
    exact action_replays hturn hr

/-- Docket and transcript are in step wherever the loop of a run comes to. -/
theorem replays_of_reaches {world : World} {deadline? : Option Float}
    (h : desk.Reaches (desk.start world request deadline?) r) :
    Replays request r.docket r.transcript := by
  induction h with
  | start =>
    have hfresh := start_fresh desk world request deadline?
    rw [hfresh.docket, hfresh.transcript]
    exact ⟨rfl, rfl⟩
  | @turn _ _ p _ _ hturn ih =>
    have hstep := turn_replays desk p ih
    rw [hturn] at hstep
    exact hstep

end Desk

end MeetDesk
