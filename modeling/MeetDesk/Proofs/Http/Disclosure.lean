import MeetDesk.Proofs.Desk.History
import MeetDesk.Proofs.Http.Agreement

/-!
# What the caller is told of a failure

A run may fail of anything that its agents raise, of the router and of the time that it takes. The caller
learns whether it took too long or not, and nothing else: two failures that are answered with one status
are answered alike, whatever was asked and whatever happened (`Http.Posted.answer_discloses`).
-/

namespace MeetDesk

/-- Time ran out, in the run or for it. -/
def RunError.isTimeout : RunError → Bool
  | .overdue => true
  | .fault f => f.family == .timeout
  | .noRoute _ | .outOfTurns _ | .unreadable _ => false

/-- The run was called off. -/
def RunError.isCallOff : RunError → Bool
  | .fault f => f.isCancellation
  | .overdue | .noRoute _ | .outOfTurns _ | .unreadable _ => false

theorem RunError.isTimeout_of_isCallOff {e : RunError} (h : e.isCallOff = true) : e.isTimeout = false := by
  cases e with
  | fault f =>
    have hfamily : f.family = .cancellation := beq_iff_eq.mp h
    simp [isTimeout, hfamily]
  | overdue | noRoute | outOfTurns | unreadable => cases h

/-- An object without the field of the given name. -/
def Value.without (name : String) : Value → Value
  | .object fields => .object (fields.filter fun field => field.1 != name)
  | v => v

namespace Http

/-- A valid request for a run, at an application that has a desk. -/
structure Posted where
  /-- The application. -/
  app : App
  /-- Its desk. -/
  desk : Desk
  /-- The document in the body of the request. -/
  document? : Option String
  /-- The body. -/
  body? : Option Value
  /-- The request. -/
  request : RunRequest
  installed : app.desk? = some desk
  read : readBody app.levels document? = .ok body?
  valid : readRunRequest body? = .valid request

/-- What is told of an outcome. -/
inductive Told : Except RunError RunResult → Except Fault Response → Prop where
  | completed {result : RunResult} {body : Value} : Told (.ok result) (.ok ⟨200, body⟩)
  | late {e : RunError} (timeout : e.isTimeout = true) : Told (.error e) (.ok timedOut)
  | failed {e : RunError} (timeout : e.isTimeout = false) (callOff : e.isCallOff = false) :
      Told (.error e) (.ok broken)
  | calledOff {f : Fault} (callOff : f.isCancellation = true) : Told (.error (.fault f)) (.error f)

/-- The answer to a failure with a status. -/
def failureWith (status : Nat) : Response := if status = 504 then timedOut else broken

variable {outcome outcome' : Except RunError RunResult} {told : Except Fault Response}
  {status levels : Nat} {body body' : Value}

/-- A failure is told as a timeout, as a failure, or not at all. -/
theorem told_error (e : RunError) : Told (.error e) (answerFor levels (.error e)) := by
  cases e with
  | fault f =>
    unfold answerFor
    dsimp only
    split
    · rename_i hfamily
      exact .calledOff (by simp [Fault.isCancellation, hfamily])
    · rename_i hfamily
      exact .late (by simp [RunError.isTimeout, hfamily])
    · rename_i hcancelled htimeout
      exact .failed (by simpa [RunError.isTimeout] using htimeout)
        (by simpa [RunError.isCallOff, Fault.isCancellation] using hcancelled)
  | overdue => exact .late rfl
  | noRoute | outOfTurns | unreadable => exact .failed rfl rfl

/-- A result is told if it can be sent. -/
theorem told_ok {result : RunResult}
    (h : send? levels .refused ((RunReport.ofResult result).toValue .outer) = some body) :
    Told (.ok result) (answerFor levels (.ok result)) := by
  have hanswer : answerFor levels (.ok result) = .ok ⟨200, body⟩ := by
    show Except.ok (report levels ((RunReport.ofResult result).toValue .outer)) = _
    rw [report, send?_null_of_refused h]
    rfl
  rw [hanswer]
  exact .completed

namespace Told

/-- Only a result is told with 200. -/
theorem status_200_iff (h : Told outcome told) :
    (∃ body, told = .ok ⟨200, body⟩) ↔ ∃ result, outcome = .ok result := by
  cases h <;> simp [timedOut, broken, Http.failed]

/-- Only a timeout is told with 504. -/
theorem status_504_iff (h : Told outcome told) :
    (∃ body, told = .ok ⟨504, body⟩) ↔ ∃ e, outcome = .error e ∧ e.isTimeout = true := by
  cases h with
  | completed => simp
  | late htimeout => simp [timedOut, Http.failed, htimeout]
  | failed htimeout => simp [broken, Http.failed, htimeout]
  | @calledOff f hcallOff =>
    have htimeout : (RunError.fault f).isTimeout = false := RunError.isTimeout_of_isCallOff hcallOff
    simp [htimeout]

/-- Only another failure is told with 500. -/
theorem status_500_iff (h : Told outcome told) :
    (∃ body, told = .ok ⟨500, body⟩) ↔
      ∃ e, outcome = .error e ∧ e.isTimeout = false ∧ e.isCallOff = false := by
  cases h with
  | completed => simp
  | late htimeout => simp [timedOut, Http.failed, htimeout]
  | failed htimeout hcallOff => simp [broken, Http.failed, htimeout, hcallOff]
  | calledOff hcallOff => simp [RunError.isCallOff, hcallOff]

/-- Only a cancellation is passed on. -/
theorem error_iff {f : Fault} (h : Told outcome told) :
    told = .error f ↔ outcome = .error (.fault f) ∧ f.isCancellation = true := by
  cases h with
  | completed => simp
  | @late e htimeout =>
    simp only [reduceCtorEq, Except.error.injEq, false_iff, not_and]
    rintro rfl hcallOff
    exact absurd (htimeout.symm.trans (RunError.isTimeout_of_isCallOff hcallOff)) (by decide)
  | @failed e _ hcallOff =>
    simp only [reduceCtorEq, Except.error.injEq, false_iff, not_and]
    rintro rfl hcallOff'
    exact absurd (hcallOff'.symm.trans hcallOff) (by decide)
  | @calledOff g hcallOff =>
    simp only [Except.error.injEq, RunError.fault.injEq]
    exact ⟨fun hfault => ⟨hfault, hfault ▸ hcallOff⟩, And.left⟩

/-- What is told of a failure is told by the status. -/
theorem eq_failureWith (h : Told outcome (.ok ⟨status, body⟩)) (hstatus : status ≠ 200) :
    Response.mk status body = failureWith status := by
  cases h with
  | completed => exact absurd rfl hstatus
  | late => rfl
  | failed => rfl

/-- Failures that are told with one status are told alike. -/
theorem without_eq (h : Told outcome (.ok ⟨status, body⟩)) (h' : Told outcome' (.ok ⟨status, body'⟩))
    (hstatus : status ≠ 200) :
    body.without "correlation_id" = body'.without "correlation_id" := by
  have hanswer : Response.mk status body = Response.mk status body' :=
    (h.eq_failureWith hstatus).trans (h'.eq_failureWith hstatus).symm
  obtain rfl : body = body' := congrArg Response.body hanswer
  rfl

end Told

/-- How a run ends when the application awaits it. With no time at all, time runs out before it starts. -/
def App.await (app : App) (desk : Desk) (request : RunRequest) : Except RunError RunResult :=
  if app.timeout ≤ 0 then .error .overdue
  else (desk.run app.world request (some app.timeout)).1

namespace Posted

/-- How the run of the request ends. -/
def awaited (p : Posted) : Except RunError RunResult := p.app.await p.desk p.request

/-- What the caller is told. -/
def answer (p : Posted) : Except Fault Response := (p.app.postRun p.document?).1

/-- The result of the run, if it has one, can be sent: there is room for it, it has a form in a body, and
each float in it is a finite number. -/
def Representable (p : Posted) : Prop :=
  ∀ result, p.awaited = .ok result →
    ∃ body, send? p.app.levels.report .refused ((RunReport.ofResult result).toValue .outer) = some body

/-- A valid request is answered by how its run ends. -/
theorem answer_eq (p : Posted) : p.answer = answerFor p.app.levels.report p.awaited := by
  unfold answer awaited App.await App.postRun App.startRun
  rw [p.read]
  dsimp only
  rw [p.installed]
  dsimp only
  rw [p.valid]
  dsimp only
  split <;> rfl

theorem told_answer (p : Posted) (hp : p.Representable) : Told p.awaited p.answer := by
  rw [answer_eq]
  cases hawaited : p.awaited with
  | error e => exact told_error e
  | ok result =>
    obtain ⟨body, hbody⟩ := hp result hawaited
    exact told_ok hbody

/-- A valid request is answered with 200 exactly if its run has a result, with 504 exactly if time ran out in
the run or for it, and with 500 exactly if the run failed of anything else; one that was called off is not
answered. Two failures that are answered with one status have one body, up to the identifier, whatever the
applications, their desks and worlds and the requests are. -/
theorem answer_discloses (p : Posted) (hp : p.Representable) :
    ((∃ body, p.answer = .ok ⟨200, body⟩) ↔ ∃ result, p.awaited = .ok result) ∧
      ((∃ body, p.answer = .ok ⟨504, body⟩) ↔ ∃ e, p.awaited = .error e ∧ e.isTimeout = true) ∧
      ((∃ body, p.answer = .ok ⟨500, body⟩) ↔
        ∃ e, p.awaited = .error e ∧ e.isTimeout = false ∧ e.isCallOff = false) ∧
      (∀ f, p.answer = .error f ↔ p.awaited = .error (.fault f) ∧ f.isCancellation = true) ∧
      ∀ q : Posted, q.Representable → ∀ status body body', status ≠ 200 →
        p.answer = .ok ⟨status, body⟩ → q.answer = .ok ⟨status, body'⟩ →
        body.without "correlation_id" = body'.without "correlation_id" := by
  have htold := p.told_answer hp
  refine ⟨htold.status_200_iff, htold.status_504_iff, htold.status_500_iff, fun f => htold.error_iff,
    fun q hq status body body' hstatus hanswer hanswer' => ?_⟩
  have htold' := q.told_answer hq
  rw [hanswer] at htold
  rw [hanswer'] at htold'
  exact htold.without_eq htold' hstatus

/-- A run that fails has no result that would have to be sent. -/
theorem representable_of_error {p : Posted} {e : RunError} (h : p.awaited = .error e) :
    p.Representable := by
  intro result hresult
  cases h.symm.trans hresult

/-- The error of an outcome that has one. -/
def error? (outcome : Except RunError RunResult) : Option RunError :=
  match outcome with
  | .ok _ => none
  | .error e => some e

theorem eq_error_of_error? {e : RunError} (h : error? outcome = some e) : outcome = .error e := by
  cases outcome with
  | ok => cases h
  | error e' => exact congrArg Except.error (Option.some.inj h)

/-- The request in `App.whoDocument`. -/
def who : RunRequest := { input := "Who?", threadId := "1" }

theorem exists_posted (app : App) {desk : Desk} (hdesk : app.desk? = some desk)
    (hlevels : app.levels = {}) :
    ∃ p : Posted, p.app = app ∧ p.awaited = app.await desk who := by
  have hread : (((readBody {} (some App.whoDocument)).toOption.bind fun body? =>
      (readRunRequest body?).toOption).any fun request =>
        (request.input == "Who?" && request.threadId == "1") &&
          (request.userId? == none && request.messageId? == none)) = true := by
    decide +kernel
  obtain ⟨⟨input, threadId, userId?, messageId?⟩, hrequest, hchecked⟩ :=
    (Option.any_eq_true ..).mp hread
  obtain ⟨body?, hbody, hvalid⟩ := Option.bind_eq_some_iff.mp hrequest
  simp only [Bool.and_eq_true, beq_iff_eq] at hchecked
  obtain ⟨⟨rfl, rfl⟩, rfl, rfl⟩ := hchecked
  have hbody' : readBody app.levels (some App.whoDocument) = .ok body? := by
    rw [hlevels]
    exact eq_ok_of_toOption hbody
  exact ⟨⟨app, desk, some App.whoDocument, body?, who, hdesk, hbody',
    Checked.eq_valid_of_toOption hvalid⟩, rfl, rfl⟩

/-- A desk whose supervisor fails. -/
def failing (f : Fault) : Desk where
  agent := fun _ _ => { outcome := .error f }
  source := { store? := none }

/-- A failure that says more than it should. -/
def telling : Fault := .ordinary "ValueError" "The password is wrong."

theorem answer_discloses_telling :
    ∃ p q r : Posted, p.app = { desk? := some (App.answering "Ann.") } ∧
      q.app = { desk? := some (failing telling) } ∧ r.app = { desk? := some Desk.undecided } ∧
      (∃ body, p.answer = .ok ⟨200, body⟩) ∧
      ∃ body body', q.answer = .ok ⟨500, body⟩ ∧ r.answer = .ok ⟨500, body'⟩ ∧
        body.without "correlation_id" = body'.without "correlation_id" := by
  obtain ⟨p, hp, hawaitedp⟩ := exists_posted { desk? := some (App.answering "Ann.") } rfl rfl
  obtain ⟨q, hq, hawaitedq⟩ := exists_posted { desk? := some (failing telling) } rfl rfl
  obtain ⟨r, hr, hawaitedr⟩ := exists_posted { desk? := some Desk.undecided } rfl rfl
  have hresult : (p.awaited.toOption.any fun result =>
      (send? p.app.levels.report .refused ((RunReport.ofResult result).toValue .outer)).isSome) =
        true := by
    rw [hp, hawaitedp]
    decide +kernel
  have hfault : q.awaited = .error (.fault telling) := by
    rw [hawaitedq]
    exact eq_error_of_error? (by decide +kernel)
  have hnoRoute : r.awaited = .error (.noRoute 0) := by
    rw [hawaitedr]
    exact eq_error_of_error? (by decide +kernel)
  obtain ⟨result, hsome, hsent⟩ := (Option.any_eq_true ..).mp hresult
  have hok := eq_ok_of_toOption hsome
  have hrepresentable : p.Representable := by
    intro result' hresult'
    obtain rfl := Except.ok.inj (hok.symm.trans hresult')
    exact Option.isSome_iff_exists.mp hsent
  obtain ⟨hcompleted, -⟩ := answer_discloses p hrepresentable
  obtain ⟨-, -, hbroken, -, halike⟩ := answer_discloses q (representable_of_error hfault)
  obtain ⟨-, -, hbroken', -⟩ := answer_discloses r (representable_of_error hnoRoute)
  obtain ⟨body, hbody⟩ := hbroken.mpr ⟨_, hfault, rfl, rfl⟩
  obtain ⟨body', hbody'⟩ := hbroken'.mpr ⟨_, hnoRoute, rfl, rfl⟩
  exact ⟨p, q, r, hp, hq, hr, hcompleted.mpr ⟨result, hok⟩, body, body', hbody, hbody',
    halike r (representable_of_error hnoRoute) 500 body body' (by decide) hbody hbody'⟩

end Posted

end Http

end MeetDesk
