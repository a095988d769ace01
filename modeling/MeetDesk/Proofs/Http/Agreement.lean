import MeetDesk.Proofs.Desk.Result
import MeetDesk.Proofs.Form.Dumps
import MeetDesk.Proofs.Http.Sending

/-!
# What the caller is told of a run

A caller sees a run twice: in the answer to the request that started it, and later in its thread. Both
are made from the turns of the run, but on different ways: the answer from the result, the thread from
what the writer has appended to the archive. They agree (`Http.App.postRun_agrees`).
-/

namespace MeetDesk

namespace Http

/-! ## The two bodies -/

/-- The body of the answer to a run that has a result. -/
def completedBody (answer threadId : String) (turns : List Value) (count : Nat) : Value :=
  .object [("status", .text completedStatus), ("answer", .text answer), ("threadId", .text threadId),
    ("turns", .list turns), ("resultCount", .int count)]

/-- The body of the answer with a thread. -/
def threadBody (threadId : String) (entries : List Value) : Value :=
  .object [("threadId", .text threadId), ("entries", .list entries)]

/-- The entry for a question. -/
def questionEntry (question : String) : Value :=
  .object [("role", .text "user"), ("content", .text question)]

/-- The entry for a turn of an answer: the same fields, behind the role. -/
def turnEntry : Value → Value
  | .object fields => .object (("role", .text "agent") :: fields)
  | v => v

/-- The names of the fields of a turn in an answer. -/
def turnNames : List String := ["index", "agent", "text", "tool_name", "tool_arguments", "tool_output"]

/-- The number of rows in the last of the turns of an answer whose tool returned a list; none if there is
no such turn. -/
def rowCount (turns : List Value) : Nat :=
  ((turns.filterMap fun t => (t.field? "tool_output").bind Value.rows?).getLast?.map List.length).getD 0

variable {result : RunResult} {body : Value} {threadId : String}

/-- The answer to a run has the parts of its result. -/
theorem of_encode?_report (hthread : result.threadId? = some threadId)
    (h : encode? .null ((RunReport.ofResult result).toValue .outer) = some body) :
    Text.isWhole threadId = true ∧ ∃ turns,
      List.Forall₂ (fun t w => encode? .null (Turn.toValue t) = some w) result.turns turns ∧
      body = completedBody result.answer threadId turns result.results.length := by
  obtain ⟨sent, hreport, rfl⟩ := encode?_object_eq_some_iff.mp h
  obtain ⟨-, status, behindStatus, hstatus, hanswers, rfl⟩ := encodeFields?_cons_eq_some_iff.mp hreport
  obtain ⟨-, answer, behindAnswer, hanswer, hthreads, rfl⟩ := encodeFields?_cons_eq_some_iff.mp hanswers
  obtain ⟨-, thread, behindThread, hname, hlists, rfl⟩ := encodeFields?_cons_eq_some_iff.mp hthreads
  obtain ⟨-, list, behindTurns, hlist, hcounts, rfl⟩ := encodeFields?_cons_eq_some_iff.mp hlists
  obtain ⟨-, count, nothing, hcount, hnothing, rfl⟩ := encodeFields?_cons_eq_some_iff.mp hcounts
  have hthread' : (RunReport.ofResult result).threadId? = some threadId := hthread
  rw [hthread'] at hname
  obtain ⟨-, rfl⟩ := encode?_text_eq_some_iff.mp hstatus
  obtain ⟨-, rfl⟩ := encode?_text_eq_some_iff.mp hanswer
  obtain ⟨hwhole, rfl⟩ := encode?_text_eq_some_iff.mp hname
  obtain ⟨turns, hturns, rfl⟩ := encode?_list_eq_some_iff.mp hlist
  simp only [encode?, encodeFields?, Option.some.injEq] at hcount hnothing
  subst hcount hnothing
  refine ⟨hwhole, turns, ?_, rfl⟩
  have heach := encodeItems?_eq_some_iff.mp hturns
  rw [RunReport.ofResult, List.map_map, List.forall₂_map_left_iff] at heach
  exact heach

/-- A turn that is sent has its fields, and is the same in a thread. -/
theorem of_encode?_turn {t : Turn} {w : Value} (h : encode? .null t.toValue = some w) :
    (∃ fields, w = .object fields ∧ Fields.names fields = turnNames) ∧
      w.field? "text" = some (.text t.text) ∧
      (∃ output, encode? .null t.output = some output ∧ w.field? "tool_output" = some output) ∧
      encode? .null (Entry.turn t.toFields).toValue = some (turnEntry w) := by
  obtain ⟨sent, hsent, rfl⟩ := encode?_object_eq_some_iff.mp h
  have htext : Fields.get? t.toFields "text" = some (.text t.text) := rfl
  have houtput : Fields.get? t.toFields "tool_output" = some t.output := rfl
  refine ⟨⟨sent, rfl, names_of_encodeFields? hsent⟩, ?_, get?_of_encodeFields? hsent houtput, ?_⟩
  · obtain ⟨w, hw, hfield⟩ := get?_of_encodeFields? hsent htext
    obtain ⟨-, rfl⟩ := encode?_text_eq_some_iff.mp hw
    exact hfield
  · have hrole : encode? .null (.text "agent") = some (.text "agent") :=
      encode?_text_eq_some_iff.mpr ⟨by decide, rfl⟩
    refine encode?_object_eq_some_iff.mpr ⟨_, encodeFields?_cons_eq_some_iff.mpr
      ⟨by decide, _, sent, hrole, hsent, rfl⟩, rfl⟩

/-- The turns that are sent are objects, with the fields of a turn. -/
theorem exists_names_of_forall₂ {ts : Transcript} {turns : List Value}
    (h : List.Forall₂ (fun t w => encode? .null (Turn.toValue t) = some w) ts turns) :
    ∀ w ∈ turns, ∃ fields, w = .object fields ∧ Fields.names fields = turnNames := by
  induction h with
  | nil => simp
  | cons hfirst _ ih => exact List.forall_mem_cons.mpr ⟨(of_encode?_turn hfirst).1, ih⟩

/-- The last of the turns that are sent has the text of the last turn. -/
theorem getLast?_text_of_forall₂ {ts : Transcript} {turns : List Value} {last : Turn}
    (h : List.Forall₂ (fun t w => encode? .null (Turn.toValue t) = some w) ts turns)
    (hlast : ts.getLast? = some last) :
    (turns.getLast?.bind fun w => w.field? "text") = some (.text last.text) := by
  have hreverse := List.rel_reverse h
  rw [List.getLast?_eq_head?_reverse] at hlast ⊢
  generalize ts.reverse = backwards, turns.reverse = sent at hreverse hlast ⊢
  cases hreverse with
  | nil => cases hlast
  | cons hfirst _ =>
    obtain rfl := Option.some.inj hlast
    exact (of_encode?_turn hfirst).2.1

/-- The rows of an answer are counted as those of the run. -/
theorem rowCount_eq {ts : Transcript} {turns : List Value}
    (h : List.Forall₂ (fun t w => encode? .null (Turn.toValue t) = some w) ts turns)
    (htabular : ∀ t ∈ ts, t.Tabular) :
    rowCount turns = (Desk.lastRows ts).length := by
  have hlengths : (turns.filterMap fun t => (t.field? "tool_output").bind Value.rows?).map List.length =
      (ts.filterMap fun t => t.output.rows?).map List.length := by
    rw [List.map_filterMap, List.map_filterMap]
    induction h with
    | nil => rfl
    | @cons t w ts turns hfirst _ ih =>
      obtain ⟨ht, hts⟩ := List.forall_mem_cons.mp htabular
      obtain ⟨-, -, ⟨output, hsent, hfield⟩, -⟩ := of_encode?_turn hfirst
      rw [List.filterMap_cons, List.filterMap_cons, hfield, Option.bind_some,
        rows?_of_encode? hsent ht.tuple, ih hts]
  have hlast := congrArg List.getLast? hlengths
  rw [List.getLast?_map, List.getLast?_map] at hlast
  unfold rowCount Desk.lastRows
  rw [hlast]
  cases (ts.filterMap fun t => t.output.rows?).getLast? <;> rfl

/-- A thread is sent if its name is and each of its entries. -/
theorem encode?_threadReport_eq_some_iff {entries : List Entry} :
    encode? .null (ThreadReport.toValue .outer ⟨threadId, entries.map Entry.toFields⟩) = some body ↔
      Text.isWhole threadId = true ∧ ∃ sent,
        encodeItems? .null (entries.map Entry.toValue) = some sent ∧ body = threadBody threadId sent := by
  have hvalues : (entries.map Entry.toFields).map Value.object = entries.map Entry.toValue := by
    rw [List.map_map]
    rfl
  constructor
  · intro h
    obtain ⟨sent, hreport, rfl⟩ := encode?_object_eq_some_iff.mp h
    obtain ⟨-, name, behindName, hname, hlists, rfl⟩ := encodeFields?_cons_eq_some_iff.mp hreport
    obtain ⟨-, list, nothing, hlist, hnothing, rfl⟩ := encodeFields?_cons_eq_some_iff.mp hlists
    obtain ⟨hwhole, rfl⟩ := encode?_text_eq_some_iff.mp hname
    obtain ⟨sent, hsent, rfl⟩ := encode?_list_eq_some_iff.mp hlist
    rw [hvalues] at hsent
    obtain rfl := Option.some.inj hnothing
    exact ⟨hwhole, sent, hsent, rfl⟩
  · rintro ⟨hwhole, sent, hsent, rfl⟩
    rw [← hvalues] at hsent
    have hname : encode? .null (.text threadId) = some (.text threadId) :=
      encode?_text_eq_some_iff.mpr ⟨hwhole, rfl⟩
    have hentries := encode?_list_eq_some_iff.mpr ⟨sent, hsent, rfl⟩
    exact encode?_object_eq_some_iff.mpr ⟨_, encodeFields?_cons_eq_some_iff.mpr
      ⟨by decide, _, _, hname, encodeFields?_cons_eq_some_iff.mpr
        ⟨by decide, _, [], hentries, by rw [encodeFields?], rfl⟩, rfl⟩, rfl⟩

/-- The entry for a question is sent if the question is. -/
theorem encode?_questionEntry {question : String} (h : Text.isWhole question = true) :
    encode? .null (Entry.user question).toValue = some (questionEntry question) := by
  have hrole : encode? .null (.text "user") = some (.text "user") :=
    encode?_text_eq_some_iff.mpr ⟨by decide, rfl⟩
  have hcontent : encode? .null (.text question) = some (.text question) :=
    encode?_text_eq_some_iff.mpr ⟨h, rfl⟩
  exact encode?_object_eq_some_iff.mpr ⟨_, encodeFields?_cons_eq_some_iff.mpr
    ⟨by decide, _, _, hrole, encodeFields?_cons_eq_some_iff.mpr
      ⟨by decide, _, [], hcontent, by rw [encodeFields?], rfl⟩, rfl⟩, rfl⟩

/-- Behind what a thread held before, the entries for a run are sent if its question and its turns are. -/
theorem encodeItems?_entries {held : List Entry} {question : String} {ts : Transcript}
    {before turns : List Value} (hquestion : Text.isWhole question = true)
    (hbefore : encodeItems? .null (held.map Entry.toValue) = some before)
    (hturns : List.Forall₂ (fun t w => encode? .null (Turn.toValue t) = some w) ts turns) :
    encodeItems? .null ((held ++ Entry.ofRun (some question) ts).map Entry.toValue) =
      some (before ++ questionEntry question :: turns.map turnEntry) := by
  have hagents : List.Forall₂ (fun v w => encode? .null v = some w)
      (ts.map fun t => (Entry.turn t.toFields).toValue) (turns.map turnEntry) := by
    rw [List.forall₂_map_left_iff, List.forall₂_map_right_iff]
    exact hturns.imp fun t w h => (of_encode?_turn h).2.2.2
  have hvalues : (held ++ Entry.ofRun (some question) ts).map Entry.toValue = held.map Entry.toValue ++
      (Entry.user question).toValue :: ts.map fun t => (Entry.turn t.toFields).toValue := by
    rw [List.map_append, Entry.ofRun, List.map_append, List.map_map]
    rfl
  rw [hvalues]
  exact encodeItems?_eq_some_iff.mpr (List.rel_append (encodeItems?_eq_some_iff.mp hbefore)
    (.cons (encode?_questionEntry hquestion) hagents))

/-! ## The room for the two bodies -/

variable {levels : Nat}

/-- There is room for a thread if there is room for the fields of its entries three levels below. -/
theorem fits_entries_iff {entries : List Entry} :
    (ThreadReport.toValue .outer ⟨threadId, entries.map Entry.toFields⟩).Fits (levels + 3) ↔
      ∀ e ∈ entries, ∀ field ∈ e.toFields, field.2.Fits levels := by
  simp [ThreadReport.toValue]

/-- There is room for the turns of a report a level below it. -/
theorem fits_turns_of_report (h : ((RunReport.ofResult result).toValue .outer).Fits (levels + 1)) :
    (Value.list (result.turns.map Turn.toValue)).Fits levels := by
  have hfield := Value.fits_object_iff.mp h (RunReport.turnsSlot.label.under .outer,
    .list ((RunReport.ofResult result).turns.map Value.object)) (by simp)
  rw [RunReport.ofResult, List.map_map] at hfield
  exact hfield

/-- A report on a run takes three levels above the fields of its turns, and the fields take one. -/
theorem exists_of_fits_report (h : ((RunReport.ofResult result).toValue .outer).Fits levels) {t : Turn}
    (ht : t ∈ result.turns) :
    ∃ n, levels = n + 4 ∧ ∀ t ∈ result.turns, ∀ field ∈ t.toFields, field.2.Fits (n + 1) := by
  obtain ⟨n, rfl⟩ := h.exists_succ
  have hturns := fits_turns_of_report h
  obtain ⟨n, rfl⟩ := hturns.exists_succ
  have heach := List.forall_mem_map.mp (Value.fits_list_iff.mp hturns)
  obtain ⟨n, rfl⟩ := (heach t ht).exists_succ
  have hfields : ∀ t ∈ result.turns, ∀ field ∈ t.toFields, field.2.Fits n := fun t ht =>
    Value.fits_object_iff.mp (heach t ht)
  have houtput : t.output.Fits n := hfields t ht ("tool_output", _) (by simp [Turn.toFields])
  obtain ⟨n, rfl⟩ := houtput.exists_succ
  exact ⟨n, rfl, hfields⟩

/-- There is room for a thread with a run behind it if there was room for the thread and there is room for
the answer to the run: the turns are on the same level in both. -/
theorem fits_thread {held : List Entry} (question : String) {t : Turn} (ht : t ∈ result.turns)
    (hheld : held ≠ [] → (ThreadReport.toValue .outer ⟨threadId, held.map Entry.toFields⟩).Fits levels)
    (hreport : ((RunReport.ofResult result).toValue .outer).Fits levels) :
    (ThreadReport.toValue .outer
      ⟨threadId, (held ++ Entry.ofRun (some question) result.turns).map Entry.toFields⟩).Fits levels := by
  obtain ⟨n, rfl, hturns⟩ := exists_of_fits_report hreport ht
  refine fits_entries_iff.mpr fun e he => ?_
  rcases List.mem_append.mp he with hbefore | hrun
  · exact fits_entries_iff.mp (hheld (List.ne_nil_of_mem hbefore)) e hbefore
  · rw [Entry.ofRun, List.mem_append] at hrun
    rcases hrun with huser | hagent
    · obtain rfl : e = .user question := by simpa using huser
      simp [Entry.toFields]
    · obtain ⟨t, ht, rfl⟩ := List.mem_map.mp hagent
      simpa [Entry.toFields] using hturns t ht

namespace App

variable {app : App} {desk : Desk} {document? : Option String} {body? : Option Value}
  {request : RunRequest}

/-- Only a run that has a result is answered with success, with a report on it. -/
theorem of_answerFor {outcome : Except RunError RunResult}
    (h : answerFor levels outcome = .ok ⟨200, body⟩) :
    ∃ result, outcome = .ok result ∧
      send? levels .null ((RunReport.ofResult result).toValue .outer) = some body := by
  cases outcome with
  | ok result =>
    refine ⟨result, rfl, ?_⟩
    have hreport := Except.ok.inj h
    unfold report at hreport
    cases hsent : send? levels .null ((RunReport.ofResult result).toValue .outer) with
    | none =>
      rw [hsent] at hreport
      cases hreport
    | some sent =>
      rw [hsent] at hreport
      cases hreport
      rfl
  | error e =>
    cases e with
    | fault f =>
      unfold answerFor at h
      dsimp only at h
      split at h <;> cases h
    | noRoute | outOfTurns | unreadable | overdue => cases h

/-- A request for a run that is answered with success has been run, and the run has a result. -/
theorem of_postRun (hdesk : app.desk? = some desk) (hread : readBody app.levels document? = .ok body?)
    (hvalid : readRunRequest body? = .valid request)
    (h : (app.postRun document?).1 = .ok ⟨200, body⟩) :
    ∃ result, (desk.run app.world request (some app.timeout)).1 = .ok result ∧
      send? app.levels.report .null ((RunReport.ofResult result).toValue .outer) = some body ∧
      (app.postRun document?).2 =
        { app with world := (desk.run app.world request (some app.timeout)).2 } := by
  unfold postRun startRun at h ⊢
  rw [hread] at h ⊢
  dsimp only at h ⊢
  rw [hdesk] at h ⊢
  dsimp only at h ⊢
  rw [hvalid] at h ⊢
  dsimp only at h ⊢
  by_cases htime : app.timeout ≤ 0
  · rw [if_pos htime] at h
    cases h
  · rw [if_neg htime] at h ⊢
    obtain ⟨result, hresult, hsent⟩ := of_answerFor h
    exact ⟨result, hresult, hsent, rfl⟩

/-- A thread with entries is answered with a report on them. -/
theorem getThread_of_ne_nil (app : App) {name : String} {entries : List Entry} (hdesk : app.desk? = some desk)
    (harchive : desk.archive? = some {}) (hget : app.world.ledger.archive.get name = entries)
    (hne : entries ≠ []) :
    app.getThread name =
      report app.levels.report (ThreadReport.toValue .outer ⟨name, entries.map Entry.toFields⟩) := by
  unfold getThread
  rw [hdesk, Option.bind_some, harchive]
  dsimp only
  rw [hget]
  cases entries with
  | nil => exact absurd rfl hne
  | cons e rest => rfl

/-- A thread that is not answered with 500 can be sent, unless it is empty. -/
theorem exists_of_getThread {name : String} (hdesk : app.desk? = some desk)
    (harchive : desk.archive? = some {}) (hstatus : (app.getThread name).status ≠ 500)
    (hne : app.world.ledger.archive.get name ≠ []) :
    ∃ sent, send? app.levels.report .null (ThreadReport.toValue .outer
      ⟨name, (app.world.ledger.archive.get name).map Entry.toFields⟩) = some sent := by
  rw [getThread_of_ne_nil app hdesk harchive rfl hne, report] at hstatus
  refine Option.ne_none_iff_exists'.mp fun hnone => ?_
  rw [hnone] at hstatus
  exact hstatus rfl

/-- If a request for a run is answered with success, the answer and the thread agree. The answer is the
text of the last turn, and the count is that of the rows of the last turn whose tool returned a list. The
thread is there, with what it held before, the question, and every turn of the answer as it is there. This
is so whatever the archive holds, if what it holds in this thread is not answered with 500. -/
theorem postRun_agrees (hdesk : app.desk? = some desk) (harchive : desk.archive? = some {})
    (hcapacity : 1 ≤ app.world.ledger.archive.capacity)
    (hread : readBody app.levels document? = .ok body?)
    (hvalid : readRunRequest body? = .valid request) (hthread : request.threadId ≠ "")
    (hheld : (app.getThread request.threadId).status ≠ 500)
    (hok : (app.postRun document?).1 = .ok ⟨200, body⟩) :
    ∃ answer turns before,
      body = completedBody answer request.threadId turns (rowCount turns) ∧
      (turns.getLast?.bind fun t => t.field? "text") = some (.text answer) ∧
      (∀ t ∈ turns, ∃ fields, t = .object fields ∧ Fields.names fields = turnNames) ∧
      encodeItems? .null ((app.world.ledger.archive.get request.threadId).map Entry.toValue) =
        some before ∧
      (app.postRun document?).2.getThread request.threadId =
        ⟨200, threadBody request.threadId
          (before ++ questionEntry request.input :: turns.map turnEntry)⟩ := by
  obtain ⟨result, hresult, hsent, happ⟩ := of_postRun hdesk hread hvalid hok
  obtain ⟨hreport, hencoded⟩ := send?_eq_some_iff.mp hsent
  obtain ⟨hname, ⟨last, hlast, hanswer⟩, hcount, htabular⟩ := Desk.result_of_run hresult
  obtain ⟨hwhole, turns, hturns, rfl⟩ := of_encode?_report hname hencoded
  have hinput : Text.isWhole request.input = true := by
    unfold readRunRequest at hvalid
    split at hvalid
    · cases hvalid
    · exact (RunRequest.input_of_ofFields hvalid).1
    · cases hvalid
  -- What the thread held before can be sent, and there is room for it.
  have hsendable := exists_of_getThread hdesk harchive hheld
  have hbefore : ∃ before, encodeItems? .null
      ((app.world.ledger.archive.get request.threadId).map Entry.toValue) = some before := by
    by_cases hne : app.world.ledger.archive.get request.threadId = []
    · exact ⟨[], by rw [hne]; rfl⟩
    · obtain ⟨sent, hold⟩ := hsendable hne
      obtain ⟨-, before, hbefore, -⟩ := encode?_threadReport_eq_some_iff.mp (send?_eq_some_iff.mp hold).2
      exact ⟨before, hbefore⟩
  obtain ⟨before, hbefore⟩ := hbefore
  have hroom := fits_thread request.input (List.mem_of_getLast? hlast)
    (fun hne => (send?_eq_some_iff.mp (hsendable hne).choose_spec).1) hreport
  have hshown := send?_eq_some_iff.mpr ⟨hroom, encode?_threadReport_eq_some_iff.mpr
    ⟨hwhole, _, encodeItems?_entries hinput hbefore hturns, rfl⟩⟩
  have hget := Desk.get_of_run hresult harchive hcapacity hthread
  refine ⟨result.answer, turns, before, ?_, ?_, ?_, hbefore, ?_⟩
  · rw [rowCount_eq hturns htabular, hcount]
  · rw [hanswer]
    exact getLast?_text_of_forall₂ hturns hlast
  · exact exists_names_of_forall₂ hturns
  · have hthread' := getThread_of_ne_nil
      { app with world := (desk.run app.world request (some app.timeout)).2 } hdesk harchive hget
      (by simp [Entry.ofRun])
    rw [report, hshown] at hthread'
    rw [happ]
    exact hthread'

/-- A desk whose supervisor asks the analyst at first, which gets a row, and then the summary agent,
which writes the given text at first and then another. -/
def answering (first : String) : Desk where
  agent
    | .supervisor => fun prompts =>
      let name := if prompts.length = 1 then "meetQueryAgent" else "answerAgent"
      { outcome := .ok (.object [("text", .text ("\x7b\"tool\": \"route_to_agent\", " ++
          "\"arguments\": \x7b\"agent\": \"" ++ name ++ "\"\x7d\x7d"))]) }
    | .analyst => fun _ => { outcome := .ok (.object [("text",
        .text "\x7b\"tool\": \"get_meet_results\", \"arguments\": \x7b\x7d\x7d")]) }
    | .summary => fun prompts =>
      { outcome := .ok (.object [("text", .text (if prompts.length = 1 then first else "Ann."))]) }
  source := { store? := some fun _ => .ok [[("Name", .text "Ann")]] }
  archive? := some {}

/-- A request for a run. -/
def whoDocument : String := "\x7b\"input\": \"Who?\", \"threadId\": \"1\"\x7d"

theorem exists_whoRequest : ∃ body? request, readBody {} (some whoDocument) = .ok body? ∧
    readRunRequest body? = .valid request ∧ request.threadId = "1" ∧ request.input = "Who?" := by
  have hread : (((readBody {} (some whoDocument)).toOption.bind fun body? =>
      (readRunRequest body?).toOption).any fun request =>
        request.threadId == "1" && request.input == "Who?") = true := by
    decide +kernel
  obtain ⟨request, hrequest, hchecked⟩ := (Option.any_eq_true ..).mp hread
  obtain ⟨body?, hbody, hvalid⟩ := Option.bind_eq_some_iff.mp hrequest
  rw [Bool.and_eq_true, beq_iff_eq, beq_iff_eq] at hchecked
  exact ⟨body?, request, eq_ok_of_toOption hbody, Checked.eq_valid_of_toOption hvalid, hchecked⟩

/-- An answer that is checked to be a success is one. -/
theorem exists_of_any {outcome : Except Fault Response} (check : Value → Bool)
    (h : (outcome.toOption.any fun response => response.status == 200 && check response.body) = true) :
    ∃ body, outcome = .ok ⟨200, body⟩ ∧ check body = true := by
  obtain ⟨⟨status, body⟩, houtcome, hchecked⟩ := (Option.any_eq_true ..).mp h
  rw [Bool.and_eq_true, beq_iff_eq] at hchecked
  obtain rfl : status = 200 := hchecked.1
  exact ⟨body, eq_ok_of_toOption houtcome, hchecked.2⟩

/-- The application whose archive holds an older question in the thread. -/
def olderApp : App where
  desk? := some (answering "Ann.")
  world := { ledger := { archive := { threads := [("1", [.user "Hello?"])] } } }

/-- Whether a body counts one row. -/
def countsOne (body : Value) : Bool :=
  match body.field? "resultCount" with
  | some (.int n) => n == 1
  | _ => false

theorem postRun_agrees_olderApp :
    ∃ answer turns before,
      (olderApp.postRun (some whoDocument)).1 =
        .ok ⟨200, completedBody answer "1" turns (rowCount turns)⟩ ∧
      rowCount turns = 1 ∧ before.length = 1 ∧
      (olderApp.postRun (some whoDocument)).2.getThread "1" =
        ⟨200, threadBody "1" (before ++ questionEntry "Who?" :: turns.map turnEntry)⟩ := by
  obtain ⟨body?, request, hread, hvalid, hthread, hinput⟩ := exists_whoRequest
  have hchecked : ((olderApp.postRun (some whoDocument)).1.toOption.any fun response =>
      response.status == 200 && countsOne response.body) = true := by
    decide +kernel
  obtain ⟨body, hok, hcount⟩ := exists_of_any countsOne hchecked
  have hheld : (olderApp.getThread request.threadId).status ≠ 500 := by
    rw [hthread]
    decide +kernel
  have hdesk : olderApp.desk? = some (answering "Ann.") := rfl
  obtain ⟨answer, turns, before, rfl, -, -, hbefore, hshown⟩ :=
    postRun_agrees hdesk rfl (by decide) hread hvalid (by rw [hthread]; decide) hheld hok
  rw [hthread] at hok hbefore hshown
  rw [hinput] at hshown
  have hone : ((rowCount turns : Int) == 1) = true := hcount
  have hlength := (encodeItems?_eq_some_iff.mp hbefore).length_eq
  exact ⟨answer, turns, before, hok, by exact_mod_cast beq_iff_eq.mp hone, hlength.symm, hshown⟩

theorem desk?_postRun (app : App) (document? : Option String) :
    (app.postRun document?).2.desk? = app.desk? := by
  unfold postRun
  split
  · rfl
  · split
    · rfl
    · split
      · rfl
      · unfold startRun
        split <;> rfl

/-- A text that is half of a pair. -/
def halfText : String := String.ofList (Text.ofCodes [0xD83C])

/-- The application after a run whose answer was half of a pair. -/
def halvedApp : App := (App.postRun { desk? := some (answering halfText) } (some whoDocument)).2

/-- A thread that holds half of a pair cannot be read, even if the latest run is answered. -/
theorem getThread_halvedApp :
    (∃ body? request, readBody {} (some whoDocument) = .ok body? ∧
      readRunRequest body? = .valid request ∧ request.threadId = "1") ∧
    halvedApp.desk? = some (answering halfText) ∧ (answering halfText).archive? = some {} ∧
    1 ≤ halvedApp.world.ledger.archive.capacity ∧
    (∃ body, (halvedApp.postRun (some whoDocument)).1 = .ok ⟨200, body⟩) ∧
    ((halvedApp.postRun (some whoDocument)).2.getThread "1").status = 500 := by
  obtain ⟨body?, request, hread, hvalid, hthread, -⟩ := exists_whoRequest
  have hchecked : (decide (1 ≤ halvedApp.world.ledger.archive.capacity) &&
      (((halvedApp.postRun (some whoDocument)).1.toOption.any fun response =>
          response.status == 200 && true) &&
        ((halvedApp.postRun (some whoDocument)).2.getThread "1").status == 500)) = true := by
    decide +kernel
  rw [Bool.and_eq_true, Bool.and_eq_true, decide_eq_true_iff, beq_iff_eq] at hchecked
  obtain ⟨hcapacity, hrun, hstatus⟩ := hchecked
  obtain ⟨body, hok, -⟩ := exists_of_any (fun _ => true) hrun
  exact ⟨⟨body?, request, hread, hvalid, hthread⟩, desk?_postRun _ _, rfl, hcapacity, ⟨body, hok⟩,
    hstatus⟩

end App

end Http

end MeetDesk
