import MeetDesk.Proofs.Archive.Recency
import MeetDesk.Proofs.Desk.History
import MeetDesk.Proofs.Desk.Replay
import MeetDesk.Proofs.Desk.Shape

/-!
# What a run comes to

A run that has a result has it in three places: in the result itself, in its turns, and in the thread of
the archive. The result says nothing but what the turns say (`Desk.result_of_run`), and the turns are
what the thread is left with (`Desk.get_of_run`).
-/

namespace MeetDesk

/-! ## What a tool returns -/

/-- The output of a turn is a list if the turn has rows, and only then. -/
structure Turn.Tabular (t : Turn) : Prop where
  rows : t.output.rows?.isSome = Replay.answered t
  tuple : ∀ items, t.output ≠ .tuple items

namespace Action

variable {room : Room} {source : ResultsTool.Source} {p : Participant} {index : Int} {text : String}
  {reply : Reply} {d : Docket} {calls : List StoreCall} {t : Turn}

theorem tabular_of_supervisor (h : (supervisor room index text d calls).turn = .ok t) :
    t.Tabular := by
  unfold supervisor at h
  split at h
  · cases h
  · obtain rfl := Except.ok.inj h
    exact ⟨rfl, fun items hitems => by cases hitems⟩
  · rename_i call hfind
    have hname : call.name = RouteTool.name := ToolCall.name_eq_of_find hfind
    have hother : some call.name ≠ some ResultsTool.name := by
      rw [hname]
      decide
    have hruns := RouteTool.runs room (.object call.arguments) d
    dsimp only at h
    generalize RouteTool.run room (.object call.arguments) d = routed at hruns h
    cases hruns with
    | selected | nobody =>
      obtain rfl := Except.ok.inj h
      refine ⟨?_, fun items hitems => by cases hitems⟩
      rw [Replay.answered_of_tool _ hother]
      rfl
    | unshown => cases h

theorem tabular_of_analyst (h : (analyst room source index text d calls).turn = .ok t) :
    t.Tabular := by
  unfold analyst at h
  split at h
  · cases h
  · obtain rfl := Except.ok.inj h
    exact ⟨rfl, fun items hitems => by cases hitems⟩
  · rename_i call hfind
    have hname : call.name = ResultsTool.name := ToolCall.name_eq_of_find hfind
    dsimp only at h
    rcases ResultsTool.run_cases room source (.object call.arguments) d calls with
      ⟨rows, hret, -⟩ | ⟨-, ⟨message, hret⟩ | ⟨fault, -, -, -, -, -, hret⟩ | ⟨-, hret⟩⟩
    · rw [hret] at h
      obtain rfl := Except.ok.inj h
      refine ⟨?_, fun items hitems => by cases hitems⟩
      simp [Replay.answered, hname, Turn.toolError?, Value.rows?, Value.field?]
    · rw [hret] at h
      obtain rfl := Except.ok.inj h
      refine ⟨?_, fun items hitems => by cases hitems⟩
      simp [Replay.answered, hname, Turn.toolError?, ResultsTool.queryFailure, failure, Value.rows?,
        Value.field?, Fields.get?]
    all_goals
      rw [hret] at h
      cases h

theorem tabular_of_ofReply (h : (ofReply room source p index reply d calls).turn = .ok t) :
    t.Tabular := by
  unfold ofReply at h
  split at h
  · cases h
  · cases p with
    | supervisor => exact tabular_of_supervisor h
    | analyst => exact tabular_of_analyst h
    | summary =>
      obtain rfl := Except.ok.inj h
      exact ⟨rfl, fun items hitems => by cases hitems⟩

end Action

namespace Desk

variable {desk : Desk} {first r : Run} {p : Participant} {t : Turn}

/-- What holds of every turn that an action makes holds of every turn of a run. -/
theorem Reaches.forall_turns {P : Turn → Prop}
    (hP : ∀ r p t, (desk.action r p).turn = .ok t → P t) (h : desk.Reaches first r)
    (hfirst : ∀ t ∈ first.transcript, P t) : ∀ t ∈ r.transcript, P t := by
  induction h with
  | start => exact hfirst
  | @turn r r' p _ _ hturn ih =>
    have hout := turn_outcome desk r p
    rw [hturn] at hout
    cases hout with
    | routed _ hact htranscript | spoke _ hact htranscript =>
      rw [htranscript]
      intro t ht
      rcases List.mem_append.mp ht with hold | hnew
      · exact ih t hold
      · obtain rfl := List.mem_singleton.mp hnew
        exact hP _ _ _ hact

/-- The last list that a tool returned; the empty list if there is none. -/
def lastRows (ts : Transcript) : List Value :=
  (ts.filterMap fun t => t.output.rows?).getLast?.getD []

theorem lastOutput_eq_lastRows {ts : Transcript} (h : ∀ t ∈ ts, t.Tabular) :
    Replay.lastOutput ts = .list (lastRows ts) := by
  induction ts using List.reverseRecOn with
  | nil => rfl
  | append_singleton ts t ih =>
    have ht := (h t (List.mem_append_right _ (List.mem_singleton_self t))).rows
    have hts := ih fun u hu => h u (List.mem_append_left _ hu)
    unfold lastRows at hts ⊢
    rw [List.filterMap_append]
    cases hrows : t.output.rows? with
    | none =>
      rw [hrows] at ht
      rw [Replay.lastOutput_append_of_not_answered ht.symm, hts]
      simp [hrows]
    | some rows =>
      rw [hrows] at ht
      have houtput : t.output = .list rows := by
        unfold Value.rows? at hrows
        split at hrows
        · rename_i rows' hlist
          rw [hlist, Option.some.inj hrows]
        · cases hrows
      rw [Replay.lastOutput_append_of_answered ht.symm, houtput]
      simp [hrows]

variable {world : World} {request : RunRequest} {deadline? : Option Float} {result : RunResult}

/-- The result of a run says what its turns say. -/
theorem result_of_run (h : (desk.run world request deadline?).1 = .ok result) :
    result.threadId? = some request.threadId ∧
      (∃ t, result.turns.getLast? = some t ∧ result.answer = t.text) ∧
      result.results.length = (lastRows result.turns).length ∧
      ∀ t ∈ result.turns, t.Tabular := by
  obtain ⟨r, -, hreach, hnext, rfl⟩ := exists_of_run_ok h
  have hfresh := start_fresh desk world request deadline?
  have hreplays := replays_of_reaches hreach
  obtain ⟨-, t, hlast, hanswer, -⟩ :=
    answer_of_next?_none (hreach.shaped (start_shaped desk world request deadline?)) hnext
  have hturns := hreach.forall_turns (fun _ _ _ => Action.tabular_of_ofReply)
    (by simp [hfresh.transcript])
  refine ⟨?_, ⟨t, hlast, hanswer⟩, ?_, hturns⟩
  · unfold Run.result
    rw [hreplays.inquiry]
    rfl
  · have hrows := hreplays.output
    rw [lastOutput_eq_lastRows hturns] at hrows
    have hlength := congrArg List.length (Value.list.inj hrows)
    rw [List.length_map] at hlength
    exact hlength

end Desk

/-! ## The thread -/

/-- What is appended to a thread that the archive holds is at its end. -/
theorem Ledger.get_attempts {l : Ledger} (hcapacity : 1 ≤ l.archive.capacity) (thread : String)
    (todo : List Submission) :
    (todo.foldl (Ledger.attempt {} thread) l).archive.get thread =
      l.archive.get thread ++ todo.flatMap fun s => Entry.ofRun s.message? s.turns := by
  induction todo generalizing l with
  | nil => simp
  | cons s rest ih =>
    have hget := Archive.get_extend_self hcapacity thread (Entry.ofRun s.message? s.turns)
    obtain ⟨n, hn⟩ := Int.eq_ofNat_of_zero_le (Int.le_trans (by decide) hcapacity)
    have harchive : (l.attempt {} thread s).archive = (l.archive.append thread s.message? s.turns).2 := rfl
    have hkept : 1 ≤ (l.attempt {} thread s).archive.capacity := by
      rw [harchive, Archive.append, Archive.extend_eq hn]
      exact hcapacity
    rw [List.foldl_cons, ih hkept, List.flatMap_cons, ← List.append_assoc, ← hget]
    rfl

/-- A thread that is created has what was held under its name. -/
theorem Archive.get_create {a : Archive} (hcapacity : 1 ≤ a.capacity) (name? : Option String) :
    ∃ kept, a.create name? = (.ok (a.nameFor name?).1, kept) ∧ 1 ≤ kept.capacity ∧
      kept.get (a.nameFor name?).1 = a.get (a.nameFor name?).1 := by
  obtain ⟨n, hn⟩ := Int.eq_ofNat_of_zero_le (Int.le_trans (by decide) hcapacity)
  obtain ⟨drawn, hcreate⟩ := Archive.create_nameFor hn name?
  have hget := Archive.get_extend_self hcapacity (a.nameFor name?).1 []
  rw [Archive.extend_eq hn, List.append_nil] at hget
  exact ⟨_, hcreate, hcapacity, hget⟩

theorem flatMap_submissions (message : String) (ts : Transcript) :
    (submissions message ts).flatMap (fun s => Entry.ofRun s.message? s.turns) =
      Entry.ofRun (some message) ts := by
  have hsingle : (ts.map fun t => Entry.turn t.toFields) = ts.flatMap fun t => [Entry.turn t.toFields] :=
    List.map_eq_flatMap
  rw [submissions, List.flatMap_cons, List.flatMap_map, Entry.ofRun, Entry.ofRun, hsingle]
  rfl

/-- A run that has a result has had the question and its turns appended to the thread that was created. -/
theorem Desk.ledger_of_run {desk : Desk} {world : World} {request : RunRequest}
    {deadline? : Option Float} {result : RunResult} {thread : String} {kept : Archive}
    (h : (desk.run world request deadline?).1 = .ok result) (harchive : desk.archive? = some {})
    (hcreate : world.ledger.archive.create (some request.threadId) = (.ok thread, kept)) :
    (desk.run world request deadline?).2.ledger =
      (submissions request.input result.turns).foldl (Ledger.attempt {} thread)
        { world.ledger with archive := kept } := by
  obtain ⟨w, hw⟩ := exists_settled_run deadline? harchive rfl hcreate
  have hclosed := hw.closed (by rw [h]; rfl)
  obtain ⟨-, hledger⟩ := (Writing.sound_of_leads hw.reached).closed hclosed
  obtain ⟨r, hloop, -, -, rfl⟩ := exists_of_run_ok h
  have hoffers : desk.offers world request deadline? = submissions request.input r.transcript := by
    rw [offers, ← transcript_loop_start, hloop]
  rw [← hw.ledger, hledger, hw.submitted, hoffers]
  rfl

/-- A run that has a result leaves in the thread that was created what it held before, the question and the
turns. -/
theorem Desk.get_created_of_run {desk : Desk} {world : World} {request : RunRequest}
    {deadline? : Option Float} {result : RunResult} {thread : String}
    (h : (desk.run world request deadline?).1 = .ok result) (harchive : desk.archive? = some {})
    (hcapacity : 1 ≤ world.ledger.archive.capacity)
    (hthread : (world.ledger.archive.nameFor (some request.threadId)).1 = thread) :
    (desk.run world request deadline?).2.ledger.archive.get thread =
      world.ledger.archive.get thread ++ Entry.ofRun (some request.input) result.turns := by
  obtain ⟨kept, hcreate, hcapacity', hget⟩ :=
    Archive.get_create hcapacity (some request.threadId)
  rw [hthread] at hcreate hget
  rw [Desk.ledger_of_run h harchive hcreate, Ledger.get_attempts hcapacity', flatMap_submissions, hget]

/-- A run that has a result leaves in its thread what it held before, the question and the turns. -/
theorem Desk.get_of_run {desk : Desk} {world : World} {request : RunRequest}
    {deadline? : Option Float} {result : RunResult}
    (h : (desk.run world request deadline?).1 = .ok result) (harchive : desk.archive? = some {})
    (hcapacity : 1 ≤ world.ledger.archive.capacity) (hname : request.threadId ≠ "") :
    (desk.run world request deadline?).2.ledger.archive.get request.threadId =
      world.ledger.archive.get request.threadId ++
        Entry.ofRun (some request.input) result.turns :=
  get_created_of_run h harchive hcapacity (by rw [Archive.nameFor_of_ne hname])

end MeetDesk
