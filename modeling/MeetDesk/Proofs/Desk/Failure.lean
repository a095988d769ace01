import MeetDesk.Proofs.Desk.Containment
import MeetDesk.Proofs.Json.Document
import MeetDesk.Proofs.Tool.Fences

/-!
# What escapes a run

A run gives a result, or fails because nobody was selected or because the turns were used up. If the
agents answer, the store is not called off and its rows can be written, there are two more ways to fail: a
text that exceeds a limit of the JSON reader, and a call that is refused and leaves no room to say so in the
log. `Desk.Loops.ended_of_error` carries the failure of an action to the end of the loop.
-/

namespace MeetDesk

/-- A response with a text has this text. -/
theorem Response.text_ofText (s : String) : Response.text (.object [("text", .text s)]) = .ok s := by
  by_cases hempty : s = ""
  · rw [hempty]
    rfl
  · have hown : Response.ownText? (.object [("text", .text s)]) = some s := by
      show (some s).filter (fun s => s != "") = some s
      rw [Option.filter_some, if_pos (by simpa using hempty)]
    unfold Response.text
    rw [hown]

namespace Desk

/-- The text that a participant writes in a turn is searched for a call and exceeds a limit of the
reader. -/
def Exceeds (desk : Desk) (a : Attempt) (limit : Json.Limit) : Prop :=
  a.participant ≠ .summary ∧ ∃ text, (desk.reply a.before a.participant).text = .ok text ∧
    ToolCall.find desk.room a.participant.tools text = .error limit

/-- The text that a participant writes in a turn holds a call whose arguments are refused, and the log
cannot show that. -/
def Unlogged (desk : Desk) (a : Attempt) : Prop :=
  ∃ text call, (desk.reply a.before a.participant).text = .ok text ∧
    ToolCall.find desk.room a.participant.tools text = .ok (some call) ∧
    Action.Unshown desk.room a.participant (.object call.arguments)

/-- Every agent answers every prompt with a text. -/
def Answers (desk : Desk) : Prop := ∀ p prompts, ∃ text, (desk.agent p prompts).text = .ok text

/-- The store may fail, but its work is not called off. -/
def Uncancelled (desk : Desk) : Prop :=
  ∀ store, desk.source.store? = some store → ∀ calls fault, store calls = .error fault →
    fault.isCancellation = false

/-- The rows that the store returns can be written into a prompt. -/
def Writable (desk : Desk) : Prop :=
  ∀ store, desk.source.store? = some store → ∀ calls rows, store calls = .ok rows →
    ∀ row ∈ rows, desk.room.Writes row

/-- A result, or one of the two errors that are meant to escape a run. -/
inductive Orderly (desk : Desk) : Except RunError RunResult → Prop
  | result {result : RunResult} : Orderly desk (.ok result)
  | noRoute {index : Int} : Orderly desk (.error (.noRoute index))
  | outOfTurns : Orderly desk (.error (.outOfTurns desk.maxTurns))

variable {desk : Desk} {world : World} {request : RunRequest} {limit : Json.Limit}

/-- Where the agents answer and the store is not called off, an action fails only if its text exceeds a
limit, or if its call cannot be shown in the log. -/
theorem exceeds_or_unlogged (hanswers : desk.Answers) (hstore : desk.Uncancelled) {a : Attempt}
    {e : RunError} (h : (desk.action a.before a.participant).turn = .error e) :
    (∃ limit, e = .unreadable limit ∧ desk.Exceeds a limit) ∨
      (e = .fault .tooDeep ∧ desk.Unlogged a) := by
  have hfails := Action.fails_of_error h
  cases hfails with
  | silent htext =>
    obtain ⟨text, hanswer⟩ := hanswers a.participant
      ((a.before.world.inbox.receive a.participant (a.before.promptFor a.participant)).of
        a.participant)
    cases hanswer.symm.trans htext
  | beyond hsearched htext hfind => exact Or.inl ⟨_, rfl, hsearched, _, htext, hfind⟩
  | unshown htext hfind hrefused => exact Or.inr ⟨rfl, _, _, htext, hfind, hrefused⟩
  | calledOff hconfigured hraised hcancelled =>
    have hnot := hstore _ hconfigured _ _ hraised
    rw [hcancelled] at hnot
    cases hnot

/-- Without a deadline, an action that fails ends the loop. -/
theorem Loops.ended_of_error {left : Nat} {r : Run} {ended : Except RunError Unit × Run}
    {begun : List Attempt} (h : Loops desk left r ended begun) (hleft : r.left? = none) {a : Attempt}
    (ha : a ∈ begun) {e : RunError} (he : (desk.action a.before a.participant).turn = .error e) :
    ended.1 = .error e := by
  induction h with
  | done | spent => cases ha
  | @stopped _ r _ p _ _ hturn =>
    obtain rfl := List.mem_singleton.mp ha
    have hout := turn_outcome desk r p
    rw [hturn] at hout
    cases hout with
    | missed hmissed => exact absurd hleft hmissed.left?
    | raised _ herror => exact congrArg Except.error (Except.error.inj (herror.symm.trans he))
    | lost _ hok => cases hok.symm.trans he
  | @turn _ r _ p _ _ _ hturn _ ih =>
    rcases List.mem_cons.mp ha with rfl | hlater
    · -- The turn was recorded, so its action did not fail.
      have hout := turn_outcome desk r p
      rw [hturn] at hout
      cases hout with
      | routed _ hok | spoke _ hok => cases hok.symm.trans he
    · have hkept := left?_turn desk p hleft
      rw [hturn] at hkept
      exact ih hkept hlater

/-- An action that fails ends the run with its failure. -/
theorem run_of_error {a : Attempt} (ha : a ∈ desk.begun world request none) {e : RunError}
    (he : (desk.action a.before a.participant).turn = .error e) :
    (desk.run world request).1 = .error e := by
  have hfresh := start_fresh desk world request none
  have hloops := loops desk desk.maxTurns (desk.start world request none)
  rw [run_eq_map_loop, hloops.ended_of_error hfresh.left? ha he]
  rfl

/-- A text that exceeds a limit ends the run with that limit. -/
theorem run_of_exceeds {a : Attempt} (ha : a ∈ desk.begun world request none)
    (h : desk.Exceeds a limit) : (desk.run world request).1 = .error (.unreadable limit) := by
  obtain ⟨hsearched, text, htext, hfind⟩ := h
  exact run_of_error ha (Action.turn_of_beyond hsearched htext hfind _ _ _ _)

/-- A call that cannot be shown in the log ends the run with the failure of the log. -/
theorem run_of_unlogged {a : Attempt} (ha : a ∈ desk.begun world request none)
    (h : desk.Unlogged a) : (desk.run world request).1 = .error (.fault .tooDeep) := by
  obtain ⟨text, call, htext, hfind, hrefused⟩ := h
  exact run_of_error ha (Action.turn_of_unshown htext hfind hrefused _ _ _ _)

/-- A run ends in an orderly way, or with what went wrong in one of its turns. -/
theorem orderly_or_failed (hanswers : desk.Answers) (hstore : desk.Uncancelled) (world : World)
    (request : RunRequest) :
    Orderly desk (desk.run world request).1 ∨
      ∃ a ∈ desk.begun world request none, (∃ limit, desk.Exceeds a limit) ∨ desk.Unlogged a := by
  have hfresh := start_fresh desk world request none
  have hends := loop_ends desk desk.maxTurns (desk.start world request none)
  rw [run_eq_map_loop]
  unfold begun
  generalize desk.loop desk.maxTurns (desk.start world request none) = ended,
    desk.attempts desk.maxTurns (desk.start world request none) = begun at hends ⊢
  cases hends with
  | done => exact Or.inl .result
  | spent => exact Or.inl .outOfTurns
  | @stopped r _ p _ hreach _ hturn hmem =>
    have hout := turn_outcome desk r p
    rw [hturn] at hout
    cases hout with
    | missed hmissed => exact absurd (hreach.left? hfresh.left?) hmissed.left?
    | raised _ herror =>
      refine Or.inr ⟨⟨p, r⟩, hmem, ?_⟩
      rcases exceeds_or_unlogged hanswers hstore (a := ⟨p, r⟩) herror with
        ⟨limit, -, hexceeds⟩ | ⟨-, hunlogged⟩
      · exact Or.inl ⟨limit, hexceeds⟩
      · exact Or.inr hunlogged
    | lost => exact Or.inl .noRoute

/-! ## Rows -/

/-- Wherever a run comes to, its rows can be written. -/
theorem writes_of_reaches (hrows : desk.Writable) {first r : Run} (hreach : Reaches desk first r)
    (hfirst : ∀ row ∈ first.docket.inquiry.results, desk.room.Writes row) :
    ∀ row ∈ r.docket.inquiry.results, desk.room.Writes row := by
  induction hreach with
  | start => exact hfirst
  | @turn r r' p _ _ hturn ih =>
    have hout := turn_outcome desk r p
    rw [hturn] at hout
    cases hout with
    | routed htook | spoke htook =>
      rw [htook.docket]
      rcases Action.results_of_ofReply desk.room desk.source p r.transcript.length (desk.reply r p)
        r.docket r.world.calls with hsame | ⟨store, asked, hstore, hreturned⟩
      · unfold action
        rw [hsame]
        exact ih
      · exact hrows store hstore asked _ hreturned

/-- Every prompt of a run can be written. -/
theorem write?_of_begun (hrows : desk.Writable) {a : Attempt} (ha : a ∈ desk.begun world request none) :
    Prompt.write? desk.room a.participant a.before.docket.inquiry a.before.transcript =
      some (a.before.promptFor a.participant) := by
  obtain ⟨hreach, -⟩ := reaches_of_mem_attempts ha
  refine if_pos (writes_of_reaches hrows hreach ?_)
  rw [(start_fresh desk world request none).docket]
  exact fun row hrow => by cases hrow

/-! ## Whole runs -/

/-- If the agents answer, the store is not called off and its rows can be written, then every prompt of a
run is written, and nothing escapes the run but the two errors that are meant to, the limits of the JSON
reader and the failure of the log, whatever the agents write, the store returns and the archive does. A
limit escapes exactly if a text that is searched for a call exceeds it, and the failure of the log exactly
if a call is refused that it cannot show. -/
theorem run_escapes (desk : Desk) (world : World) (request : RunRequest)
    (hanswers : desk.Answers) (hstore : desk.Uncancelled) (hrows : desk.Writable) :
    (∀ a ∈ desk.begun world request none,
      Prompt.write? desk.room a.participant a.before.docket.inquiry a.before.transcript =
        some (a.before.promptFor a.participant)) ∧
    (Orderly desk (desk.run world request).1 ↔
      ∀ a ∈ desk.begun world request none, (∀ limit, ¬ desk.Exceeds a limit) ∧ ¬ desk.Unlogged a) ∧
    (∀ limit, (desk.run world request).1 = .error (.unreadable limit) ↔
      ∃ a ∈ desk.begun world request none, desk.Exceeds a limit) ∧
    ((desk.run world request).1 = .error (.fault .tooDeep) ↔
      ∃ a ∈ desk.begun world request none, desk.Unlogged a) := by
  have hcases := orderly_or_failed hanswers hstore world request
  refine ⟨fun a ha => write?_of_begun hrows ha, ⟨fun horderly a ha => ⟨fun limit h => ?_, fun h => ?_⟩,
    fun hnone => ?_⟩, fun limit => ⟨fun hlimit => ?_, ?_⟩, ⟨fun hlog => ?_, ?_⟩⟩
  · rw [run_of_exceeds ha h] at horderly
    cases horderly
  · rw [run_of_unlogged ha h] at horderly
    cases horderly
  · rcases hcases with horderly | ⟨a, ha, ⟨limit, hexceeds⟩ | hunlogged⟩
    · exact horderly
    · exact absurd hexceeds ((hnone a ha).1 limit)
    · exact absurd hunlogged (hnone a ha).2
  · rcases hcases with horderly | ⟨a, ha, ⟨limit', hexceeds⟩ | hunlogged⟩
    · rw [hlimit] at horderly
      cases horderly
    · have hrun := run_of_exceeds ha hexceeds
      obtain rfl := RunError.unreadable.inj (Except.error.inj (hlimit.symm.trans hrun))
      exact ⟨a, ha, hexceeds⟩
    · cases hlimit.symm.trans (run_of_unlogged ha hunlogged)
  · rintro ⟨a, ha, hexceeds⟩
    exact run_of_exceeds ha hexceeds
  · rcases hcases with horderly | ⟨a, ha, ⟨limit, hexceeds⟩ | hunlogged⟩
    · rw [hlog] at horderly
      cases horderly
    · cases hlog.symm.trans (run_of_exceeds ha hexceeds)
    · exact ⟨a, ha, hunlogged⟩
  · rintro ⟨a, ha, hunlogged⟩
    exact run_of_unlogged ha hunlogged

/-- A desk whose supervisor asks the analyst at first and then declines, and whose store returns a row to
the first call and is down after it. -/
def servedOnce : Desk :=
  { askingThenDeclining with
    source := { store? := some fun calls =>
      if calls.length = 1 then .ok [[("Name", .text "Ann"), ("Age", .int 31)]]
      else .error (.ordinary "RuntimeError" "down") } }

theorem run_escapes_servedOnce :
    servedOnce.Answers ∧ servedOnce.Uncancelled ∧ servedOnce.Writable ∧
      Orderly servedOnce (servedOnce.run {} { input := "Who?", threadId := "1" }).1 ∧
      (∀ limit, (servedOnce.run {} { input := "Who?", threadId := "1" }).1 ≠
        .error (.unreadable limit)) ∧
      ∀ a ∈ servedOnce.begun {} { input := "Who?", threadId := "1" } none,
        Prompt.write? {} a.participant a.before.docket.inquiry a.before.transcript =
          some (a.before.promptFor a.participant) := by
  have hanswers : servedOnce.Answers := by
    intro p prompts
    cases p with
    | supervisor => exact ⟨_, Response.text_ofText _⟩
    | analyst => exact ⟨_, rfl⟩
    | summary => exact ⟨_, rfl⟩
  have hstore : servedOnce.Uncancelled := by
    intro store hstore calls fault hfault
    obtain rfl := Option.some.inj hstore
    dsimp only at hfault
    split at hfault
    · cases hfault
    · obtain rfl := Except.error.inj hfault
      rfl
  have hrows : servedOnce.Writable := by
    intro store hstore calls rows hreturned
    obtain rfl := Option.some.inj hstore
    dsimp only at hreturned
    split at hreturned
    · obtain rfl := Except.ok.inj hreturned
      decide
    · cases hreturned
  have hresult : (servedOnce.run {} { input := "Who?", threadId := "1" }).1.toOption.isSome = true := by
    decide +kernel
  obtain ⟨hwritten, horderly, hlimit, -⟩ :=
    run_escapes servedOnce {} { input := "Who?", threadId := "1" } hanswers hstore hrows
  generalize (servedOnce.run {} { input := "Who?", threadId := "1" }).1 = outcome at *
  cases outcome with
  | error e => cases hresult
  | ok result => exact ⟨hanswers, hstore, hrows, .result, fun limit h => (by cases h), hwritten⟩

/-! ## A number that is too long -/

/-- A desk whose supervisor answers with the digit one, so many times. -/
def counting (n : Nat) : Desk where
  agent
    | .supervisor => fun _ =>
      { outcome := .ok (.object [("text", .text (String.ofList (List.replicate n '1')))]) }
    | .analyst => fun _ => { outcome := .ok (.object [("text", .text "There is nothing to ask.")]) }
    | .summary => fun _ => { outcome := .ok (.object [("text", .text "Nothing is known.")]) }
  source := { store? := none }

end Desk

theorem Text.isBlank_of_isDigit {c : Char} (h : c.isDigit = true) : Text.isBlank c = false := by
  have hrange : 48 ≤ c.toNat ∧ c.toNat ≤ 57 := by
    simpa [Char.isDigit, UInt32.le_iff_toNat_le] using h
  simp [Text.isBlank, Text.within, Text.blankRanges]
  omega

theorem Text.solid_of_isDigit {c : Char} {ds : List Char}
    (hdigits : ∀ d ∈ c :: ds, d.isDigit = true) : Text.Solid (c :: ds) where
  first := ⟨c, rfl, Text.isBlank_of_isDigit (hdigits c List.mem_cons_self)⟩
  last := ⟨_, List.getLast?_eq_some_getLast (List.cons_ne_nil c ds),
    Text.isBlank_of_isDigit (hdigits _ (List.getLast_mem _))⟩

/-- A text of digits that are too many is no call to a tool, and it is not passed over either. -/
theorem ToolCall.find_of_digits (room : Room) (allowed : List String) {c : Char} {ds : List Char}
    (hdigits : ∀ d ∈ c :: ds, d.isDigit = true) (hzero : c ≠ '0')
    (hlong : Json.maxDigits < (c :: ds).length) :
    ToolCall.find room allowed (String.ofList (c :: ds)) = .error (.digits (c :: ds).length) := by
  have htrim := Text.trim_blanks (Text.solid_of_isDigit hdigits) (a := []) (b := []) rfl rfl
  rw [List.nil_append, List.append_nil] at htrim
  have hdocuments : ToolCall.documents room [c :: ds] = .error (.digits (c :: ds).length) := by
    unfold ToolCall.documents
    rw [Json.read_of_digits room.document hdigits hzero hlong]
    rfl
  unfold ToolCall.find ToolCall.candidates
  rw [String.toList_ofList, htrim]
  dsimp only
  rw [hdocuments]
  rfl

namespace Desk

/-- The first turn exceeds the limit. -/
theorem exceeds_counting {n : Nat} (hn : Json.maxDigits < n) :
    ∃ a ∈ (counting n).begun {} { input := "q", threadId := "t" } none,
      (counting n).Exceeds a (.digits n) := by
  obtain ⟨k, rfl⟩ : ∃ k, n = k + 1 := ⟨n - 1, by omega⟩
  have hdigits : ∀ d ∈ '1' :: List.replicate k '1', d.isDigit = true := by
    intro d hd
    rw [← List.replicate_succ] at hd
    rw [List.eq_of_mem_replicate hd]
    rfl
  have hlength : ('1' :: List.replicate k '1').length = k + 1 := by simp
  have hfind := ToolCall.find_of_digits {} Participant.supervisor.tools hdigits (by decide)
    (by rw [hlength]; exact hn)
  rw [hlength] at hfind
  refine ⟨⟨.supervisor, (counting (k + 1)).start {} { input := "q", threadId := "t" } none⟩, ?_,
    fun h => (by cases h), _, Response.text_ofText _, hfind⟩
  show _ ∈ (counting (k + 1)).attempts 12 _
  rw [attempts]
  exact List.mem_cons_self

theorem answers_counting (n : Nat) : (counting n).Answers := by
  intro p prompts
  cases p with
  | supervisor => exact ⟨_, Response.text_ofText _⟩
  | analyst => exact ⟨_, rfl⟩
  | summary => exact ⟨_, rfl⟩

theorem limit_escapes :
    (counting 4301).Answers ∧ (counting 4301).Uncancelled ∧ (counting 4301).Writable ∧
      ((counting 4301).run {} { input := "q", threadId := "t" }).1 =
        .error (.unreadable (.digits 4301)) ∧
      ¬ Orderly (counting 4301) ((counting 4301).run {} { input := "q", threadId := "t" }).1 := by
  have hstore : (counting 4301).Uncancelled := by
    intro store hstore
    cases hstore
  obtain ⟨a, ha, hexceeds⟩ := exceeds_counting (n := 4301) (by decide)
  have hrun := run_of_exceeds ha hexceeds
  refine ⟨answers_counting 4301, hstore, fun store hnone => (by cases hnone), hrun, fun horderly => ?_⟩
  rw [hrun] at horderly
  cases horderly

end Desk

end MeetDesk
