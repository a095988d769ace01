import MeetDesk.Proofs.Desk.Verdict

/-!
# The shape of a run

Whose turns a run has: supervisor and analyst, round after round, until the supervisor selects the
summary agent, whose turn is the last one. `Stage` ties the turns so far to who is scheduled and to
what the inquiry says; every turn leads from a stage to a stage (`Desk.shaped_of_turn`).
-/

namespace MeetDesk

/-- Turns of the supervisor, each followed by one of the analyst. -/
def rounds (k : Nat) : List Participant :=
  (List.replicate k [Participant.supervisor, Participant.analyst]).flatten

theorem rounds_succ (k : Nat) : rounds (k + 1) = rounds k ++ [.supervisor] ++ [.analyst] := by
  simp [rounds, List.replicate_succ', List.flatten_append]

/-- Where a run is: who is scheduled, whether the inquiry is complete, what it says about the domain,
and whose turns there were. -/
inductive Stage : Option Participant → Bool → Option Bool → List Participant → Prop
  /-- The supervisor is to decide. -/
  | deciding (k : Nat) (flag? : Option Bool) : Stage none false flag? (rounds k)
  /-- The analyst is to go on. -/
  | asking (k : Nat) : Stage (some .analyst) false (some true) (rounds k ++ [.supervisor])
  /-- The summary agent is to go on. -/
  | answering (k : Nat) (flag? : Option Bool) :
      Stage (some .summary) true flag? (rounds k ++ [.supervisor])
  /-- The answer is there. -/
  | answered (k : Nat) (flag? : Option Bool) :
      Stage none true flag? (rounds k ++ [.supervisor] ++ [.summary])

/-- A text that is not empty and has no blanks at its ends. -/
structure Text.Trimmed (s : String) : Prop where
  nonempty : s ≠ ""
  front : ∀ c, s.toList.head? = some c → Text.isBlank c = false
  back : ∀ c, s.toList.getLast? = some c → Text.isBlank c = false

/-- The turns of a run so far: they follow the rounds, they are numbered in order, and an answer
among them is trimmed. -/
structure Shape (ts : Transcript) : Prop where
  participants : ∃ k, ts.map Turn.participant <+: rounds k ++ [.supervisor] ++ [.summary]
  index : ∀ (i : Nat) (t : Turn), ts[i]? = some t → t.index = i
  answer : ∀ t ∈ ts, t.participant = .summary → Text.Trimmed t.text

/-- The stage of a run, and the shape of its turns. -/
structure Run.Shaped (r : Run) : Prop where
  stage : Stage r.scheduled? r.docket.inquiry.completed r.docket.inquiry.inDomain?
    (r.transcript.map Turn.participant)
  shape : Shape r.transcript

/-! ## Answers -/

theorem Text.getLast?_trim_not_blank {s : List Char} {c : Char}
    (h : (Text.trim s).getLast? = some c) : Text.isBlank c = false := by
  unfold Text.trim Text.trimBy at h
  rw [List.getLast?_reverse] at h
  have hhead := List.head?_dropWhile_not Text.isBlank (s.dropWhile Text.isBlank).reverse
  rw [h] at hhead
  simpa using hhead

/-- What is left of a text is trimmed, if anything is left. -/
theorem Text.trimmed_strip {s : String} (h : Text.strip s ≠ "") : Text.Trimmed (Text.strip s) := by
  refine ⟨h, fun c hc => ?_, fun c hc => ?_⟩
  · rw [Text.strip, String.toList_ofList] at hc
    exact Text.head?_trim_not_blank hc
  · rw [Text.strip, String.toList_ofList] at hc
    exact Text.getLast?_trim_not_blank hc

theorem Action.trimmed_fallbackAnswer : Text.Trimmed Action.fallbackAnswer := by
  have hhead : Action.fallbackAnswer.toList.head? = some 'S' := by decide
  have hlast : Action.fallbackAnswer.toList.getLast? = some '.' := by decide
  refine ⟨by decide, fun c hc => ?_, fun c hc => ?_⟩
  · obtain rfl := Option.some.inj (hhead.symm.trans hc)
    decide
  · obtain rfl := Option.some.inj (hlast.symm.trans hc)
    decide

theorem Action.trimmed_answerOf (text : String) : Text.Trimmed (Action.answerOf text) := by
  unfold Action.answerOf
  dsimp only
  split
  · exact Action.trimmed_fallbackAnswer
  · rename_i h
    refine Text.trimmed_strip fun hempty => h ?_
    rw [hempty]
    rfl

namespace Desk

variable {desk : Desk} {first r r' : Run} {p : Participant} {t : Turn}

/-- The summary agent says something, with no blanks around it. -/
theorem trimmed_of_action (h : (desk.action r p).turn = .ok t) (ht : t.participant = .summary) :
    Text.Trimmed t.text := by
  obtain rfl : p = .summary := (action_turn h).1.symm.trans ht
  unfold action Action.ofReply at h
  split at h
  · cases h
  · rename_i text _
    obtain rfl := Except.ok.inj h
    exact Action.trimmed_answerOf text

/-- Selecting the analyst says that the question is about powerlifting. -/
theorem inDomain_of_routed (h : (desk.action r .supervisor).turn = .ok t)
    (hq : Routing.selected? t = some .analyst) :
    (desk.action r .supervisor).docket.inquiry.inDomain? = some true := by
  have hacts := action_acts desk r .supervisor
  rw [h] at hacts
  generalize (desk.action r .supervisor).docket = d at hacts
  cases hacts with
  | undecided _ hnone => cases hnone.symm.trans hq
  | @routed _ c q _ hroutes =>
    obtain rfl : q = .analyst := Option.some.inj (hroutes.selected?.symm.trans hq)
    have hrelated : c.inDomain? ≠ some false := by
      intro hdeclined
      cases (RouteTool.target?_of_declined hdeclined).symm.trans hroutes.target
    have hflag := RouteTool.domainFlag?_analyst hrelated
    rw [Docket.inquiry_apply]
    simp [RouteTool.update, Update.applyTo, hflag]

/-! ## Stages -/

theorem stage_cases (h : r.Shaped) : ∃ k,
    (r.next? = some .supervisor ∧ r.docket.inquiry.completed = false ∧
      r.transcript.map Turn.participant = rounds k) ∨
    (r.next? = some .analyst ∧ r.docket.inquiry.completed = false ∧
      r.docket.inquiry.inDomain? = some true ∧
      r.transcript.map Turn.participant = rounds k ++ [.supervisor]) ∨
    (r.next? = some .summary ∧ r.docket.inquiry.completed = true ∧
      r.transcript.map Turn.participant = rounds k ++ [.supervisor]) ∨
    (r.next? = none ∧
      r.transcript.map Turn.participant = rounds k ++ [.supervisor] ++ [.summary]) := by
  have hstage := h.stage
  rw [next?_eq]
  generalize r.scheduled? = scheduled?, r.docket.inquiry.completed = completed,
    r.docket.inquiry.inDomain? = flag?, r.transcript.map Turn.participant = ps at hstage ⊢
  cases hstage with
  | deciding k => exact ⟨k, Or.inl ⟨rfl, rfl, rfl⟩⟩
  | asking k => exact ⟨k, Or.inr (Or.inl ⟨rfl, rfl, rfl, rfl⟩)⟩
  | answering k => exact ⟨k, Or.inr (Or.inr (Or.inl ⟨rfl, rfl, rfl⟩))⟩
  | answered k => exact ⟨k, Or.inr (Or.inr (Or.inr ⟨rfl, rfl⟩))⟩

/-- The next turn fits the shape of the turns before it, whoever has it. -/
theorem shape_of_action (h : r.Shaped) (hnext : r.next? = some p)
    (hturn : (desk.action r p).turn = .ok t) : Shape (r.transcript ++ [t]) := by
  obtain ⟨hp, hindex⟩ := action_turn hturn
  refine ⟨?_, fun i u hu => ?_, fun u hu hsummary => ?_⟩
  · rw [List.map_append, List.map_singleton, hp]
    obtain ⟨k, ⟨hwho, -, hps⟩ | ⟨hwho, -, -, hps⟩ | ⟨hwho, -, hps⟩ | ⟨hwho, -⟩⟩ := stage_cases h
    · obtain rfl := Option.some.inj (hnext.symm.trans hwho)
      exact ⟨k, by rw [hps]; exact List.prefix_append _ _⟩
    · obtain rfl := Option.some.inj (hnext.symm.trans hwho)
      rw [hps, ← rounds_succ]
      exact ⟨k + 1, by rw [List.append_assoc]; exact List.prefix_append _ _⟩
    · obtain rfl := Option.some.inj (hnext.symm.trans hwho)
      exact ⟨k, hps ▸ List.prefix_rfl⟩
    · cases hnext.symm.trans hwho
  · rcases Nat.lt_or_ge i r.transcript.length with hlt | hge
    · rw [List.getElem?_append_left hlt] at hu
      exact h.shape.index i u hu
    · rw [List.getElem?_append_right hge] at hu
      obtain ⟨hi, rfl⟩ : i - r.transcript.length = 0 ∧ t = u := by
        cases hsub : i - r.transcript.length with
        | zero =>
          rw [hsub] at hu
          exact ⟨rfl, Option.some.inj hu⟩
        | succ n =>
          rw [hsub] at hu
          cases hu
      rw [hindex]
      omega
  · rcases List.mem_append.mp hu with hold | hnew
    · exact h.shape.answer u hold hsummary
    · obtain rfl := List.mem_singleton.mp hnew
      exact trimmed_of_action hturn hsummary

/-- A recorded turn leads from a stage to a stage. -/
theorem shaped_of_turn (h : r.Shaped) (hnext : r.next? = some p)
    (hturn : desk.turn r p = (.ok (), r')) : r'.Shaped := by
  have hout := turn_outcome desk r p
  rw [hturn] at hout
  cases hout with
  | @routed _ t q htook hact htranscript hp hsel hsched =>
    subst hp
    have hshape := shape_of_action h hnext hact
    refine ⟨?_, htranscript ▸ hshape⟩
    rw [htook.docket, completed_of_routed hact hsel, hsched, htranscript, List.map_append,
      List.map_singleton, (action_turn hact).1]
    obtain ⟨k, ⟨-, -, hps⟩ | ⟨hwho, -⟩ | ⟨hwho, -⟩ | ⟨hwho, -⟩⟩ := stage_cases h
    · rw [hps]
      cases q with
      | supervisor => exact absurd hsel (Routing.selected?_ne_supervisor t)
      | analyst =>
        rw [inDomain_of_routed hact hsel]
        exact .asking k
      | summary => exact .answering k _
    all_goals cases hnext.symm.trans hwho
  | @spoke _ t htook hact htranscript hp hsched =>
    have hshape := shape_of_action h hnext hact
    refine ⟨?_, htranscript ▸ hshape⟩
    rw [htook.docket, completed_of_spoke hp, hsched, htranscript, List.map_append,
      List.map_singleton, (action_turn hact).1]
    obtain ⟨k, ⟨hwho, -⟩ | ⟨hwho, hdone, -, hps⟩ | ⟨hwho, hdone, hps⟩ | ⟨hwho, -⟩⟩ := stage_cases h
    · exact absurd (Option.some.inj (hnext.symm.trans hwho)) hp
    · obtain rfl := Option.some.inj (hnext.symm.trans hwho)
      rw [hdone, hps, ← rounds_succ]
      exact .deciding (k + 1) _
    · obtain rfl := Option.some.inj (hnext.symm.trans hwho)
      rw [hdone, hps]
      exact .answered k _
    · cases hnext.symm.trans hwho

/-- A run keeps its shape from turn to turn. -/
theorem Reaches.shaped (h : desk.Reaches first r) (hfirst : first.Shaped) : r.Shaped := by
  induction h with
  | start => exact hfirst
  | turn _ hnext hturn ih => exact shaped_of_turn ih hnext hturn

/-- A run starts in shape. -/
theorem start_shaped (desk : Desk) (world : World) (request : RunRequest)
    (deadline? : Option Float) : (desk.start world request deadline?).Shaped := by
  have hfresh := start_fresh desk world request deadline?
  constructor
  · rw [hfresh.scheduled?, hfresh.docket, hfresh.transcript]
    exact .deciding 0 _
  · rw [hfresh.transcript]
    refine ⟨⟨0, List.nil_prefix⟩, fun i t ht => ?_, fun t ht => ?_⟩
    · cases ht
    · cases ht

/-- A turn that goes wrong leaves no turn, or one that fits the shape. -/
theorem shape_of_turn_error {e : RunError} (h : r.Shaped) (hnext : r.next? = some p)
    (hturn : desk.turn r p = (.error e, r')) : Shape r'.transcript := by
  have hout := turn_outcome desk r p
  rw [hturn] at hout
  cases hout with
  | missed _ htranscript | raised _ _ htranscript =>
    rw [htranscript]
    exact h.shape
  | lost _ hact htranscript =>
    rw [htranscript]
    exact shape_of_action h hnext hact

/-! ## Whole runs -/

/-- Where nobody goes next, the answer is the text of the last turn. -/
theorem answer_of_next?_none (h : r.Shaped) (hnext : r.next? = none) :
    (∃ k, r.transcript.map Turn.participant = rounds k ++ [.supervisor] ++ [.summary]) ∧
      ∃ t, r.transcript.getLast? = some t ∧ r.result.answer = t.text ∧ Text.Trimmed t.text := by
  obtain ⟨k, ⟨hwho, -⟩ | ⟨hwho, -⟩ | ⟨hwho, -⟩ | ⟨-, hps⟩⟩ := stage_cases h
  · cases hnext.symm.trans hwho
  · cases hnext.symm.trans hwho
  · cases hnext.symm.trans hwho
  · refine ⟨⟨k, hps⟩, ?_⟩
    obtain ⟨before, last, hts, -, hlast⟩ := List.map_eq_append_iff.mp hps
    obtain ⟨t, rfl, ht⟩ := List.map_eq_singleton_iff.mp hlast
    refine ⟨t, ?_, ?_, h.shape.answer t ?_ ht⟩
    · rw [hts, List.getLast?_concat]
    · unfold Run.result
      dsimp only
      rw [hts, Run.answerIn_concat ht]
    · rw [hts]
      exact List.mem_append_right _ (List.mem_singleton_self t)

/-- Wherever the loop of a run comes to and however it ends, the turns follow the rounds and are numbered
in order. The analyst goes next only on a question that is open and about powerlifting, the summary
agent only when the inquiry is complete. A run with a result has some rounds, then a turn of the
supervisor and one of the summary agent, whose text is the answer. -/
theorem run_shape (desk : Desk) (world : World) (request : RunRequest)
    (deadline? : Option Float) :
    (∀ r, desk.Reaches (desk.start world request deadline?) r →
      Shape r.transcript ∧
      (r.next? = some .analyst →
        r.docket.inquiry.completed = false ∧ r.docket.inquiry.inDomain? = some true) ∧
      (r.next? = some .summary → r.docket.inquiry.completed = true)) ∧
    Shape (desk.loop desk.maxTurns (desk.start world request deadline?)).2.transcript ∧
    ∀ result, (desk.run world request deadline?).1 = .ok result →
      (∃ k, result.turns.map Turn.participant = rounds k ++ [.supervisor] ++ [.summary]) ∧
      ∃ t, result.turns.getLast? = some t ∧ result.answer = t.text ∧ Text.Trimmed t.text := by
  have hstart := start_shaped desk world request deadline?
  have hends := loop_ends desk desk.maxTurns (desk.start world request deadline?)
  refine ⟨fun r hr => ?_, ?_, fun result hresult => ?_⟩
  · have hshaped := hr.shaped hstart
    refine ⟨hshaped.shape, fun hnext => ?_, fun hnext => ?_⟩
    · obtain ⟨k, ⟨hwho, -⟩ | ⟨-, hdone, hflag, -⟩ | ⟨hwho, -⟩ | ⟨hwho, -⟩⟩ := stage_cases hshaped
      · cases hnext.symm.trans hwho
      · exact ⟨hdone, hflag⟩
      · cases hnext.symm.trans hwho
      · cases hnext.symm.trans hwho
    · obtain ⟨k, ⟨hwho, -⟩ | ⟨hwho, -⟩ | ⟨-, hdone, -⟩ | ⟨hwho, -⟩⟩ := stage_cases hshaped
      · cases hnext.symm.trans hwho
      · cases hnext.symm.trans hwho
      · exact hdone
      · cases hnext.symm.trans hwho
  · generalize desk.loop desk.maxTurns (desk.start world request deadline?) = ended at hends ⊢
    cases hends with
    | done hreach | spent hreach => exact (hreach.shaped hstart).shape
    | stopped hreach hnext hturn => exact shape_of_turn_error (hreach.shaped hstart) hnext hturn
  · obtain ⟨hdone, rfl⟩ := finish_ok hresult
    generalize desk.loop desk.maxTurns (desk.start world request deadline?) = ended at hdone hends ⊢
    cases hends with
    | done hreach hnext => exact answer_of_next?_none (hreach.shaped hstart) hnext
    | spent => cases hdone
    | stopped => cases hdone

theorem run_shape_askingOnce :
    (∃ r, askingOnce.Reaches (askingOnce.start {} { input := "Who?", threadId := "1" } none) r ∧
      r.next? = some .analyst ∧ r.docket.inquiry.inDomain? = some true) ∧
    ∃ result, (askingOnce.run {} { input := "Who?", threadId := "1" }).1 = .ok result ∧
      result.turns.map Turn.participant = [.supervisor, .analyst, .supervisor, .summary] ∧
      Text.Trimmed result.answer := by
  obtain ⟨hreached, -, hresult⟩ := run_shape askingOnce {} { input := "Who?", threadId := "1" } none
  constructor
  · have hasked : (askingOnce.begun {} { input := "Who?", threadId := "1" } none)[1]?.map
        Attempt.participant = some .analyst := by
      decide +kernel
    obtain ⟨a, ha, hp⟩ := Option.map_eq_some_iff.mp hasked
    obtain ⟨hreach, hnext, -⟩ := attempts_getElem? ha
    rw [hp] at hnext
    exact ⟨a.before, hreach, hnext, ((hreached a.before hreach).2.1 hnext).2⟩
  · have hturns : ((askingOnce.run {} { input := "Who?", threadId := "1" }).1.map
        fun result => result.turns.map Turn.participant).toOption =
          some [.supervisor, .analyst, .supervisor, .summary] := by
      decide +kernel
    cases hrun : (askingOnce.run {} { input := "Who?", threadId := "1" }).1 with
    | error e =>
      rw [hrun] at hturns
      cases hturns
    | ok result =>
      rw [hrun] at hturns
      obtain ⟨-, t, -, hanswer, htrimmed⟩ := hresult result hrun
      exact ⟨result, rfl, Option.some.inj hturns, hanswer ▸ htrimmed⟩

end Desk

end MeetDesk
