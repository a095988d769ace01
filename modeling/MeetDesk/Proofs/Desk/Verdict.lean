import MeetDesk.Proofs.Desk.Loop

/-!
# What a run comes to

The supervisor's turns decide how a run ends. Each has a verdict: the participant that it selected, or
none. While the verdicts name the analyst, supervisor and analyst take turns; the first other verdict
ends the run, unless the turns are used up before. `Phase` is the invariant behind it: it ties who is
scheduled, whether the inquiry is complete and the number of turns to the verdicts so far.
-/

namespace MeetDesk

/-- Whom the supervisor selected in its turns, in order. -/
def verdicts (ts : Transcript) : List (Option Participant) :=
  (ts.filter fun t => t.participant == .supervisor).map Routing.selected?

/-- The first verdict that is not for the analyst is `v`, after `k` that are. -/
def FirstOther (vs : List (Option Participant)) (k : Nat) (v : Option Participant) : Prop :=
  v ≠ some .analyst ∧ ∃ rest, vs = List.replicate k (some .analyst) ++ v :: rest

/-- The prompts that all agents together have received. -/
def Inbox.total (i : Inbox) : Nat := i.supervisor.length + i.analyst.length + i.summary.length

theorem Inbox.total_receive (i : Inbox) (p : Participant) (prompt : String) :
    (i.receive p prompt).total = i.total + 1 := by
  cases p <;> simp [Inbox.total, Inbox.receive] <;> omega

theorem verdicts_append_supervisor {ts : Transcript} {t : Turn} (h : t.participant = .supervisor) :
    verdicts (ts ++ [t]) = verdicts ts ++ [Routing.selected? t] := by
  simp [verdicts, h]

theorem verdicts_append_other {ts : Transcript} {t : Turn} (h : t.participant ≠ .supervisor) :
    verdicts (ts ++ [t]) = verdicts ts := by
  simp [verdicts, h]

/-- If all verdicts are for the analyst, there is no other one. -/
theorem not_firstOther_replicate (n k : Nat) (v : Option Participant) :
    ¬FirstOther (List.replicate n (some .analyst)) k v := by
  rintro ⟨hv, rest, heq⟩
  have hmem : v ∈ List.replicate n (some Participant.analyst) := by
    rw [heq]
    simp
  exact hv (List.mem_replicate.mp hmem).2

/-- The first other verdict is found in one place only. -/
theorem firstOther_append_iff {n k : Nat} {v w : Option Participant} (hw : w ≠ some .analyst) :
    FirstOther (List.replicate n (some .analyst) ++ [w]) k v ↔ k = n ∧ v = w := by
  constructor
  · rintro ⟨hv, rest, heq⟩
    induction n generalizing k with
    | zero =>
      cases k with
      | zero => exact ⟨rfl, (List.cons.inj heq).1.symm⟩
      | succ k => exact absurd (List.cons.inj heq).1 hw
    | succ n ih =>
      cases k with
      | zero => exact absurd (List.cons.inj heq).1.symm hv
      | succ k =>
        obtain ⟨rfl, rfl⟩ := ih (List.cons.inj heq).2
        exact ⟨rfl, rfl⟩
  · rintro ⟨rfl, rfl⟩
    exact ⟨hw, [], rfl⟩

/-! ## Phases -/

/-- Where a run is: who is scheduled, whether the inquiry is complete, the number of turns so far, and
the verdicts so far. -/
inductive Phase : Option Participant → Bool → Nat → List (Option Participant) → Prop
  /-- The supervisor is to decide. -/
  | deciding (k : Nat) : Phase none false (2 * k) (List.replicate k (some .analyst))
  /-- The analyst is to go on. -/
  | asking (k : Nat) :
      Phase (some .analyst) false (2 * k + 1) (List.replicate k (some .analyst) ++ [some .analyst])
  /-- The summary agent is to go on. -/
  | answering (k : Nat) :
      Phase (some .summary) true (2 * k + 1) (List.replicate k (some .analyst) ++ [some .summary])
  /-- The answer is there. -/
  | answered (k : Nat) :
      Phase none true (2 * k + 2) (List.replicate k (some .analyst) ++ [some .summary])

/-- The phase of a run. -/
def Run.Phased (r : Run) : Prop :=
  Phase r.scheduled? r.docket.inquiry.completed r.transcript.length (verdicts r.transcript)

namespace Desk

variable {desk : Desk} {first r r' : Run} {p q : Participant} {t : Turn}

/-- The supervisor's choice of the summary agent completes the inquiry, its choice of the analyst
does the opposite. -/
theorem completed_of_routed (h : (desk.action r .supervisor).turn = .ok t)
    (hq : Routing.selected? t = some q) :
    (desk.action r .supervisor).docket.inquiry.completed = decide (q = .summary) := by
  have hacts := action_acts desk r .supervisor
  rw [h] at hacts
  generalize (desk.action r .supervisor).docket = d at hacts
  cases hacts with
  | @routed _ c q' _ hroutes =>
    obtain rfl : q' = q := Option.some.inj (hroutes.selected?.symm.trans hq)
    rw [Docket.inquiry_apply]
    rfl
  | undecided _ hnone => cases hnone.symm.trans hq

/-- Only the supervisor completes an inquiry. -/
theorem completed_of_spoke (h : p ≠ .supervisor) :
    (desk.action r p).docket.inquiry.completed = r.docket.inquiry.completed := by
  have hacts := action_acts desk r p
  generalize (desk.action r p).docket = d, (desk.action r p).turn = turn at hacts
  cases hacts with
  | routed | undecided => exact absurd rfl h
  | returned =>
    rw [Docket.inquiry_apply]
    rfl
  | failed | refused | answered => rfl

/-- Whoever is next is known from the phase. -/
theorem next?_eq (r : Run) :
    r.next? = r.scheduled?.or (if r.docket.inquiry.completed then none else some .supervisor) := rfl

/-- What a phase says: who is next, whether the inquiry is complete, how many turns there are and what
the verdicts are. -/
theorem phase_cases (h : r.Phased) : ∃ k,
    (r.next? = some .supervisor ∧ r.docket.inquiry.completed = false ∧ r.transcript.length = 2 * k ∧
      verdicts r.transcript = List.replicate k (some .analyst)) ∨
    (r.next? = some .analyst ∧ r.docket.inquiry.completed = false ∧
      r.transcript.length = 2 * k + 1 ∧
      verdicts r.transcript = List.replicate (k + 1) (some .analyst)) ∨
    (r.next? = some .summary ∧ r.docket.inquiry.completed = true ∧
      r.transcript.length = 2 * k + 1 ∧
      verdicts r.transcript = List.replicate k (some .analyst) ++ [some .summary]) ∨
    (r.next? = none ∧ r.transcript.length = 2 * k + 2 ∧
      verdicts r.transcript = List.replicate k (some .analyst) ++ [some .summary]) := by
  unfold Run.Phased at h
  rw [next?_eq]
  generalize r.scheduled? = scheduled?, r.docket.inquiry.completed = completed,
    r.transcript.length = n, verdicts r.transcript = vs at h ⊢
  cases h with
  | deciding k => exact ⟨k, Or.inl ⟨rfl, rfl, rfl, rfl⟩⟩
  | asking k => exact ⟨k, Or.inr (Or.inl ⟨rfl, rfl, rfl, List.replicate_succ'.symm⟩)⟩
  | answering k => exact ⟨k, Or.inr (Or.inr (Or.inl ⟨rfl, rfl, rfl, rfl⟩))⟩
  | answered k => exact ⟨k, Or.inr (Or.inr (Or.inr ⟨rfl, rfl, rfl⟩))⟩

/-- The supervisor goes next only where it is to decide. -/
theorem deciding_of_next? (h : r.Phased) (hnext : r.next? = some .supervisor) :
    ∃ k, r.transcript.length = 2 * k ∧ verdicts r.transcript = List.replicate k (some .analyst) := by
  obtain ⟨k, ⟨-, -, hlen, hverdicts⟩ | ⟨hother, -⟩ | ⟨hother, -⟩ | ⟨hother, -⟩⟩ := phase_cases h
  · exact ⟨k, hlen, hverdicts⟩
  · cases hother.symm.trans hnext
  · cases hother.symm.trans hnext
  · cases hother.symm.trans hnext

/-- Nobody goes next only where the answer is there. -/
theorem answered_of_next? (h : r.Phased) (hnext : r.next? = none) :
    ∃ k, r.transcript.length = 2 * k + 2 ∧
      verdicts r.transcript = List.replicate k (some .analyst) ++ [some .summary] := by
  obtain ⟨k, ⟨hother, -⟩ | ⟨hother, -⟩ | ⟨hother, -⟩ | ⟨-, hlen, hverdicts⟩⟩ := phase_cases h
  · cases hother.symm.trans hnext
  · cases hother.symm.trans hnext
  · cases hother.symm.trans hnext
  · exact ⟨k, hlen, hverdicts⟩

/-- Where somebody goes next, all verdicts are for the analyst, or the last one is for the summary
agent, whose turn is missing. -/
theorem undone_of_next? (h : r.Phased) (hnext : r.next? = some p) :
    ∃ k, verdicts r.transcript = List.replicate k (some .analyst) ∨
      verdicts r.transcript = List.replicate k (some .analyst) ++ [some .summary] ∧
        r.transcript.length = 2 * k + 1 := by
  obtain ⟨k, ⟨-, -, -, hverdicts⟩ | ⟨-, -, -, hverdicts⟩ | ⟨-, -, hlen, hverdicts⟩ |
    ⟨hother, -⟩⟩ := phase_cases h
  · exact ⟨k, Or.inl hverdicts⟩
  · exact ⟨k + 1, Or.inl hverdicts⟩
  · exact ⟨k, Or.inr ⟨hverdicts, hlen⟩⟩
  · cases hother.symm.trans hnext

/-- A recorded turn leads from a phase to a phase. -/
theorem phased_of_turn (h : r.Phased) (hnext : r.next? = some p)
    (hturn : desk.turn r p = (.ok (), r')) : r'.Phased := by
  have hout := turn_outcome desk r p
  rw [hturn] at hout
  unfold Run.Phased
  cases hout with
  | @routed _ t q htook hact htranscript hp hsel hsched =>
    subst hp
    -- The supervisor goes next only where all verdicts so far are for the analyst.
    obtain ⟨k, hlen, hverdicts⟩ := deciding_of_next? h hnext
    rw [htook.docket, completed_of_routed hact hsel, hsched, htranscript, List.length_append,
      List.length_singleton, verdicts_append_supervisor (action_turn hact).1, hsel, hlen, hverdicts]
    cases q with
    | supervisor => exact absurd hsel (Routing.selected?_ne_supervisor t)
    | analyst => exact .asking k
    | summary => exact .answering k
  | spoke htook hact htranscript hp hsched =>
    have hother : _ ≠ Participant.supervisor := fun heq => hp ((action_turn hact).1.symm.trans heq)
    rw [htook.docket, completed_of_spoke hp, hsched, htranscript, List.length_append,
      List.length_singleton, verdicts_append_other hother]
    obtain ⟨k, ⟨hnext', -⟩ | ⟨-, hdone, hlen, hverdicts⟩ | ⟨-, hdone, hlen, hverdicts⟩ |
      ⟨hnext', -⟩⟩ := phase_cases h
    · exact absurd (Option.some.inj (hnext.symm.trans hnext')) hp
    · rw [hdone, hlen, hverdicts]
      exact .deciding (k + 1)
    · rw [hdone, hlen, hverdicts]
      exact .answered k
    · cases hnext.symm.trans hnext'

/-- Every run that the loop comes to is in a phase. -/
theorem Reaches.phased (h : desk.Reaches first r) (hfirst : first.Phased) : r.Phased := by
  induction h with
  | start => exact hfirst
  | turn _ hnext hturn ih => exact phased_of_turn ih hnext hturn

theorem start_phased (desk : Desk) (world : World) (request : RunRequest)
    (deadline? : Option Float) : (desk.start world request deadline?).Phased := by
  have hfresh := start_fresh desk world request deadline?
  unfold Run.Phased
  rw [hfresh.scheduled?, hfresh.docket, hfresh.transcript]
  exact .deciding 0

/-! ## Whole runs -/

/-- How a loop without deadline ends in which no action fails. -/
theorem loop_verdict {left : Nat} (hphase : first.Phased) (hempty : first.transcript = [])
    (hleft : first.left? = none)
    (hacts : ∀ a ∈ desk.attempts left first, ∃ t, (desk.action a.before a.participant).turn = .ok t) :
    (∃ k, verdicts (desk.loop left first).2.transcript =
          List.replicate k (some .analyst) ++ [none] ∧
        (desk.loop left first).1 = .error (.noRoute (2 * k)) ∧
        (desk.attempts left first).length = 2 * k + 1) ∨
    (∃ k, verdicts (desk.loop left first).2.transcript =
          List.replicate k (some .analyst) ++ [some .summary] ∧
        2 * k + 2 ≤ left ∧ (desk.loop left first).1 = .ok () ∧
        (desk.loop left first).2.transcript.length = 2 * k + 2 ∧
        (desk.attempts left first).length = 2 * k + 2) ∨
    (∃ k, (verdicts (desk.loop left first).2.transcript = List.replicate k (some .analyst) ∨
          verdicts (desk.loop left first).2.transcript =
            List.replicate k (some .analyst) ++ [some .summary] ∧ left < 2 * k + 2) ∧
        (desk.loop left first).1 = .error (.outOfTurns desk.maxTurns) ∧
        (desk.attempts left first).length = left) := by
  have hends := loop_ends desk left first
  generalize desk.loop left first = ended, desk.attempts left first = begun at hends hacts ⊢
  cases hends with
  | done hreach hnext hcount hwithin =>
    obtain ⟨k, hlen, hverdicts⟩ := answered_of_next? (hreach.phased hphase) hnext
    rw [hempty, List.length_nil, Nat.zero_add] at hcount
    exact Or.inr (Or.inl ⟨k, hverdicts, by omega, rfl, hlen, by omega⟩)
  | spent hreach hnext hcount hwithin =>
    obtain ⟨k, hundone⟩ := undone_of_next? (hreach.phased hphase) hnext
    rw [hempty, List.length_nil, Nat.zero_add] at hcount
    refine Or.inr (Or.inr ⟨k, ?_, rfl, hwithin⟩)
    rcases hundone with hall | ⟨hlast, hlen⟩
    · exact Or.inl hall
    · exact Or.inr ⟨hlast, by omega⟩
  | @stopped r r' p e hreach hnext hturn hmem hcount hwithin =>
    -- There is no deadline and no action fails, so only a verdict for nobody stops the loop.
    obtain ⟨t, ht⟩ := hacts ⟨p, r⟩ hmem
    have hout := turn_outcome desk r p
    rw [hturn] at hout
    cases hout with
    | missed hmissed => exact absurd (hreach.left? hleft) hmissed.left?
    | raised _ herror => cases herror.symm.trans ht
    | lost _ hact htranscript hp hsel =>
      subst hp
      obtain ⟨k, hlen, hverdicts⟩ := deciding_of_next? (hreach.phased hphase) hnext
      rw [hempty, List.length_nil, Nat.zero_add] at hcount
      refine Or.inl ⟨k, ?_, ?_, by omega⟩
      · show verdicts r'.transcript = _
        rw [htranscript, verdicts_append_supervisor (action_turn hact).1, hverdicts, hsel]
      · rw [hlen]
        rfl

/-- All agents together have received one prompt in each turn that was begun. -/
theorem run_inbox_total (desk : Desk) (world : World) (request : RunRequest)
    (deadline? : Option Float) :
    (desk.run world request deadline?).2.inbox.total =
      world.inbox.total + (desk.begun world request deadline?).length := by
  have hfold : ∀ (as : List Attempt) (n : Nat), as.foldl (fun n _ => n + 1) n = n + as.length := by
    intro as
    induction as with
    | nil => intro n; rfl
    | cons a rest ih =>
      intro n
      rw [List.foldl_cons, ih, List.length_cons]
      omega
  rw [run, (finish_frame desk _).1, ← (start_fresh desk world request deadline?).inbox, ← hfold]
  refine loop_fold (fun r => r.world.inbox.total) _ fun a _ => ?_
  rw [inbox_after, Inbox.total_receive]

/-- Who needs fewer turns than there are does not notice it if there are more. -/
theorem loop_of_le {left left' : Nat} (hle : left ≤ left') (h : (desk.loop left r).1 = .ok ())
    (maxTurns : Nat) : { desk with maxTurns }.loop left' r = desk.loop left r := by
  have hloops := loops desk left r
  generalize desk.loop left r = ended, desk.attempts left r = begun at hloops h ⊢
  induction hloops generalizing left' with
  | done hnext => exact (loop_of_next?_none _ hnext left').1
  | spent | stopped => cases h
  | @turn left r r' p _ _ hnext hturn _ ih =>
    obtain ⟨left', rfl⟩ : ∃ n, left' = n + 1 := ⟨left' - 1, by omega⟩
    have hturn' : { desk with maxTurns }.turn r p = (.ok (), r') := hturn
    rw [(loop_of_turn_ok hnext hturn' left').1]
    exact ih (Nat.le_of_succ_le_succ hle) h

/-- The verdicts of a run without deadline, the one that ended it included. -/
def runVerdicts (desk : Desk) (world : World) (request : RunRequest) : List (Option Participant) :=
  verdicts (desk.loop desk.maxTurns (desk.start world request none)).2.transcript

/-- A run ends as the first verdict says that is not for the analyst. -/
structure EndsByVerdict (desk : Desk) (world : World) (request : RunRequest) : Prop where
  /-- If it is for nobody, the run fails with the turn of that verdict. -/
  violated : ∀ k, FirstOther (desk.runVerdicts world request) k none →
    (desk.run world request).1 = .error (.noRoute (2 * k)) ∧
      (desk.run world request).2.inbox.total = world.inbox.total + (2 * k + 1)
  /-- If it is for the summary agent, and there is a turn left for that, the run has a result. -/
  completed : ∀ k, FirstOther (desk.runVerdicts world request) k (some .summary) →
    2 * k + 2 ≤ desk.maxTurns →
    (∃ result, (desk.run world request).1 = .ok result ∧ result.turns.length = 2 * k + 2) ∧
      (desk.run world request).2.inbox.total = world.inbox.total + (2 * k + 2)
  /-- In every other case the turns are used up. -/
  spent : (∀ k, ¬FirstOther (desk.runVerdicts world request) k none) →
    (∀ k, FirstOther (desk.runVerdicts world request) k (some .summary) →
      ¬2 * k + 2 ≤ desk.maxTurns) →
    (desk.run world request).1 = .error (.outOfTurns desk.maxTurns) ∧
      (desk.run world request).2.inbox.total = world.inbox.total + desk.maxTurns

/-- A run without deadline in which no action fails ends by its verdicts. -/
theorem endsByVerdict (desk : Desk) (world : World) (request : RunRequest)
    (hacts : ∀ a ∈ desk.begun world request none,
      ∃ t, (desk.action a.before a.participant).turn = .ok t) :
    desk.EndsByVerdict world request := by
  have hfresh := start_fresh desk world request none
  have hcases := loop_verdict (start_phased desk world request none) hfresh.transcript hfresh.left?
    hacts
  rw [show verdicts (desk.loop desk.maxTurns (desk.start world request none)).2.transcript =
    desk.runVerdicts world request from rfl] at hcases
  have hrun := run_eq_map_loop desk world request
  have htotal : (desk.run world request).2.inbox.total = _ := run_inbox_total desk world request none
  have hviolation : (none : Option Participant) ≠ some .analyst := by simp
  have hsummary : some Participant.summary ≠ some .analyst := by decide
  unfold begun at htotal
  have honly : ∀ {k w}, desk.runVerdicts world request = List.replicate k (some .analyst) ++ [w] →
      w ≠ some .analyst →
      ∀ k' v, FirstOther (desk.runVerdicts world request) k' v ↔ k' = k ∧ v = w := by
    intro k w hv hw k' v
    rw [hv]
    exact firstOther_append_iff hw
  rcases hcases with ⟨k, hv, hloop, hcount⟩ | ⟨k, hv, hwithin, hloop, hlen, hcount⟩ |
    ⟨k, hv, hloop, hcount⟩
  · have hfirst := honly hv hviolation
    rw [hloop] at hrun
    rw [hcount] at htotal
    refine ⟨fun k' h => ?_, fun k' h _ => ?_, fun h => ?_⟩
    · obtain ⟨rfl, -⟩ := (hfirst k' none).mp h
      exact ⟨hrun, htotal⟩
    · cases ((hfirst k' _).mp h).2
    · exact absurd ((hfirst k none).mpr ⟨rfl, rfl⟩) (h k)
  · have hfirst := honly hv hsummary
    rw [hloop] at hrun
    rw [hcount] at htotal
    refine ⟨fun k' h => ?_, fun k' h _ => ?_, fun _ h => ?_⟩
    · cases ((hfirst k' none).mp h).2
    · obtain ⟨rfl, -⟩ := (hfirst k' _).mp h
      exact ⟨⟨_, hrun, hlen⟩, htotal⟩
    · exact absurd hwithin (h k ((hfirst k _).mpr ⟨rfl, rfl⟩))
  · rw [hloop] at hrun
    rw [hcount] at htotal
    rcases hv with hv | ⟨hv, hshort⟩
    · refine ⟨fun k' h => ?_, fun k' h _ => ?_, fun _ _ => ⟨hrun, htotal⟩⟩
      · rw [hv] at h
        exact absurd h (not_firstOther_replicate k k' none)
      · rw [hv] at h
        exact absurd h (not_firstOther_replicate k k' (some .summary))
    · -- The summary agent was selected in the last turn there was, so its own turn is missing.
      have hfirst := honly hv hsummary
      refine ⟨fun k' h => ?_, fun k' h hwithin => ?_, fun _ _ => ⟨hrun, htotal⟩⟩
      · cases ((hfirst k' none).mp h).2
      · obtain ⟨rfl, -⟩ := (hfirst k' _).mp h
        omega

/-- A run without deadline in which no action fails ends by its verdicts. Any run at all ends within
its turns, and one that has a result has it with any greater number of turns as well. -/
theorem run_outcome (desk : Desk) (world : World) (request : RunRequest) :
    ((∀ a ∈ desk.begun world request none,
        ∃ t, (desk.action a.before a.participant).turn = .ok t) →
      desk.EndsByVerdict world request) ∧
    ∀ deadline?,
      (desk.run world request deadline?).2.inbox.total ≤ world.inbox.total + desk.maxTurns ∧
      ∀ result maxTurns, desk.maxTurns ≤ maxTurns →
        (desk.run world request deadline?).1 = .ok result →
        { desk with maxTurns }.run world request deadline? = desk.run world request deadline? := by
  refine ⟨endsByVerdict desk world request, fun deadline? => ⟨?_, fun result maxTurns hle hok => ?_⟩⟩
  · rw [run_inbox_total]
    have hends := loop_ends desk desk.maxTurns (desk.start world request deadline?)
    unfold begun
    generalize desk.loop desk.maxTurns (desk.start world request deadline?) = ended at hends
    cases hends with
    | done _ _ _ hwithin | stopped _ _ _ _ _ hwithin => exact Nat.add_le_add_left hwithin _
    | spent _ _ _ hwithin => exact Nat.add_le_add_left (Nat.le_of_eq hwithin) _
  · have hloop := loop_of_le hle (finish_ok hok).1 maxTurns
    exact congrArg desk.finish hloop

/-- A desk whose supervisor asks the analyst at first, and then the summary agent. -/
def askingOnce : Desk where
  agent
    | .supervisor => fun prompts =>
      let name := if prompts.length = 1 then "meetQueryAgent" else "answerAgent"
      { outcome := .ok (.object [("text", .text ("\x7b\"tool\": \"route_to_agent\", " ++
          "\"arguments\": \x7b\"agent\": \"" ++ name ++ "\"\x7d\x7d"))]) }
    | .analyst => fun _ => { outcome := .ok (.object [("text", .text "There is nothing to ask.")]) }
    | .summary => fun _ => { outcome := .ok (.object [("text", .text "Nothing is known.")]) }
  source := { store? := none }

theorem run_outcome_askingOnce :
    (∀ a ∈ askingOnce.begun {} { input := "Who?", threadId := "1" } none,
        ∃ t, (askingOnce.action a.before a.participant).turn = .ok t) ∧
      (∃ result, (askingOnce.run {} { input := "Who?", threadId := "1" }).1 = .ok result ∧
        result.turns.length = 4) ∧
      (askingOnce.run {} { input := "Who?", threadId := "1" }).2.inbox.total = 4 := by
  have hall : (askingOnce.begun {} { input := "Who?", threadId := "1" } none).all
      (fun a => (askingOnce.action a.before a.participant).turn.isOk) = true := by
    decide +kernel
  have hacts : ∀ a ∈ askingOnce.begun {} { input := "Who?", threadId := "1" } none,
      ∃ t, (askingOnce.action a.before a.participant).turn = .ok t := by
    intro a ha
    have hok := List.all_eq_true.mp hall a ha
    cases hturn : (askingOnce.action a.before a.participant).turn with
    | error e =>
      rw [hturn] at hok
      cases hok
    | ok t => exact ⟨t, rfl⟩
  have hverdicts : askingOnce.runVerdicts {} { input := "Who?", threadId := "1" } =
      [some .analyst, some .summary] := by
    decide +kernel
  have hends := (run_outcome askingOnce {} { input := "Who?", threadId := "1" }).1 hacts
  exact ⟨hacts, hends.completed 1 ⟨by decide, [], hverdicts⟩ (by decide)⟩

end Desk

end MeetDesk
