import MeetDesk.Progress
import MeetDesk.Proofs.Json.Integer
import MeetDesk.Proofs.Lookup
import Mathlib.Data.List.Induction

/-!
# Which steps have a duration

A step that ends has a duration if the latest call before, for the same run and the same step, was its
start (`ProgressLog.finish_after`). Runs that share a log, each under a name of its own, are told apart by
this name, so in every interleaving of them every step that ends has a duration, and nothing is remembered
in the end (`ProgressLog.Sharing.started_after`).
-/

namespace MeetDesk

/-- The last list is an interleaving of the lists: its items are taken from their fronts. -/
inductive Interleaves {α : Type} : List (List α) → List α → Prop
  /-- Nothing is left in any list. -/
  | done {lists : List (List α)} (all : ∀ l ∈ lists, l = []) : Interleaves lists []
  /-- The next item is the first one of the list with this index. -/
  | take {lists : List (List α)} {i : Nat} {x : α} {l merged : List α}
      (front : lists[i]? = some (x :: l)) (rest : Interleaves (lists.set i l) merged) :
      Interleaves lists (x :: merged)

/-- If what is looked for stands in one of the lists only, it stands in their interleaving as it stands in
this list. -/
theorem Interleaves.filter_eq {α : Type} {lists : List (List α)} {merged l : List α} {j : Nat}
    (h : Interleaves lists merged) (p : α → Bool) (hl : lists[j]? = some l)
    (hothers : ∀ k m, k ≠ j → lists[k]? = some m → ∀ x ∈ m, p x = false) :
    merged.filter p = l.filter p := by
  induction h generalizing l with
  | done hall =>
    rw [hall l (List.mem_of_getElem? hl)]
  | @take lists i x l' merged hfront _ ih =>
    obtain ⟨hi, -⟩ := List.getElem?_eq_some_iff.mp hfront
    by_cases hij : i = j
    · subst hij
      obtain rfl : x :: l' = l := Option.some.inj (hfront.symm.trans hl)
      have hkept : merged.filter p = l'.filter p := by
        refine ih (List.getElem?_set_self hi) fun k m hk hm => ?_
        rw [List.getElem?_set_ne (Ne.symm hk)] at hm
        exact hothers k m hk hm
      rw [List.filter_cons, List.filter_cons, hkept]
    · have hx : p x = false := hothers i _ hij hfront x List.mem_cons_self
      rw [List.filter_cons_of_neg (by simp [hx])]
      refine ih (by rw [List.getElem?_set_ne hij, hl]) fun k m hk hm => ?_
      by_cases hki : i = k
      · subst hki
        rw [List.getElem?_set_self hi] at hm
        obtain rfl := Option.some.inj hm
        exact fun y hy => hothers i _ hk hfront y (List.mem_cons_of_mem _ hy)
      · rw [List.getElem?_set_ne hki] at hm
        exact hothers k m hk hm

/-- Every item of an interleaving is an item of one of the lists. -/
theorem Interleaves.exists_of_mem {α : Type} {lists : List (List α)} {merged : List α}
    (h : Interleaves lists merged) {y : α} (hy : y ∈ merged) : ∃ l ∈ lists, y ∈ l := by
  induction h with
  | done => cases hy
  | @take lists i x l merged hfront _ ih =>
    have hmem := List.mem_of_getElem? hfront
    rcases List.mem_cons.mp hy with rfl | hlater
    · exact ⟨_, hmem, List.mem_cons_self⟩
    · obtain ⟨m, hm, hym⟩ := ih hlater
      rcases List.mem_or_eq_of_mem_set hm with hold | rfl
      · exact ⟨m, hold, hym⟩
      · exact ⟨_, hmem, List.mem_cons_of_mem _ hym⟩

namespace ProgressLog

/-- A call to the log: a step starts or ends, and the clock shows the given seconds. -/
structure Call where
  key : StepKey
  finished : Bool
  now : Float

/-- The log after a call. A step that ends is forgotten even if its duration cannot be told. -/
def take (log : ProgressLog) (c : Call) : ProgressLog :=
  if c.finished then
    match log.finish c.key c.now with
    | .ok log => log
    | .error _ => log.forget c.key
  else log.start c.key c.now

/-- A log after calls. -/
def after (calls : List Call) : ProgressLog := calls.foldl take {}

/-- The latest of the calls for a step of a run. -/
def latest? (calls : List Call) (key : StepKey) : Option Call :=
  (calls.filter fun c => c.key == key).getLast?

/-- When the step of a run started that has not ended since. -/
def startOf? (calls : List Call) (key : StepKey) : Option Float :=
  ((latest? calls key).filter fun c => !c.finished).map Call.now

/-- The line for the end of a step has no duration. -/
def ReportsNone (log : ProgressLog) (key : StepKey) (now : Float) : Prop :=
  ∃ log', log.finish key now = .ok log' ∧ log'.lines = log.lines ++ [finishLine key none]

variable {log : ProgressLog} {calls : List Call} {key other : StepKey} {now : Float}

/-! ## What is remembered -/

theorem latest?_concat (calls : List Call) (c : Call) (key : StepKey) :
    latest? (calls ++ [c]) key = if c.key = key then some c else latest? calls key := by
  unfold latest?
  by_cases hkey : c.key = key
  · rw [if_pos hkey, List.filter_append, List.filter_cons_of_pos (by simpa using hkey), List.filter_nil,
      List.getLast?_concat]
  · rw [if_neg hkey, List.filter_append, List.filter_cons_of_neg (by simpa using hkey), List.filter_nil,
      List.append_nil]

/-- A step that is forgotten is noted no longer. -/
theorem lookup_forget (log : ProgressLog) (key other : StepKey) :
    (log.forget key).started.lookup other = if key = other then none else log.started.lookup other := by
  unfold forget
  by_cases hkey : key = other
  · subst hkey
    rw [if_pos rfl]
    exact lookup_eq_none fun entry => ne_of_mem_filter
  · rw [if_neg hkey]
    exact lookup_filter_ne log.started (Ne.symm hkey)

/-- A step that starts is noted with its time. -/
theorem lookup_start (log : ProgressLog) (key other : StepKey) (now : Float) :
    (log.start key now).started.lookup other =
      if key = other then some now else log.started.lookup other := by
  have hstarted : (log.start key now).started = (log.forget key).started ++ [(key, now)] := rfl
  rw [hstarted, List.lookup_append, lookup_forget, List.lookup_cons]
  by_cases hkey : key = other
  · simp [hkey]
  · have hne : (other == key) = false := by simpa using Ne.symm hkey
    simp [hkey, hne]

/-- A step that ends without a start changes nothing that is remembered; any other is forgotten. -/
theorem lookup_take (log : ProgressLog) (c : Call) (other : StepKey) :
    (log.take c).started.lookup other =
      if c.key = other then (if c.finished then none else some c.now) else log.started.lookup other := by
  unfold take
  by_cases hend : c.finished = true
  · rw [if_pos hend, if_pos hend, ← lookup_forget]
    unfold finish
    cases hstart : log.started.lookup c.key with
    | none =>
      -- Nothing was remembered under this key, so forgetting it makes no difference.
      show log.started.lookup other = _
      rw [lookup_forget]
      by_cases hkey : c.key = other
      · rw [if_pos hkey, ← hkey, hstart]
      · rw [if_neg hkey]
    | some start =>
      dsimp only
      cases milliseconds start c.now <;> rfl
  · rw [if_neg hend, if_neg hend]
    exact lookup_start log c.key other c.now

theorem after_concat (calls : List Call) (c : Call) : after (calls ++ [c]) = (after calls).take c :=
  List.foldl_concat ..

/-- What is remembered is when the steps started that have not ended since. -/
theorem lookup_after (calls : List Call) (key : StepKey) :
    (after calls).started.lookup key = startOf? calls key := by
  induction calls using List.reverseRecOn with
  | nil => rfl
  | append_singleton calls c ih =>
    rw [after_concat, lookup_take, startOf?, latest?_concat]
    by_cases hkey : c.key = key
    · rw [if_pos hkey, if_pos hkey]
      cases hend : c.finished <;> simp [Option.filter_some, hend]
    · rw [if_neg hkey, if_neg hkey, ih, startOf?]

/-! ## What is written -/

/-- A step that ends is written with the time since its latest call, if that was a start, and without a
duration otherwise. -/
theorem finish_after (calls : List Call) (key : StepKey) (now : Float) :
    (after calls).finish key now =
      match startOf? calls key with
      | none => .ok ((after calls).write (finishLine key none))
      | some start => (milliseconds start now).map fun n =>
          ((after calls).forget key).write (finishLine key (some n)) := by
  unfold finish
  rw [lookup_after]
  cases startOf? calls key with
  | none => rfl
  | some start =>
    dsimp only
    cases milliseconds start now <;> rfl

/-- A line shows whether there is a duration. -/
theorem finishLine_ne (key : StepKey) (n : Int) : finishLine key (some n) ≠ finishLine key none := by
  intro h
  have htext : (toString n).toList = "None".toList := by
    have hlist := congrArg String.toList h
    unfold finishLine durationText at hlist
    simp only [String.toList_append, List.append_assoc, List.append_cancel_left_eq,
      List.append_cancel_right_eq] at hlist
    exact hlist
  obtain ⟨c, s, hhead, hdigit⟩ := Json.toList_int_head n
  rw [hhead] at htext
  obtain rfl : c = 'N' := (List.cons.inj htext).1
  rcases hdigit with hdigit | ⟨hminus, -⟩
  · cases hdigit
  · cases hminus

/-- The line for the end of a step has no duration exactly if the latest call before for this run and this
step, if there is one, is not its start. -/
theorem reportsNone_iff (calls : List Call) (key : StepKey) (now : Float) :
    ReportsNone (after calls) key now ↔
      ∀ c, latest? calls key = some c → c.finished = true := by
  have hfinish := finish_after calls key now
  have hopen : startOf? calls key = none ↔ ∀ c, latest? calls key = some c → c.finished = true := by
    unfold startOf?
    rw [Option.map_eq_none_iff, Option.filter_eq_none_iff]
    simp
  rw [← hopen]
  unfold ReportsNone
  cases hstart : startOf? calls key with
  | none =>
    rw [hstart] at hfinish
    simp only [iff_true]
    exact ⟨_, hfinish, rfl⟩
  | some start =>
    rw [hstart] at hfinish
    simp only [reduceCtorEq, iff_false]
    rintro ⟨log', hlog', hlines⟩
    rw [hfinish] at hlog'
    dsimp only at hlog'
    cases hduration : milliseconds start now with
    | error fault =>
      rw [hduration] at hlog'
      cases hlog'
    | ok n =>
      rw [hduration] at hlog'
      obtain rfl := Except.ok.inj hlog'
      have hline : finishLine key (some n) = finishLine key none :=
        List.singleton_inj.mp (List.append_cancel_left hlines)
      exact finishLine_ne key n hline

/-! ## Runs that share a log -/

/-- What a run reports: each of its steps starts and then ends, and then comes the next. -/
inductive Bracketed (run? : Option String) : List Call → Prop
  | nil : Bracketed run? []
  | step {name : String} {opened closed : Float} {rest : List Call} (later : Bracketed run? rest) :
      Bracketed run? (⟨(run?, name), false, opened⟩ :: ⟨(run?, name), true, closed⟩ :: rest)

/-- A run that reports to a log under a name. -/
structure Session where
  name : String
  calls : List Call
  bracketed : Bracketed (some name) calls

/-- Runs that report to one log at the same time, each under a name of its own. -/
structure Sharing where
  sessions : List Session
  distinct : (sessions.map Session.name).Nodup
  calls : List Call
  interleaved : Interleaves (sessions.map Session.calls) calls

variable {run? : Option String}

/-- The steps of a bracketed run are its own. -/
theorem Bracketed.run_eq (h : Bracketed run? calls) : ∀ c ∈ calls, c.key.1 = run? := by
  induction h with
  | nil => simp
  | step _ ih => exact List.forall_mem_cons.mpr ⟨rfl, List.forall_mem_cons.mpr ⟨rfl, ih⟩⟩

/-- In what a run reports, the end of a step comes right after its start. -/
theorem Bracketed.exists_start {before later : List Call} {c : Call}
    (h : Bracketed run? (before ++ c :: later)) (hend : c.finished = true) :
    ∃ earlier start, before = earlier ++ [start] ∧ start.key = c.key ∧ start.finished = false := by
  generalize hcalls : before ++ c :: later = calls at h
  induction h generalizing before with
  | nil => exact absurd hcalls (by simp)
  | @step name opened closed rest _ ih =>
    rcases before with _ | ⟨start, _ | ⟨second, before⟩⟩
    · obtain rfl := (List.cons.inj hcalls).1
      cases hend
    · simp only [List.cons_append, List.nil_append, List.cons.injEq] at hcalls
      obtain ⟨rfl, rfl, -⟩ := hcalls
      exact ⟨[], _, rfl, rfl, rfl⟩
    · simp only [List.cons_append, List.cons.injEq] at hcalls
      obtain ⟨rfl, rfl, hrest⟩ := hcalls
      obtain ⟨earlier, start, rfl, hstart⟩ := ih hrest
      exact ⟨_ :: _ :: earlier, start, rfl, hstart⟩

theorem latest?_cons (c : Call) (calls : List Call) (key : StepKey) :
    latest? (c :: calls) key = (latest? calls key).or (if c.key = key then some c else none) := by
  unfold latest?
  by_cases hkey : c.key = key
  · rw [if_pos hkey, List.filter_cons_of_pos (by simpa using hkey), List.getLast?_cons]
    cases (calls.filter fun c => c.key == key).getLast? <;> rfl
  · rw [if_neg hkey, List.filter_cons_of_neg (by simpa using hkey), Option.or_none]

/-- A run that is over has ended every step. -/
theorem Bracketed.finished_of_latest? (h : Bracketed run? calls) {c : Call}
    (hc : latest? calls key = some c) : c.finished = true := by
  induction h with
  | nil => cases hc
  | @step name opened closed rest _ ih =>
    rw [latest?_cons, latest?_cons] at hc
    cases hrest : latest? rest key with
    | some last =>
      rw [hrest] at hc ih
      exact ih hc
    | none =>
      rw [hrest] at hc
      by_cases hkey : ((run?, name) : StepKey) = key
      · simp only [hkey, if_true, Option.none_or, Option.some_or, Option.some.injEq] at hc
        rw [← hc]
      · simp [hkey] at hc

/-- Only the calls of its run bear on a step. -/
theorem latest?_filter (calls : List Call) (key : StepKey) :
    latest? (calls.filter fun c => c.key.1 == key.1) key = latest? calls key := by
  unfold latest?
  rw [List.filter_filter]
  congr 1
  refine List.filter_congr fun c _ => ?_
  by_cases hkey : c.key = key
  · simp [hkey]
  · simp [hkey]

namespace Sharing

variable (s : Sharing)

/-- What a log hears of one of the runs that share it is what the run reports. -/
theorem filter_calls {session : Session} (h : session ∈ s.sessions) :
    (s.calls.filter fun c => c.key.1 == some session.name) = session.calls := by
  obtain ⟨j, hj⟩ := List.getElem?_of_mem h
  have hcalls : (s.sessions.map Session.calls)[j]? = some session.calls := by
    rw [List.getElem?_map, hj, Option.map_some]
  rw [s.interleaved.filter_eq _ hcalls]
  · rw [List.filter_eq_self]
    intro c hc
    simpa using session.bracketed.run_eq c hc
  · intro k m hk hm c hc
    rw [List.getElem?_map] at hm
    obtain ⟨other, hother, rfl⟩ := Option.map_eq_some_iff.mp hm
    have hrun := other.bracketed.run_eq c hc
    rw [hrun]
    have hne : other.name ≠ session.name := by
      intro hname
      have hsame : (s.sessions.map Session.name)[k]? = (s.sessions.map Session.name)[j]? := by
        rw [List.getElem?_map, List.getElem?_map, hother, hj, Option.map_some, Option.map_some, hname]
      have hlt : k < (s.sessions.map Session.name).length := by
        rw [List.length_map]
        exact (List.getElem?_eq_some_iff.mp hother).1
      exact hk ((List.getElem?_inj hlt s.distinct).mp hsame)
    simpa using hne

/-- Every call is made for one of the runs. -/
theorem exists_session {c : Call} (h : c ∈ s.calls) :
    ∃ session ∈ s.sessions, c.key.1 = some session.name := by
  obtain ⟨l, hl, hc⟩ := s.interleaved.exists_of_mem h
  obtain ⟨session, hsession, rfl⟩ := List.mem_map.mp hl
  exact ⟨session, hsession, session.bracketed.run_eq c hc⟩

/-- Whatever runs share a log, every step that ends has a duration. -/
theorem not_reportsNone {before later : List Call} {c : Call} (h : s.calls = before ++ c :: later)
    (hend : c.finished = true) : ¬ ReportsNone (ProgressLog.after before) c.key c.now := by
  have hmem : c ∈ s.calls := by rw [h]; simp
  obtain ⟨session, hsession, hrun⟩ := s.exists_session hmem
  have hfilter := s.filter_calls hsession
  rw [h, List.filter_append, List.filter_cons_of_pos (by simpa using hrun)] at hfilter
  have hbracketed := session.bracketed
  rw [← hfilter] at hbracketed
  obtain ⟨earlier, start, hbefore, hkey, hopen⟩ := hbracketed.exists_start hend
  rw [reportsNone_iff]
  intro hnone
  have hlatest : latest? before c.key = some start := by
    rw [← latest?_filter, hrun, hbefore, latest?_concat, if_pos hkey]
  rw [hnone start hlatest] at hopen
  cases hopen

/-- Whatever runs share a log, it remembers nothing once they are over. -/
theorem started_after : (ProgressLog.after s.calls).started = [] := by
  have hnone : ∀ key, (ProgressLog.after s.calls).started.lookup key = none := by
    intro key
    rw [lookup_after]
    unfold startOf?
    rw [Option.map_eq_none_iff, Option.filter_eq_none_iff]
    intro c hc
    have hmem : c ∈ s.calls ∧ c.key = key := by
      have hlast := List.mem_of_getLast? hc
      simpa using List.mem_filter.mp hlast
    obtain ⟨session, hsession, hrun⟩ := s.exists_session hmem.1
    rw [hmem.2] at hrun
    have hlatest : latest? session.calls key = some c := by
      rw [← s.filter_calls hsession, ← hrun, latest?_filter, hc]
    simp [session.bracketed.finished_of_latest? hlatest]
  cases hstarted : (ProgressLog.after s.calls).started with
  | nil => rfl
  | cons entry rest =>
    have hentry := hnone entry.1
    rw [hstarted, List.lookup_cons, beq_self_eq_true] at hentry
    cases hentry

end Sharing

end ProgressLog

end MeetDesk
