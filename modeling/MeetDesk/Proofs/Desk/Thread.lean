import MeetDesk.Proofs.Desk.Result
import MeetDesk.Proofs.Desk.Verdict

/-!
# The thread that a run reports

A run is recorded in the thread that the archive created for it, and reports the thread that its request
named. These are one thread, unless the request named it by the empty text: the archive takes that for no
name and draws one from its source, of which nobody is told (`Desk.run_thread`).
-/

namespace MeetDesk

/-! ## Threads that are not used -/

namespace Archive

variable {a : Archive} {name other : String}

theorem mem_names_of_evict (h : other ∈ a.evict.2.names) : other ∈ a.names := by
  unfold evict names at h
  split at h
  · cases h
  · rw [List.map_drop] at h
    exact List.mem_of_mem_drop h

theorem mem_names_touch {entries : List Entry} (h : other ∈ (a.touch name entries).names) :
    other = name ∨ other ∈ a.names := by
  rw [names_touch] at h
  rcases List.mem_append.mp h with hold | hnew
  · exact Or.inr (List.mem_filter.mp hold).1
  · exact Or.inl (List.mem_singleton.mp hnew)

/-- Extending a thread brings no other thread in. -/
theorem mem_names_extend {entries : List Entry} (h : other ∈ (a.extend name entries).2.names) :
    other = name ∨ other ∈ a.names := mem_names_touch (mem_names_of_evict h)

/-- Creating a thread brings no other thread in. -/
theorem mem_names_create {name? : Option String} (h : other ∈ (a.create name?).2.names) :
    other = (a.nameFor name?).1 ∨ other ∈ a.names := by
  obtain ⟨drawn, hdrawn⟩ := exists_drawn_nameFor a name?
  have hevicted : (a.create name?).2 = ((a.nameFor name?).2.touch (a.nameFor name?).1 []).evict.2 := by
    unfold create
    dsimp only
    generalize ((a.nameFor name?).2.touch (a.nameFor name?).1 []).evict = evicted
    obtain ⟨_ | _, _⟩ := evicted <;> rfl
  rw [hevicted, hdrawn] at h
  have hheld := mem_names_touch (mem_names_of_evict h)
  exact hheld

end Archive

/-- Appending to a thread brings no other thread in. -/
theorem Ledger.mem_names_attempts {thread other : String} {todo : List Submission} {l : Ledger}
    (h : other ∈ (todo.foldl (Ledger.attempt {} thread) l).archive.names) :
    other = thread ∨ other ∈ l.archive.names := by
  induction todo generalizing l with
  | nil => exact Or.inr h
  | cons s rest ih =>
    rcases ih h with hthread | hattempted
    · exact Or.inl hthread
    · exact Archive.mem_names_extend hattempted

namespace Desk

variable {desk : Desk} {world : World} {request : RunRequest} {deadline? : Option Float}
  {result : RunResult}

/-- A run that has a result uses one thread only. -/
theorem mem_names_of_run {other : String}
    (h : (desk.run world request deadline?).1 = .ok result) (harchive : desk.archive? = some {})
    (hcapacity : 1 ≤ world.ledger.archive.capacity)
    (hother : other ∈ (desk.run world request deadline?).2.ledger.archive.names) :
    other = (world.ledger.archive.nameFor (some request.threadId)).1 ∨
      other ∈ world.ledger.archive.names := by
  obtain ⟨kept, hcreate, -, -⟩ := Archive.get_create hcapacity (some request.threadId)
  rw [ledger_of_run h harchive hcreate] at hother
  rcases Ledger.mem_names_attempts hother with hthread | hkept
  · exact Or.inl hthread
  · refine Archive.mem_names_create ?_
    rw [hcreate]
    exact hkept

/-- A run that has a result ends the thread that was created for it with the question and all its turns. It
reports this thread exactly if the request named one. A request that names its thread by the empty text is
recorded in a thread whose name is drawn from the archive's source; what is reported is the empty text, and
a thread of this name is not there, unless it was before. -/
theorem run_thread (h : (desk.run world request deadline?).1 = .ok result)
    (harchive : desk.archive? = some {}) (hcapacity : 1 ≤ world.ledger.archive.capacity) :
    ∃ created kept,
      world.ledger.archive.create (some request.threadId) = (.ok created, kept) ∧
      (desk.run world request deadline?).2.ledger.archive.get created =
        world.ledger.archive.get created ++ Entry.ofRun (some request.input) result.turns ∧
      (result.threadId? = some created ↔ request.threadId ≠ "") ∧
      (request.threadId = "" →
        created = world.ledger.archive.source.name world.ledger.archive.drawn ∧
          result.threadId? = some "" ∧
          ("" ∉ world.ledger.archive.names →
            (desk.run world request deadline?).2.ledger.archive.get "" = [])) := by
  obtain ⟨kept, hcreate, -, -⟩ := Archive.get_create hcapacity (some request.threadId)
  obtain ⟨hreported, -⟩ := result_of_run h
  have hget := get_created_of_run h harchive hcapacity rfl
  have hdrawn : request.threadId = "" →
      (world.ledger.archive.nameFor (some request.threadId)).1 =
        world.ledger.archive.source.name world.ledger.archive.drawn := by
    intro hempty
    rw [hempty, Archive.nameFor_empty]
  have hfilled := world.ledger.archive.source.name_ne_empty world.ledger.archive.drawn
  rw [hreported]
  refine ⟨_, kept, hcreate, hget, ⟨fun hsame hempty => ?_, fun hne => ?_⟩, fun hempty =>
    ⟨hdrawn hempty, by rw [hempty], fun habsent => ?_⟩⟩
  · have hname := Option.some.inj hsame
    rw [hdrawn hempty, hempty] at hname
    exact hfilled hname.symm
  · rw [Archive.nameFor_of_ne hne]
  · refine Archive.get_of_not_mem fun hheld => ?_
    rcases mem_names_of_run h harchive hcapacity hheld with hself | hbefore
    · rw [hdrawn hempty] at hself
      exact hfilled hself.symm
    · exact habsent hbefore

/-- A desk whose runs are recorded. -/
def recording : Desk := { askingOnce with archive? := some {} }

/-- A question in a thread of the given name. -/
def asked (threadId : String) : RunRequest := { input := "Who?", threadId }

theorem exists_run_recording (threadId : String)
    (h : ((recording.run {} (asked threadId)).1.toOption.any fun result =>
      result.turns.length == 4) = true) :
    ∃ result, (recording.run {} (asked threadId)).1 = .ok result ∧ result.turns.length = 4 := by
  obtain ⟨result, hresult, hlength⟩ := (Option.any_eq_true ..).mp h
  exact ⟨result, eq_ok_of_toOption hresult, beq_iff_eq.mp hlength⟩

theorem run_thread_recording :
    ∃ result, (recording.run {} (asked "1")).1 = .ok result ∧ result.turns.length = 4 ∧
      result.threadId? = some "1" ∧
      (recording.run {} (asked "1")).2.ledger.archive.get "1" =
        Entry.ofRun (some "Who?") result.turns := by
  obtain ⟨result, hresult, hlength⟩ := exists_run_recording "1" (by decide +kernel)
  obtain ⟨created, kept, hcreate, hget, hreported, -⟩ := run_thread hresult rfl (by decide)
  have hname := hreported.mpr (by decide)
  have hcreated : (({} : Archive).create (some "1")).1.toOption = some created := by
    exact congrArg (fun c => c.1.toOption) hcreate
  obtain rfl : "1" = created := Option.some.inj hcreated
  exact ⟨result, hresult, hlength, hname, hget⟩

/-- The thread of a run whose request names it by the empty text cannot be found under what is reported. -/
theorem thread_unreported :
    RunRequest.read (.object [("input", .text "Who?"), ("threadId", .text "")]) = .valid (asked "") ∧
      recording.archive? = some {} ∧ 1 ≤ ({} : World).ledger.archive.capacity ∧
      (({} : World).ledger.archive.create (some (asked "").threadId)).1 = .ok "thread 1" ∧
      ∃ result, (recording.run {} (asked "")).1 = .ok result ∧ result.threadId? = some "" ∧
        ¬ ∃ before, (recording.run {} (asked "")).2.ledger.archive.get "" =
          before ++ Entry.ofRun (some (asked "").input) result.turns := by
  obtain ⟨result, hresult, -⟩ := exists_run_recording "" (by decide +kernel)
  refine ⟨rfl, rfl, by decide, by decide +kernel, result, hresult, (result_of_run hresult).1, ?_⟩
  rintro ⟨before, hbefore⟩
  have habsent : "" ∉ (recording.run {} (asked "")).2.ledger.archive.names := by
    intro hheld
    rcases mem_names_of_run hresult rfl (by decide) hheld with hself | hold
    · exact absurd hself (by decide +kernel)
    · cases hold
  rw [Archive.get_of_not_mem habsent] at hbefore
  have hempty := (List.append_eq_nil_iff.mp hbefore.symm).2
  cases hempty

end Desk

end MeetDesk
