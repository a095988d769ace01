import MeetDesk.Tool.Results

/-!
# The results tool is atomic

A call of the results tool is answered, refused or cancelled. Each of the three is an inductive of the
whole outcome (what is returned, the docket, what the store has received), so an outcome that is none of
them cannot be written down. They are told apart by what is returned: a list, an object, or nothing. Why a
call is refused is an inductive of its own, with one constructor for each reason.

Arguments that are not valid are shown in the log before the call is refused. Where there is no room for
that, the call is none of the three, and nothing was done.
-/

namespace MeetDesk.ResultsTool

section

variable (source : Source) (checked : Checked Specification) (d : Docket) (calls : List StoreCall)

/-- The checked arguments compile to the query `q`. -/
def Compiles (q : CompiledQuery) : Prop :=
  ∃ s, checked = .valid s ∧ s.compile source.table source.strict = .ok q

/-- The store returned rows. They are the new results, and nothing else in the inquiry changed. -/
inductive Answered : Outcome → Prop
  | rows {q : CompiledQuery} {store : Store} {rows : List Row}
      (compiles : Compiles source checked q) (configured : source.store? = some store)
      (returned : store (calls ++ [q.toCall]) = .ok rows) :
      Answered ⟨.ok (.list (rows.map Value.object)),
        ⟨{ d.inquiry with results := rows }, d.mutations + 1⟩, calls ++ [q.toCall]⟩

/-- Why a call fails: the message for it, and what the store has received by then. -/
inductive Reason : String → List StoreCall → Prop
  | unread {issues : List Issue} (invalid : checked = .invalid issues) :
      Reason ("invalid arguments: " ++ toString issues.length ++ " validation error(s)") calls
  | uncompiled {s : Specification} {e : PlanError} (valid : checked = .valid s)
      (stuck : s.compile source.table source.strict = .error e) : Reason e.message calls
  | unconfigured {q : CompiledQuery} (compiles : Compiles source checked q)
      (absent : source.store? = none) : Reason "no data store configured" calls
  | failed {q : CompiledQuery} {store : Store} {fault : Fault}
      (compiles : Compiles source checked q) (configured : source.store? = some store)
      (raised : store (calls ++ [q.toCall]) = .error fault)
      (handled : fault.isCancellation = false) : Reason fault.message (calls ++ [q.toCall])

/-- The call failed. An object says why, and the docket is as it was. -/
inductive Refused : Outcome → Prop
  | because {message : String} {received : List StoreCall}
      (reason : Reason source checked calls message received) :
      Refused ⟨.ok (.object [("error", .text ("Query failed: " ++ message))]), d, received⟩

/-- The work was called off while the store was asked, and the docket is as it was. -/
inductive Cancelled : Outcome → Prop
  | calledOff {q : CompiledQuery} {store : Store} {fault : Fault}
      (compiles : Compiles source checked q) (configured : source.store? = some store)
      (raised : store (calls ++ [q.toCall]) = .error fault)
      (cancellation : fault.isCancellation = true) :
      Cancelled ⟨.error fault, d, calls ++ [q.toCall]⟩

/-- The outcome of an atomic call: one of the three, and none of the others. The store is asked once if
there is a query for it and a store, and is left alone otherwise. -/
structure Atomic (o : Outcome) : Prop where
  one : (Answered source checked d calls o ∧ ¬ Refused source checked d calls o ∧
      ¬ Cancelled source checked d calls o) ∨
    (¬ Answered source checked d calls o ∧ Refused source checked d calls o ∧
      ¬ Cancelled source checked d calls o) ∨
    (¬ Answered source checked d calls o ∧ ¬ Refused source checked d calls o ∧
      Cancelled source checked d calls o)
  asked : ∀ q, Compiles source checked q → source.store?.isSome →
    o.calls = calls ++ [q.toCall]
  unasked : ¬ ((∃ q, Compiles source checked q) ∧ source.store?.isSome) → o.calls = calls

end

variable {source : Source} {checked : Checked Specification} {d : Docket} {calls : List StoreCall}
variable {o : Outcome}

/-- Arguments compile to one query at most. -/
theorem Compiles.unique {q q' : CompiledQuery} (h : Compiles source checked q)
    (h' : Compiles source checked q') : q = q' := by
  obtain ⟨s, hs, hq⟩ := h
  obtain ⟨s', hs', hq'⟩ := h'
  have hsame : s = s' := Checked.valid.inj (hs.symm.trans hs')
  rw [hsame, hq'] at hq
  exact (Except.ok.inj hq).symm

/-! The three exclude each other: what is returned is a list, an object, or a fault. -/

/-- A call that is answered is not refused. -/
theorem Answered.not_refused (h : Answered source checked d calls o) :
    ¬ Refused source checked d calls o := by
  intro h'
  cases h with
  | rows => cases h'

/-- A call that is answered is not cancelled. -/
theorem Answered.not_cancelled (h : Answered source checked d calls o) :
    ¬ Cancelled source checked d calls o := by
  intro h'
  cases h with
  | rows => cases h'

/-- A call that is refused is not cancelled. -/
theorem Refused.not_cancelled (h : Refused source checked d calls o) :
    ¬ Cancelled source checked d calls o := by
  intro h'
  cases h' with
  | calledOff => cases h

/-- What the store has received after a call that got as far as the store. -/
theorem asked_of_compiles {q q' : CompiledQuery} (h : Compiles source checked q)
    (ho : o.calls = calls ++ [q.toCall]) (h' : Compiles source checked q') :
    o.calls = calls ++ [q'.toCall] := by
  rw [ho, h.unique h']

theorem Answered.atomic (h : Answered source checked d calls o) :
    Atomic source checked d calls o where
  one := Or.inl ⟨h, h.not_refused, h.not_cancelled⟩
  asked q' hq' _ := by
    cases h with
    | rows hq => exact asked_of_compiles hq rfl hq'
  unasked hno := by
    cases h with
    | rows hq hstore => exact absurd ⟨⟨_, hq⟩, by simp [hstore]⟩ hno

theorem Cancelled.atomic (h : Cancelled source checked d calls o) :
    Atomic source checked d calls o where
  one := Or.inr (Or.inr ⟨fun h' => h'.not_cancelled h, fun h' => h'.not_cancelled h, h⟩)
  asked q' hq' _ := by
    cases h with
    | calledOff hq => exact asked_of_compiles hq rfl hq'
  unasked hno := by
    cases h with
    | calledOff hq hstore => exact absurd ⟨⟨_, hq⟩, by simp [hstore]⟩ hno

theorem Refused.atomic (h : Refused source checked d calls o) :
    Atomic source checked d calls o where
  one := Or.inr (Or.inl ⟨fun h' => h'.not_refused h, h, h.not_cancelled⟩)
  asked q' hq' hsome := by
    obtain ⟨s, hs, hcompile⟩ := hq'
    obtain ⟨hreason⟩ := h
    cases hreason with
    | unread hinvalid =>
      rw [hs] at hinvalid
      cases hinvalid
    | uncompiled hvalid hstuck =>
      rw [← Checked.valid.inj (hs.symm.trans hvalid), hcompile] at hstuck
      cases hstuck
    | unconfigured _ habsent => simp [habsent] at hsome
    | failed hq => exact asked_of_compiles hq rfl ⟨s, hs, hcompile⟩
  unasked hno := by
    obtain ⟨hreason⟩ := h
    cases hreason with
    | unread | uncompiled | unconfigured => rfl
    | failed hq hstore => exact absurd ⟨⟨_, hq⟩, by simp [hstore]⟩ hno

/-- Asking the store for a query is answered, refused or cancelled. -/
theorem ask_settles {store : Store} {q : CompiledQuery} (hstore : source.store? = some store)
    (hq : Compiles source checked q) (d : Docket) (calls : List StoreCall) :
    Answered source checked d calls (ask store q.toCall d calls) ∨
      Refused source checked d calls (ask store q.toCall d calls) ∨
      Cancelled source checked d calls (ask store q.toCall d calls) := by
  unfold ask
  dsimp only
  cases hrows : store (calls ++ [q.toCall]) with
  | ok rows => exact Or.inl (.rows hq hstore hrows)
  | error fault =>
    dsimp only
    by_cases hc : fault.isCancellation = true
    · rw [if_pos hc]
      exact Or.inr (Or.inr (.calledOff hq hstore hrows hc))
    · rw [if_neg hc]
      exact Or.inr (Or.inl ⟨.failed hq hstore hrows (by simpa using hc)⟩)

/-- A call with a specification is answered, refused or cancelled. -/
theorem query_settles (source : Source) (s : Specification) (d : Docket) (calls : List StoreCall) :
    Answered source (.valid s) d calls (query source s d calls) ∨
      Refused source (.valid s) d calls (query source s d calls) ∨
      Cancelled source (.valid s) d calls (query source s d calls) := by
  unfold query
  cases hcompile : s.compile source.table source.strict with
  | error e => exact Or.inr (Or.inl ⟨.uncompiled rfl hcompile⟩)
  | ok q =>
    have hq : Compiles source (.valid s) q := ⟨s, rfl, hcompile⟩
    dsimp only
    split
    · rename_i hstore
      exact Or.inr (Or.inl ⟨.unconfigured hq hstore⟩)
    · rename_i store hstore
      exact ask_settles hstore hq d calls

/-- A call with unchecked arguments is answered, refused or cancelled, if the log can show what is
refused. -/
theorem run_settles {room : Room} {arguments : Value} (source : Source) (d : Docket)
    (calls : List StoreCall) (h : room.ShowsRefused (Specification.read arguments)) :
    Answered source (Specification.read arguments) d calls (run room source arguments d calls) ∨
      Refused source (Specification.read arguments) d calls (run room source arguments d calls) ∨
      Cancelled source (Specification.read arguments) d calls (run room source arguments d calls) := by
  unfold run
  cases hread : Specification.read arguments with
  | invalid issues =>
    rw [hread] at h
    have hshown : room.Shows issues := h
    dsimp only
    rw [if_pos hshown]
    exact Or.inr (Or.inl ⟨.unread rfl⟩)
  | valid s => exact query_settles source s d calls

/-- Where the log cannot show what is refused, the call fails with that and does nothing. -/
theorem run_unshown {room : Room} {arguments : Value} (source : Source) (d : Docket)
    (calls : List StoreCall) (h : ¬ room.ShowsRefused (Specification.read arguments)) :
    run room source arguments d calls = ⟨.error .tooDeep, d, calls⟩ := by
  unfold run
  cases hread : Specification.read arguments with
  | invalid issues =>
    rw [hread] at h
    exact if_neg h
  | valid s =>
    rw [hread] at h
    exact absurd trivial h

/-- A call that comes out in one of the three ways comes out in this one only. -/
theorem atomic_of_settles (h : Answered source checked d calls o ∨ Refused source checked d calls o ∨
    Cancelled source checked d calls o) : Atomic source checked d calls o := by
  rcases h with h | h | h
  · exact h.atomic
  · exact h.atomic
  · exact h.atomic

/-- The results tool is atomic, whatever it is called with and whatever the store does, but for arguments
that are refused and cannot be shown in the log. Those make it fail, and it does nothing. -/
theorem results_atomic (room : Room) (source : Source) (d : Docket) (calls : List StoreCall) :
    (∀ arguments,
      (room.ShowsRefused (Specification.read arguments) ∧
        Atomic source (Specification.read arguments) d calls (run room source arguments d calls)) ∨
      (¬ room.ShowsRefused (Specification.read arguments) ∧
        run room source arguments d calls = ⟨.error .tooDeep, d, calls⟩)) ∧
    ∀ s, Atomic source (.valid s) d calls (query source s d calls) := by
  refine ⟨fun arguments => ?_, fun s => atomic_of_settles (query_settles source s d calls)⟩
  by_cases hshown : room.ShowsRefused (Specification.read arguments)
  · exact Or.inl ⟨hshown, atomic_of_settles (run_settles source d calls hshown)⟩
  · exact Or.inr ⟨hshown, run_unshown source d calls hshown⟩

/-- A number of rows that lists in lists are given for. -/
def buriedLimit : Value := .object [("limit", .nested 2000)]

/-- A list is no number of rows. -/
theorem read_limit_list (items : List Value) :
    ∃ problem path, Specification.read (.object [("limit", .list items)]) =
      .invalid [⟨problem, path, .list items⟩] := ⟨_, _, rfl⟩

/-- Lists that are too deep for the log are invalid arguments, and a call with them is neither answered
nor refused nor cancelled. -/
theorem results_buried :
    ∃ issues, Specification.read buriedLimit = .invalid issues ∧ ∀ source d calls,
      (run {} source buriedLimit d calls).returned = .error .tooDeep ∧
      ¬ Answered source (.invalid issues) d calls (run {} source buriedLimit d calls) ∧
      ¬ Refused source (.invalid issues) d calls (run {} source buriedLimit d calls) ∧
      ¬ Cancelled source (.invalid issues) d calls (run {} source buriedLimit d calls) := by
  obtain ⟨problem, path, hread⟩ := read_limit_list [.nested 1999]
  have hburied : Specification.read buriedLimit = .invalid [⟨problem, path, .nested 2000⟩] := hread
  have hunshown : ¬ Room.ShowsRefused {} (Specification.read buriedLimit) := by
    rw [hburied]
    intro hshown
    have hheight := hshown _ (List.mem_singleton.mpr rfl)
    rw [Value.height_nested] at hheight
    exact absurd hheight (by decide)
  have hcompiles : ∀ source q, ¬ Compiles source (.invalid [⟨problem, path, .nested 2000⟩]) q := by
    rintro source q ⟨s, hs, -⟩
    cases hs
  refine ⟨_, hburied, fun source d calls => ?_⟩
  rw [run_unshown source d calls hunshown]
  refine ⟨rfl, fun h => ?_, fun h => ?_, fun h => ?_⟩
  · cases h
  · cases h
  · generalize ho : (⟨.error .tooDeep, d, calls⟩ : Outcome) = o at h
    cases h with
    | calledOff hq => exact hcompiles source _ hq

end MeetDesk.ResultsTool
