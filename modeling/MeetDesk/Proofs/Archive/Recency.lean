import MeetDesk.Archive
import MeetDesk.Proofs.Lookup
import Mathlib.Data.List.Dedup
import Mathlib.Data.List.DropRight

/-!
# Which threads an archive holds

An archive keeps its threads in a list, and each call moves, adds or drops some of them. What it holds
after any calls can be said without that list: the threads that were used last, as many as fit, and in
each of them what was appended since it was last absent. `Archive.answer_cases` says what one call does
to the list, `Archive.Recent` is the invariant of all calls.
-/

namespace MeetDesk

namespace Archive

/-- A call to an archive. -/
inductive Call where
  | create (name? : Option String)
  | append (name : String) (message? : Option String) (turns : List Turn)
  | get (name : String)

/-- What a call answers. -/
inductive Answer where
  | created (name : String)
  | appended
  | held (entries : List Entry)

/-- The entries that a call appends to a thread. -/
def Call.entriesFor (name : String) : Call → List Entry
  | append other message? turns =>
    if other = name then (message?.map Entry.user).toList ++ turns.map fun t => .turn t.toFields
    else []
  | _ => []

/-- Answers a call. -/
def answer (a : Archive) : Call → Except Fault Answer × Archive
  | .create name? => ((a.create name?).1.map .created, (a.create name?).2)
  | .append name message? turns =>
    ((a.append name message? turns).1.map fun _ => .appended, (a.append name message? turns).2)
  | .get name => (.ok (.held (a.get name)), a)

/-- The thread that a call uses: the one that it creates or appends to. -/
def used? (a : Archive) : Call → Option String
  | .create name? => (a.create name?).1.toOption
  | .append name _ _ => some name
  | .get _ => none

/-- An archive after calls. -/
def after (a : Archive) (calls : List Call) : Archive := calls.foldl (fun a c => (a.answer c).2) a

/-- The threads that calls use, one after the other. -/
def uses (a : Archive) : List Call → List String
  | [] => []
  | c :: rest => (a.used? c).toList ++ uses (a.answer c).2 rest

/-- An archive that holds nothing yet. -/
def empty (source : NameSource) (capacity : Nat) : Archive := { capacity, source }

/-- The thread was last absent between the calls before and the calls since. -/
structure LastAbsent (a : Archive) (name : String) (before since : List Call) : Prop where
  absent : name ∉ (a.after before).names
  present : ∀ more, more <+: since → more ≠ [] → name ∈ (a.after (before ++ more)).names

/-! ## Lists -/

theorem lookup_drop {β : Type} {l : List (String × β)} {name : String} {k : Nat}
    (hl : (l.map Prod.fst).Nodup) (hname : name ∈ (l.drop k).map Prod.fst) :
    (l.drop k).lookup name = l.lookup name := by
  induction l generalizing k with
  | nil => simp
  | cons thread rest ih =>
    cases k with
    | zero => rfl
    | succ k =>
      rw [List.map_cons, List.nodup_cons] at hl
      have hrest : name ∈ rest.map Prod.fst := by
        rw [List.drop_succ_cons, List.map_drop] at hname
        exact List.mem_of_mem_drop hname
      have hne : (name == thread.1) = false := by
        have : name ≠ thread.1 := fun heq => hl.1 (heq ▸ hrest)
        simpa using this
      rw [List.drop_succ_cons, ih hl.2 hname, List.lookup_cons, hne]

theorem rtake_append {α : Type} {front back : List α} {n : Nat} (h : n ≤ back.length) :
    (front ++ back).rtake n = back.rtake n := by
  unfold List.rtake
  have hlen : (front ++ back).length - n = front.length + (back.length - n) := by
    rw [List.length_append]
    omega
  rw [hlen, ← List.drop_drop, List.drop_left]

/-- Without repetitions, a use that comes again moves to the end. -/
theorem dedup_concat {α : Type} [DecidableEq α] (l : List α) (x : α) :
    (l ++ [x]).dedup = (l.dedup.filter fun y => y != x) ++ [x] := by
  induction l with
  | nil => simp
  | cons y rest ih =>
    rw [List.cons_append]
    by_cases hy : y ∈ rest
    · have hmem : y ∈ rest ++ [x] := List.mem_append_left _ hy
      rw [List.dedup_cons_of_mem hmem, List.dedup_cons_of_mem hy, ih]
    · rw [List.dedup_cons_of_notMem hy]
      by_cases hx : y = x
      · have hmem : y ∈ rest ++ [x] := by simp [hx]
        rw [List.dedup_cons_of_mem hmem, ih, List.filter_cons_of_neg (by simp [hx])]
      · have hmem : y ∉ rest ++ [x] := by simp [hx, hy]
        rw [List.dedup_cons_of_notMem hmem, ih, List.filter_cons_of_pos (by simp [hx]),
          List.cons_append]

/-- Whether what does not fit is dropped before or only after the use of a thread makes no difference:
at most one of those that fit is the thread itself. -/
theorem rtake_filter_rtake {α : Type} [DecidableEq α] {l : List α} (hl : l.Nodup) (n : Nat) (x : α) :
    (((l.rtake n).filter fun y => y != x) ++ [x]).rtake n =
      ((l.filter fun y => y != x) ++ [x]).rtake n := by
  cases n with
  | zero => simp
  | succ m =>
    rw [List.rtake_concat_succ, List.rtake_concat_succ]
    have hsplit : l.take (l.length - (m + 1)) ++ l.rtake (m + 1) = l := List.take_append_drop _ l
    by_cases hfits : l.length ≤ m + 1
    · have hall : l.rtake (m + 1) = l := by
        unfold List.rtake
        rw [Nat.sub_eq_zero_of_le hfits, List.drop_zero]
      rw [hall]
    · have hlen : (l.rtake (m + 1)).length = m + 1 := by
        unfold List.rtake
        rw [List.length_drop]
        omega
      have hnodup : (l.rtake (m + 1)).Nodup := (List.drop_sublist _ l).nodup hl
      have hkept : m ≤ ((l.rtake (m + 1)).filter fun y => y != x).length := by
        rw [← hnodup.erase_eq_filter]
        have hle := List.le_length_erase (l := l.rtake (m + 1)) (a := x)
        omega
      have hfilter : (l.filter fun y => y != x) =
          ((l.take (l.length - (m + 1))).filter fun y => y != x) ++
            (l.rtake (m + 1)).filter fun y => y != x := by
        rw [← List.filter_append, hsplit]
      rw [hfilter, rtake_append hkept]

/-! ## Touching and evicting -/

variable {a : Archive} {name other : String} {n : Nat}

/-- Using a thread makes it the last one. -/
theorem names_touch (a : Archive) (name : String) (entries : List Entry) :
    (a.touch name entries).names = (a.names.filter fun other => other != name) ++ [name] := by
  unfold touch names
  rw [List.map_append, List.filter_map]
  rfl

/-- Using a thread adds entries to it and leaves the others as they are. -/
theorem get_touch (a : Archive) (name other : String) (entries : List Entry) :
    (a.touch name entries).get other =
      if other = name then a.get name ++ entries else a.get other := by
  unfold touch get
  dsimp only
  rw [List.lookup_append]
  by_cases hother : other = name
  · subst hother
    rw [lookup_eq_none fun thread => ne_of_mem_filter, if_pos rfl]
    simp
  · have hne : (other == name) = false := by simpa using hother
    rw [lookup_filter_ne _ hother, if_neg hother, List.lookup_cons, hne]
    simp

/-- An archive that may hold some threads does not fail. -/
theorem evict_eq (h : a.capacity = n) :
    a.evict = (.ok (), { a with threads := a.threads.rtake n }) := by
  have hnonneg : ¬a.capacity < 0 := by omega
  unfold evict
  rw [if_neg hnonneg, h]
  rfl

/-- An archive with a capacity drops what is beyond it, and does not fail. -/
theorem extend_eq (h : a.capacity = n) (name : String) (entries : List Entry) :
    a.extend name entries =
      (.ok (), { a with threads := (a.touch name entries).threads.rtake n }) :=
  evict_eq (a := a.touch name entries) h

/-- A name that is not empty is kept. -/
theorem nameFor_of_ne (h : name ≠ "") : a.nameFor (some name) = (name, a) := by
  unfold nameFor
  rw [Option.filter_some, if_pos (by simpa using h)]

/-- A thread with an empty name gets the next name of the source. -/
theorem nameFor_empty (a : Archive) :
    a.nameFor (some "") = (a.source.name a.drawn, { a with drawn := a.drawn + 1 }) := rfl

theorem exists_drawn_nameFor (a : Archive) (name? : Option String) :
    ∃ drawn, (a.nameFor name?).2 = { a with drawn } := by
  unfold nameFor
  split
  · exact ⟨a.drawn, rfl⟩
  · exact ⟨_, rfl⟩

theorem create_nameFor (h : a.capacity = n) (name? : Option String) :
    ∃ drawn, a.create name? = (.ok (a.nameFor name?).1,
      { a with threads := (a.touch (a.nameFor name?).1 []).threads.rtake n, drawn }) := by
  obtain ⟨drawn, hdrawn⟩ := exists_drawn_nameFor a name?
  unfold create
  dsimp only
  rw [hdrawn, evict_eq (a := touch { a with drawn } (a.nameFor name?).1 []) h]
  exact ⟨drawn, rfl⟩

/-- Creating a thread uses one of the given name, or of another if none is given. -/
theorem create_eq (h : a.capacity = n) (name? : Option String) :
    ∃ name drawn, (∀ given, name? = some given → given ≠ "" → name = given) ∧
      a.create name? =
        (.ok name, { a with threads := (a.touch name []).threads.rtake n, drawn }) := by
  obtain ⟨drawn, hcreate⟩ := create_nameFor h name?
  refine ⟨_, drawn, fun given hname hne => ?_, hcreate⟩
  rw [hname, nameFor_of_ne hne]

/-- A thread that still fits holds what it held before. -/
theorem get_rtake {threads : List (String × List Entry)} (hnodup : (threads.map Prod.fst).Nodup)
    (hname : name ∈ (threads.rtake n).map Prod.fst) :
    get { a with threads := threads.rtake n } name = get { a with threads } name := by
  unfold get
  dsimp only
  rw [List.rtake, lookup_drop hnodup hname]

/-- What is not held has no entries. -/
theorem get_of_not_mem (h : name ∉ a.names) : a.get name = [] := by
  have hnone : a.threads.lookup name = none :=
    lookup_eq_none fun thread hthread heq => h (heq ▸ List.mem_map_of_mem hthread)
  rw [get, hnone]
  rfl

/-- If at least one thread may be held, a thread that is extended is held, with the entries at its
end. -/
theorem get_extend_self (h : 1 ≤ a.capacity) (name : String) (entries : List Entry) :
    (a.extend name entries).2.get name = a.get name ++ entries := by
  obtain ⟨n, hn⟩ : ∃ n : Nat, a.capacity = (n + 1 : Nat) := ⟨(a.capacity - 1).toNat, by omega⟩
  rw [extend_eq hn]
  unfold touch get
  dsimp only
  rw [List.rtake_concat_succ, List.lookup_append]
  have hnone : ((a.threads.filter fun thread => thread.1 != name).rtake n).lookup name = none :=
    lookup_eq_none fun thread hthread => ne_of_mem_filter (List.mem_of_mem_drop hthread)
  rw [hnone]
  simp

/-! ## Calls -/

theorem answer_get (a : Archive) (name : String) :
    (a.answer (.get name)).1 = .ok (.held (a.get name)) := rfl

/-- All that a call does: it reads, or it uses a thread, which is touched. -/
theorem answer_cases (h : a.capacity = n) (c : Call) :
    (∃ x, (a.answer c).1 = .ok x) ∧
      ((a.used? c = none ∧ (a.answer c).2 = a ∧ ∀ name, c.entriesFor name = []) ∨
        ∃ name, a.used? c = some name ∧ (a.answer c).2.capacity = n ∧
          (a.answer c).2.threads = (a.touch name (c.entriesFor name)).threads.rtake n ∧
          ∀ other, other ≠ name → c.entriesFor other = []) := by
  cases c with
  | create name? =>
    obtain ⟨name, drawn, -, hcreate⟩ := create_eq h name?
    unfold answer used?
    dsimp only
    rw [hcreate]
    exact ⟨⟨_, rfl⟩, Or.inr ⟨name, rfl, h, rfl, fun _ _ => rfl⟩⟩
  | append name message? turns =>
    have hself : (Call.append name message? turns).entriesFor name = Entry.ofRun message? turns :=
      if_pos rfl
    unfold answer used? append
    dsimp only
    rw [extend_eq h]
    refine ⟨⟨_, rfl⟩, Or.inr ⟨name, rfl, h, ?_, fun other hne => if_neg hne.symm⟩⟩
    rw [hself]
  | get name => exact ⟨⟨_, rfl⟩, Or.inl ⟨rfl, rfl, fun _ => rfl⟩⟩

theorem after_concat (a : Archive) (calls : List Call) (c : Call) :
    a.after (calls ++ [c]) = ((a.after calls).answer c).2 := List.foldl_concat ..

theorem uses_concat (a : Archive) (calls : List Call) (c : Call) :
    a.uses (calls ++ [c]) = a.uses calls ++ ((a.after calls).used? c).toList := by
  induction calls generalizing a with
  | nil => simp [uses, after]
  | cons first rest ih =>
    rw [List.cons_append, uses, uses, ih, List.append_assoc]
    rfl

/-- An archive that holds the threads used last, in the order of their last use. -/
structure Recent (n : Nat) (used : List String) (a : Archive) : Prop where
  capacity : a.capacity = n
  names : a.names = used.dedup.rtake n

theorem Recent.nodup {used : List String} (h : Recent n used a) : a.names.Nodup := by
  rw [h.names]
  exact (List.drop_sublist _ _).nodup (List.nodup_dedup used)

/-- Every call keeps to the latest uses. -/
theorem Recent.answer {used : List String} (h : Recent n used a) (c : Call) :
    Recent n (used ++ (a.used? c).toList) (a.answer c).2 := by
  obtain ⟨-, ⟨hnone, ha, -⟩ | ⟨name, hused, hcapacity, hthreads, -⟩⟩ := answer_cases h.capacity c
  · rw [hnone, ha, Option.toList_none, List.append_nil]
    exact h
  · refine ⟨hcapacity, ?_⟩
    have hnames : (a.answer c).2.names = (a.touch name (c.entriesFor name)).names.rtake n := by
      rw [Archive.names, Archive.names, hthreads, List.rtake, List.rtake, List.map_drop, List.length_map]
    rw [hnames, names_touch, h.names, rtake_filter_rtake (List.nodup_dedup used), hused,
      Option.toList_some, dedup_concat]

/-- After any calls an archive holds the threads that were used last. The induction is on the calls. -/
theorem recent_after (source : NameSource) (n : Nat) (calls : List Call) :
    Recent n ((empty source n).uses calls) ((empty source n).after calls) := by
  induction calls using List.reverseRecOn with
  | nil => exact ⟨rfl, by simp [names, empty, after, uses]⟩
  | append_singleton calls c ih =>
    rw [after_concat, uses_concat]
    exact ih.answer c

/-- A thread that is held after a call has what it had before and what the call appends. -/
theorem Recent.get_answer {used : List String} (h : Recent n used a) {c : Call}
    (hname : name ∈ (a.answer c).2.names) :
    (a.answer c).2.get name = a.get name ++ c.entriesFor name := by
  obtain ⟨-, ⟨-, ha, hentries⟩ | ⟨user, -, -, hthreads, hentries⟩⟩ := answer_cases h.capacity c
  · rw [ha, hentries, List.append_nil]
  · have htouched : (a.touch user (c.entriesFor user)).names.Nodup := by
      rw [names_touch]
      refine List.nodup_append.mpr ⟨h.nodup.filter _, List.nodup_singleton _, ?_⟩
      intro x hx y hy
      rw [List.mem_singleton.mp hy]
      simpa using (List.mem_filter.mp hx).2
    have hkept : name ∈ ((a.touch user (c.entriesFor user)).threads.rtake n).map Prod.fst := by
      rw [← hthreads]
      exact hname
    have hget : (a.answer c).2.get name = (a.touch user (c.entriesFor user)).get name := by
      have hsame := get_rtake (a := a) htouched hkept
      unfold get at hsame ⊢
      rw [hthreads]
      exact hsame
    rw [hget, get_touch]
    by_cases hself : name = user
    · rw [if_pos hself, hself]
    · rw [if_neg hself, hentries name hself, List.append_nil]

/-- A thread that is held has what was appended to it since it was last absent. -/
theorem exists_lastAbsent (source : NameSource) (n : Nat) (calls : List Call) {name : String}
    (hname : name ∈ ((empty source n).after calls).names) :
    ∃ before since, calls = before ++ since ∧ LastAbsent (empty source n) name before since ∧
      ((empty source n).after calls).get name = since.flatMap (Call.entriesFor name) := by
  induction calls using List.reverseRecOn with
  | nil => simp [names, empty, after] at hname
  | append_singleton calls c ih =>
    have hrecent := recent_after source n calls
    have hheld := hname
    rw [after_concat] at hname
    have hget := hrecent.get_answer hname
    by_cases hold : name ∈ ((empty source n).after calls).names
    · obtain ⟨before, since, hcalls, hlast, hentries⟩ := ih hold
      refine ⟨before, since ++ [c], by rw [hcalls, List.append_assoc], ⟨hlast.absent, ?_⟩, ?_⟩
      · intro more hmore hne
        rcases List.prefix_concat_iff.mp hmore with hall | hearlier
        · rw [hall, ← List.append_assoc, ← hcalls]
          exact hheld
        · exact hlast.present more hearlier hne
      · rw [after_concat, hget, hentries, List.flatMap_append]
        simp
    · refine ⟨calls, [c], rfl, ⟨hold, ?_⟩, ?_⟩
      · intro more hmore hne
        have hall : more = [c] := by
          obtain ⟨rest, hrest⟩ := hmore
          cases more with
          | nil => exact absurd rfl hne
          | cons first more =>
            obtain ⟨rfl, hnil⟩ := List.cons.inj hrest
            rw [(List.append_eq_nil_iff.mp hnil).1]
        rw [hall]
        exact hheld
      · rw [after_concat, hget, get_of_not_mem hold]
        simp

/-- After any calls on an archive that held nothing: no call fails, and a thread is created under the
name that was given. The threads that are held are the last ones of those used, as many as fit, in the
order of their last use. A thread that is held has the entries that were appended since it was last
absent, in order; any other thread has none. -/
theorem after_recent (source : NameSource) (n : Nat) (calls : List Call) :
    (∀ c, ∃ x, (((empty source n).after calls).answer c).1 = .ok x) ∧
    (∀ name, name ≠ "" →
      (((empty source n).after calls).answer (.create (some name))).1 = .ok (.created name)) ∧
    ((empty source n).after calls).names.length ≤ n ∧
    ((empty source n).after calls).names = ((empty source n).uses calls).dedup.rtake n ∧
    ∀ name,
      (name ∈ ((empty source n).after calls).names →
        ∃ before since, calls = before ++ since ∧ LastAbsent (empty source n) name before since ∧
          (((empty source n).after calls).answer (.get name)).1 =
            .ok (.held (since.flatMap (Call.entriesFor name)))) ∧
      (name ∉ ((empty source n).after calls).names →
        (((empty source n).after calls).answer (.get name)).1 = .ok (.held [])) := by
  have hrecent := recent_after source n calls
  refine ⟨fun c => (answer_cases hrecent.capacity c).1, fun name hne => ?_, ?_, hrecent.names,
    fun name => ⟨fun hname => ?_, fun hname => ?_⟩⟩
  · obtain ⟨created, drawn, hgiven, hcreate⟩ := create_eq hrecent.capacity (some name)
    obtain rfl : created = name := hgiven name rfl hne
    unfold answer
    dsimp only
    rw [hcreate]
    rfl
  · rw [hrecent.names, List.rtake, List.length_drop]
    omega
  · obtain ⟨before, since, hcalls, hlast, hget⟩ := exists_lastAbsent source n calls hname
    rw [answer_get, hget]
    exact ⟨before, since, hcalls, hlast, rfl⟩
  · rw [answer_get, get_of_not_mem hname]

end Archive

end MeetDesk
