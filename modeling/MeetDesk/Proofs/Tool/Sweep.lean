import MeetDesk.Proofs.Tool.Soundness

/-!
# The search through prose

The search for objects in prose goes from one opening brace to the next. Where a brace starts no object,
it goes on behind the brace; where it starts one, it goes on behind the object. A turn of the search gets
past a brace in either case, so that no search takes more turns than the text has braces.

What a search has found lies in the text as spans that do not meet, and it accounts for all the braces
that are behind the search: a brace starts an object that was found, stands inside of one, or starts
nothing that is well formed. Only one list of spans accounts for all the braces of a text.
-/

namespace MeetDesk

open Json (Limit Scan)

/-! ## Objects start with a brace -/

theorem Json.readFields_object {element : List Char → Scan Value} {rounds : Nat} {s rest : List Char}
    {done : Fields} {v : Value} (h : Json.readFields element rounds s done = .ok (v, rest)) :
    ∃ fields, v = .object fields := by
  induction rounds generalizing s done with
  | zero => cases h
  | succ rounds ih =>
    unfold Json.readFields at h
    split at h
    · split at h
      · cases h
      · split at h
        · split at h
          · cases h
          · split at h
            · obtain ⟨rfl, -⟩ := Prod.mk.inj (Except.ok.inj h)
              exact ⟨_, rfl⟩
            · exact ih h
            · cases h
        · cases h
    · cases h

/-- What an opening brace starts is an object. -/
theorem Json.readValue_brace {rounds depth : Nat} {s rest : List Char} {v : Value}
    (h : Json.readValue rounds depth ('\x7b' :: s) = .ok (v, rest)) : ∃ fields, v = .object fields := by
  cases depth with
  | zero => cases h
  | succ depth =>
    have hobject : Json.readObject (Json.readValue rounds depth) rounds s = .ok (v, rest) := h
    unfold Json.readObject at hobject
    split at hobject
    · obtain ⟨rfl, -⟩ := Prod.mk.inj (Except.ok.inj hobject)
      exact ⟨[], rfl⟩
    · exact Json.readFields_object hobject

namespace ToolCall

/-! ## Turns -/

/-- An object in a text: where it starts, where it stops, and what it is. -/
structure Span where
  /-- The position of its opening brace. -/
  start : Nat
  /-- The position behind its closing brace. -/
  stop : Nat
  /-- The object. -/
  value : Value

/-- Where a search stands. -/
structure Sweep where
  /-- The objects that were found so far. -/
  found : List Span
  /-- The position from which the search goes on. -/
  position : Nat

/-- A brace opens at a position of a text. -/
def Opens (text : List Char) (i : Nat) : Prop := text[i]? = some '\x7b'

/-- What is read from a position on. -/
def attempt (levels : Nat) (text : List Char) (i : Nat) : Scan Value :=
  Json.readFront levels text.length (text.drop i)

/-- The first brace that opens at a position or behind it. -/
structure NextBrace (text : List Char) (position i : Nat) : Prop where
  behind : position ≤ i
  opens : Opens text i
  first : ∀ j, position ≤ j → j < i → ¬Opens text j

/-- One turn of a search, at the next brace. -/
inductive Turn (levels : Nat) (text : List Char) : Sweep → Sweep → Prop
  /-- The brace starts nothing that is well formed. -/
  | pass {found : List Span} {position i : Nat} {flaw : Json.Flaw} {rest : List Char}
      (hbrace : NextBrace text position i) (hread : attempt levels text i = .error (.malformed flaw rest)) :
      Turn levels text ⟨found, position⟩ ⟨found, i + 1⟩
  /-- The brace starts an object. -/
  | take {found : List Span} {position i stop : Nat} {value : Value} (hbrace : NextBrace text position i)
      (hstop : stop ≤ text.length) (hread : attempt levels text i = .ok (value, text.drop stop)) :
      Turn levels text ⟨found, position⟩ ⟨found ++ [⟨i, stop, value⟩], stop⟩

/-- A number of turns, one after the other. -/
inductive Turns (levels : Nat) (text : List Char) : Nat → Sweep → Sweep → Prop
  | none (s : Sweep) : Turns levels text 0 s s
  | turn {n : Nat} {s s' s'' : Sweep} (h : Turn levels text s s') (rest : Turns levels text n s' s'') :
      Turns levels text (n + 1) s s''

/-- Where every search starts. -/
def Sweep.start : Sweep := ⟨[], 0⟩

/-! ## What is found accounts for the braces -/

/-- A span holds an object of the text: its brace opens there, what is read from there is the object and
ends where the span stops, and the characters of the span are a document of their own. -/
structure Span.Holds (levels : Nat) (text : List Char) (span : Span) : Prop where
  opens : Opens text span.start
  forward : span.start < span.stop
  within : span.stop ≤ text.length
  decodes : attempt levels text span.start = .ok (span.value, text.drop span.stop)
  document : Json.read levels ((text.drop span.start).take (span.stop - span.start)) = .ok span.value
  isObject : ∃ fields, span.value = .object fields

/-- Spans account for a brace: it starts one of them, stands strictly inside of one, or starts nothing
that is well formed. -/
def Accounts (levels : Nat) (text : List Char) (spans : List Span) (i : Nat) : Prop :=
  (∃ span ∈ spans, span.start = i) ∨ (∃ span ∈ spans, span.start < i ∧ i < span.stop) ∨
    ∃ flaw rest, attempt levels text i = .error (.malformed flaw rest)

/-- Spans are laid out over a text: they hold objects, each one starts where the one before it has
stopped or later, and they account for all the braces. -/
structure LaidOut (levels : Nat) (text : List Char) (spans : List Span) : Prop where
  holds : ∀ span ∈ spans, span.Holds levels text
  apart : spans.Pairwise fun before after => before.stop ≤ after.start
  accounts : ∀ i, Opens text i → Accounts levels text spans i

/-- What a search maintains: it has found objects that do not meet, and they account for all the braces
behind it. -/
structure Sweep.Inv (levels : Nat) (text : List Char) (s : Sweep) : Prop where
  holds : ∀ span ∈ s.found, span.Holds levels text
  apart : s.found.Pairwise fun before after => before.stop ≤ after.start
  behind : ∀ span ∈ s.found, span.stop ≤ s.position
  within : s.position ≤ text.length
  accounts : ∀ i, i < s.position → Opens text i → Accounts levels text s.found i

/-- How a search ends: with no brace ahead, or at a brace from which on a limit is exceeded. -/
inductive Ends (levels : Nat) (text : List Char) (s : Sweep) : Except Limit (List Value) → Prop
  | done (h : ∀ i, s.position ≤ i → ¬Opens text i) : Ends levels text s (.ok (s.found.map Span.value))
  | beyond {i : Nat} {limit : Limit} (hbrace : NextBrace text s.position i)
      (hread : attempt levels text i = .error (.beyond limit)) : Ends levels text s (.error limit)

section Text

variable {levels : Nat} {text : List Char}

theorem Opens.lt_length {i : Nat} (h : Opens text i) : i < text.length :=
  (List.getElem?_eq_some_iff.mp h).1

/-- The text from an opening brace on. -/
theorem Opens.drop {i : Nat} (h : Opens text i) : text.drop i = '\x7b' :: text.drop (i + 1) := by
  obtain ⟨hlt, hbrace⟩ := List.getElem?_eq_some_iff.mp h
  rw [List.drop_eq_getElem_cons hlt, hbrace]

/-- An object that is read where a brace opens is held by a span. -/
theorem holds_of_attempt {i stop : Nat} {value : Value} (hopens : Opens text i)
    (hstop : stop ≤ text.length) (hread : attempt levels text i = .ok (value, text.drop stop)) :
    Span.Holds levels text ⟨i, stop, value⟩ := by
  have hlt := hopens.lt_length
  have hfront := hread
  unfold attempt at hfront
  have hconsumed := Json.consumes_readFront _ _ _ _ _ hfront
  simp only [List.length_drop] at hconsumed
  have hforward : i < stop := by omega
  rw [hopens.drop] at hfront
  obtain ⟨piece, hsplit, hdocument⟩ := Json.exists_document_of_readFront hfront
  rw [← hopens.drop] at hsplit
  have hlength : piece.length = stop - i := by
    have := congrArg List.length hsplit
    simp only [List.length_append, List.length_drop] at this
    omega
  refine ⟨hopens, hforward, hstop, hread, ?_, Json.readValue_brace hfront⟩
  dsimp only
  rw [hsplit, ← hlength, List.take_left]
  exact hdocument

theorem Accounts.mono {spans more : List Span} {i : Nat} (h : Accounts levels text spans i) :
    Accounts levels text (spans ++ more) i := by
  rcases h with ⟨span, hmem, hspan⟩ | ⟨span, hmem, hspan⟩ | hflaw
  · exact .inl ⟨span, List.mem_append_left _ hmem, hspan⟩
  · exact .inr (.inl ⟨span, List.mem_append_left _ hmem, hspan⟩)
  · exact .inr (.inr hflaw)

/-! ## The invariant -/

/-- The sweep starts with nothing found and nothing behind it. -/
theorem inv_start : Sweep.start.Inv levels text where
  holds := by simp [Sweep.start]
  apart := .nil
  behind := by simp [Sweep.start]
  within := Nat.zero_le _
  accounts := by simp [Sweep.start]

/-- A turn maintains the invariant. -/
theorem Turn.inv {s s' : Sweep} (h : Turn levels text s s') (hs : s.Inv levels text) :
    s'.Inv levels text := by
  cases h with
  | @pass found position i flaw rest hbrace hread =>
    refine ⟨hs.holds, hs.apart, fun span hspan => ?_, hbrace.opens.lt_length, fun j hj hopens => ?_⟩
    · have hstop := hs.behind span hspan
      have hnext := hbrace.behind
      dsimp only at hstop ⊢
      omega
    · rcases Nat.lt_or_ge j position with hold | hnew
      · exact hs.accounts j hold hopens
      rcases Nat.lt_or_eq_of_le (Nat.le_of_lt_succ hj) with hskipped | rfl
      · exact absurd hopens (hbrace.first j hnew hskipped)
      · exact .inr (.inr ⟨flaw, rest, hread⟩)
  | @take found position i stop value hbrace hstop hread =>
    have hnew := holds_of_attempt hbrace.opens hstop hread
    have hforward : i < stop := hnew.forward
    have hbehind : ∀ span ∈ found, span.stop ≤ i := fun span hspan =>
      (hs.behind span hspan).trans hbrace.behind
    refine ⟨?_, ?_, ?_, hstop, fun j hj hopens => ?_⟩
    · intro span hspan
      rcases List.mem_append.mp hspan with hspan | hspan
      · exact hs.holds span hspan
      · obtain rfl := List.mem_singleton.mp hspan
        exact hnew
    · refine List.pairwise_append.mpr ⟨hs.apart, List.pairwise_singleton _ _, ?_⟩
      intro span hspan after hafter
      obtain rfl := List.mem_singleton.mp hafter
      exact hbehind span hspan
    · intro span hspan
      rcases List.mem_append.mp hspan with hspan | hspan
      · exact (hbehind span hspan).trans hforward.le
      · obtain rfl := List.mem_singleton.mp hspan
        exact Nat.le_refl _
    · rcases Nat.lt_or_ge j position with hold | hbetween
      · exact (hs.accounts j hold hopens).mono
      rcases Nat.lt_trichotomy j i with hskipped | rfl | hinside
      · exact absurd hopens (hbrace.first j hbetween hskipped)
      · exact .inl ⟨_, List.mem_concat_self, rfl⟩
      · exact .inr (.inl ⟨_, List.mem_concat_self, hinside, hj⟩)

/-- The invariant holds after any number of turns. -/
theorem Turns.inv {n : Nat} {s s' : Sweep} (h : Turns levels text n s s') (hs : s.Inv levels text) :
    s'.Inv levels text := by
  induction h with
  | none => exact hs
  | turn hturn _ ih => exact ih (hturn.inv hs)

/-- When no brace is left, what was found is laid out over the text. -/
theorem Sweep.Inv.laidOut {s : Sweep} (hs : s.Inv levels text)
    (hend : ∀ i, s.position ≤ i → ¬Opens text i) : LaidOut levels text s.found where
  holds := hs.holds
  apart := hs.apart
  accounts i hopens := by
    rcases Nat.lt_or_ge i s.position with hbehind | hahead
    · exact hs.accounts i hbehind hopens
    · exact absurd hopens (hend i hahead)

/-! ## Termination -/

/-- The braces that are still ahead of a search. -/
def Sweep.ahead (text : List Char) (s : Sweep) : Nat := (text.drop s.position).count '\x7b'

/-- A search that gets past a brace has fewer of them ahead. -/
theorem count_drop_lt {position i next : Nat} (hbehind : position ≤ i) (hopens : Opens text i)
    (hnext : i < next) : (text.drop next).count '\x7b' < (text.drop position).count '\x7b' := by
  have hrest : (text.drop next).count '\x7b' ≤ (text.drop (i + 1)).count '\x7b' :=
    (List.drop_sublist_drop_left text hnext).count_le _
  have hbrace : (text.drop i).count '\x7b' = (text.drop (i + 1)).count '\x7b' + 1 := by
    rw [hopens.drop, List.count_cons_self]
  have hskipped : (text.drop i).count '\x7b' ≤ (text.drop position).count '\x7b' :=
    (List.drop_sublist_drop_left text hbehind).count_le _
  omega

/-- A turn leaves less text ahead. -/
theorem Turn.ahead_lt {s s' : Sweep} (h : Turn levels text s s') : s'.ahead text < s.ahead text := by
  cases h with
  | pass hbrace => exact count_drop_lt hbrace.behind hbrace.opens (Nat.lt_succ_self _)
  | take hbrace hstop hread =>
    exact count_drop_lt hbrace.behind hbrace.opens (holds_of_attempt hbrace.opens hstop hread).forward

/-- There are no more turns than characters ahead. -/
theorem Turns.length_le {n : Nat} {s s' : Sweep} (h : Turns levels text n s s') :
    n + s'.ahead text ≤ s.ahead text := by
  induction h with
  | none => simp
  | turn hturn _ ih =>
    have := hturn.ahead_lt
    omega

/-! ## The search makes these turns -/

/-- Where the search finds a brace in what is left of the text, the next brace opens, and it reads what
stands from there on. -/
theorem nextBrace_of_dropWhile {position : Nat} {left : List Char} (hleft : text.drop position = left)
    {brace : Char} {rest : List Char} (h : left.dropWhile (· != '\x7b') = brace :: rest) :
    ∃ i, NextBrace text position i ∧
      attempt levels text i = Json.readFront levels text.length (brace :: rest) ∧
      text.drop (i + 1) = rest := by
  subst hleft
  have hsplit := List.takeWhile_append_dropWhile (p := (· != '\x7b')) (l := text.drop position)
  have hbrace := List.head?_dropWhile_not (· != '\x7b') (text.drop position)
  rw [h] at hsplit hbrace
  obtain rfl : brace = '\x7b' := by simpa using hbrace
  generalize hskipped : (text.drop position).takeWhile (· != '\x7b') = skipped at hsplit
  have hno : ∀ c ∈ skipped, c ≠ '\x7b' := by
    intro c hc
    rw [← hskipped] at hc
    simpa using List.mem_takeWhile_imp hc
  have hdrop : text.drop (position + skipped.length) = '\x7b' :: rest := by
    rw [← List.drop_drop, ← hsplit, List.drop_left]
  refine ⟨position + skipped.length, ⟨Nat.le_add_right _ _, ?_, ?_⟩, by rw [attempt, hdrop], ?_⟩
  · rw [Opens, ← List.head?_drop, hdrop]
    rfl
  · intro j hge hlt hopens
    have hinside : (skipped ++ '\x7b' :: rest)[j - position]? = skipped[j - position]? :=
      List.getElem?_append_left (by omega)
    have hat : skipped[j - position]? = some '\x7b' := by
      rw [← hinside, hsplit, List.getElem?_drop, Nat.add_sub_cancel' hge]
      exact hopens
    exact hno _ (List.mem_of_getElem? hat) rfl
  · rw [← List.drop_drop, hdrop]
    rfl

/-- An object that is read at the next brace takes the search on by a turn. -/
theorem turn_of_attempt {s : Sweep} {i : Nat} {value : Value} {left : List Char}
    (hbrace : NextBrace text s.position i) (hread : attempt levels text i = .ok (value, left)) :
    ∃ stop, Turn levels text s ⟨s.found ++ [⟨i, stop, value⟩], stop⟩ ∧ text.drop stop = left := by
  have hlt := hbrace.opens.lt_length
  have hfront := hread
  rw [attempt, hbrace.opens.drop] at hfront
  obtain ⟨piece, hsplit, -⟩ := Json.exists_document_of_readFront hfront
  rw [← hbrace.opens.drop] at hsplit
  have hleft : text.drop (i + piece.length) = left := by
    rw [← List.drop_drop, hsplit, List.drop_left]
  have hlength := congrArg List.length hsplit
  simp only [List.length_append, List.length_drop] at hlength
  refine ⟨i + piece.length, .take hbrace (by omega) ?_, hleft⟩
  rw [hread, hleft]

/-- The search makes turns until it ends, and what it returns is what they have found. The induction is
on the search, from wherever it stands. -/
theorem embedded_turns (s : Sweep) {rest : List Char} (hrest : text.drop s.position = rest) :
    ∃ n s', Turns levels text n s s' ∧
      Ends levels text s' ((embedded levels text.length rest).map (s.found.map Span.value ++ ·)) := by
  fun_induction embedded levels text.length rest generalizing s with
  | case1 rest hnone =>
    refine ⟨0, s, .none s, ?_⟩
    rw [Except.map, List.append_nil]
    refine .done fun i hi hopens => ?_
    have hbrace : '\x7b' ∈ rest := by
      rw [← hrest]
      refine List.mem_of_getElem? (i := i - s.position) ?_
      rw [List.getElem?_drop, Nat.add_sub_cancel' hi]
      exact hopens
    have := List.dropWhile_eq_nil_iff.mp hnone _ hbrace
    simp at this
  | case2 rest' brace rest hs flaw left hr ih =>
    obtain ⟨i, hbrace, hread, hbehind⟩ := nextBrace_of_dropWhile hrest hs
    obtain ⟨n, s', hturns, hends⟩ := ih ⟨s.found, i + 1⟩ hbehind
    exact ⟨n + 1, s', .turn (.pass hbrace (hread.trans hr)) hturns, hends⟩
  | case3 rest' brace rest hs limit hr =>
    obtain ⟨i, hbrace, hread, -⟩ := nextBrace_of_dropWhile hrest hs
    exact ⟨0, s, .none s, .beyond hbrace (hread.trans hr)⟩
  | case4 rest' brace rest hs value left hr limit hlimit ih =>
    obtain ⟨i, hbrace, hread, -⟩ := nextBrace_of_dropWhile hrest hs
    obtain ⟨stop, hturn, hleft⟩ := turn_of_attempt hbrace (hread.trans hr)
    obtain ⟨n, s', hturns, hends⟩ := ih ⟨_, stop⟩ hleft
    rw [hlimit] at hends
    exact ⟨n + 1, s', .turn hturn hturns, hends⟩
  | case5 rest' brace rest hs value left hr more hmore ih =>
    obtain ⟨i, hbrace, hread, -⟩ := nextBrace_of_dropWhile hrest hs
    obtain ⟨stop, hturn, hleft⟩ := turn_of_attempt hbrace (hread.trans hr)
    obtain ⟨n, s', hturns, hends⟩ := ih ⟨s.found ++ [⟨i, stop, value⟩], stop⟩ hleft
    have hvalues : (s.found ++ [Span.mk i stop value]).map Span.value ++ more =
        s.found.map Span.value ++ value :: more := by
      simp
    rw [hmore, Except.map, hvalues] at hends
    exact ⟨n + 1, s', .turn hturn hturns, hends⟩

/-! ## One layout -/

/-- The spans of a layout stand in increasing order. -/
theorem LaidOut.increasing {spans : List Span} (h : LaidOut levels text spans) :
    spans.Pairwise fun before after => before.start < after.start :=
  h.apart.imp_of_mem fun {before _} hbefore _ hapart =>
    Nat.lt_of_lt_of_le (h.holds before hbefore).forward hapart

theorem LaidOut.nodup {spans : List Span} (h : LaidOut levels text spans) : spans.Nodup := by
  refine h.increasing.imp ?_
  rintro before after hlt rfl
  exact Nat.lt_irrefl _ hlt

/-- No span of a layout starts inside of another. -/
theorem LaidOut.not_inside {spans : List Span} (h : LaidOut levels text spans) {span other : Span}
    (hspan : span ∈ spans) (hother : other ∈ spans) (hbefore : other.start < span.start) :
    other.stop ≤ span.start := by
  obtain ⟨i, hi, rfl⟩ := List.getElem_of_mem hspan
  obtain ⟨j, hj, rfl⟩ := List.getElem_of_mem hother
  rcases Nat.lt_trichotomy j i with hlt | rfl | hgt
  · exact List.pairwise_iff_getElem.mp h.apart j i hj hi hlt
  · exact absurd hbefore (Nat.lt_irrefl _)
  · have := List.pairwise_iff_getElem.mp h.increasing i j hi hj hgt
    omega

/-- Spans that hold what is read from the same position are the same. -/
theorem Span.Holds.ext {span other : Span} (h : span.Holds levels text) (h' : other.Holds levels text)
    (hstart : other.start = span.start) : other = span := by
  have hread := h'.decodes
  rw [hstart, h.decodes] at hread
  obtain ⟨hvalue, hrest⟩ := Prod.mk.inj (Except.ok.inj hread)
  have hlength := congrArg List.length hrest
  simp only [List.length_drop] at hlength
  have hwithin := h.within
  have hwithin' := h'.within
  have hstop : other.stop = span.stop := by omega
  obtain ⟨start, stop, value⟩ := other
  rw [Span.mk.injEq]
  exact ⟨hstart, hstop, hvalue.symm⟩

/-- A span of one layout is a span of every other. Otherwise its brace would stand inside of a span that
starts further left, and that one is a span of both. -/
theorem LaidOut.mem_of_mem {spans others : List Span} (h : LaidOut levels text spans)
    (h' : LaidOut levels text others) {span : Span} (hspan : span ∈ spans) : span ∈ others := by
  have hholds := h.holds span hspan
  rcases h'.accounts span.start hholds.opens with
    ⟨other, hother, hstart⟩ | ⟨other, hother, hbefore, hinside⟩ | ⟨flaw, rest, hmalformed⟩
  · obtain rfl := hholds.ext (h'.holds other hother) hstart
    exact hother
  · have hboth := h'.mem_of_mem h hother
    exact absurd hinside (Nat.not_lt.mpr (h.not_inside hspan hboth hbefore))
  · rw [hholds.decodes] at hmalformed
    cases hmalformed
termination_by span.start

/-- A text has one layout. -/
theorem LaidOut.unique {spans others : List Span} (h : LaidOut levels text spans)
    (h' : LaidOut levels text others) : spans = others := by
  have hperm : spans.Perm others := (List.perm_ext_iff_of_nodup h.nodup h'.nodup).mpr
    fun _ => ⟨h.mem_of_mem h', h'.mem_of_mem h⟩
  refine hperm.eq_of_pairwise ?_ h.increasing h'.increasing
  intro a b _ _ hlt hgt
  omega

/-! ## The search -/

/-- The search of a text takes at most as many turns as the text has braces. It ends with the objects
of the only layout of the text, from left to right, or at a brace from which on a limit is exceeded, with
that limit. -/
theorem embedded_sweeps (levels : Nat) (text : List Char) :
    (∀ n s, Turns levels text n .start s → n ≤ text.count '\x7b') ∧
      ((∃ n s, Turns levels text n .start s ∧ (∀ i, s.position ≤ i → ¬Opens text i) ∧
          LaidOut levels text s.found ∧ (∀ spans, LaidOut levels text spans → spans = s.found) ∧
          embedded levels text.length text = .ok (s.found.map Span.value)) ∨
        ∃ n s i limit, Turns levels text n .start s ∧ NextBrace text s.position i ∧
          attempt levels text i = .error (.beyond limit) ∧
          embedded levels text.length text = .error limit) := by
  refine ⟨fun n s hturns => (Nat.le_add_right n _).trans hturns.length_le, ?_⟩
  obtain ⟨n, s, hturns, hends⟩ := @embedded_turns levels text .start text rfl
  have hmap : (embedded levels text.length text).map (Sweep.start.found.map Span.value ++ ·) =
      embedded levels text.length text := by
    cases embedded levels text.length text <;> rfl
  rw [hmap] at hends
  generalize embedded levels text.length text = result at hends ⊢
  cases hends with
  | done hend =>
    have hlaid := (hturns.inv inv_start).laidOut hend
    exact .inl ⟨n, s, hturns, hend, hlaid, fun spans hspans => hspans.unique hlaid, rfl⟩
  | @beyond i limit hbrace hread => exact .inr ⟨n, s, i, limit, hturns, hbrace, hread, rfl⟩

end Text

/-- A text with a brace that starts nothing, an object with braces inside of it, quoted and not, and an
object that does not end. -/
def unbalanced : List Char := "a \x7b b \x7b\"k\": \"\x7d\x7b\", \"m\": \x7b\x7d\x7d, \x7b\"n\": 1".toList

theorem embedded_sweeps_unbalanced :
    ∃ n s, n ≤ 5 ∧ Turns 984 unbalanced n .start s ∧ LaidOut 984 unbalanced s.found ∧
      embedded 984 unbalanced.length unbalanced = .ok (s.found.map Span.value) ∧
      s.found.map (fun span => span.value.toJson) = ["\x7b\"k\": \"\x7d\x7b\", \"m\": \x7b\x7d\x7d"] := by
  have hvalues : (embedded 984 unbalanced.length unbalanced).toOption.map (·.map Value.toJson) =
      some ["\x7b\"k\": \"\x7d\x7b\", \"m\": \x7b\x7d\x7d"] := by
    decide +kernel
  obtain ⟨hturns, ⟨n, s, hn, -, hlaid, -, hok⟩ | ⟨_, _, _, _, -, -, -, herror⟩⟩ :=
    embedded_sweeps 984 unbalanced
  · rw [hok, Except.toOption, Option.map_some, List.map_map] at hvalues
    exact ⟨n, s, hturns n s hn, hn, hlaid, hok, Option.some.inj hvalues⟩
  · rw [herror] at hvalues
    cases hvalues

end ToolCall

end MeetDesk
