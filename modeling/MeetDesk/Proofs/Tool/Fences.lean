import MeetDesk.Tool.Call

/-!
# Fences and blanks

Where a text is cut at its fences, and what is left of it without the blanks at its ends. A text
without a fence is one piece; a piece ends at the first fence behind it.
-/

namespace MeetDesk

namespace Text

/-- A text that is not empty and has no blank at its ends. -/
structure Solid (s : List Char) : Prop where
  first : ∃ c, s.head? = some c ∧ isBlank c = false
  last : ∃ c, s.getLast? = some c ∧ isBlank c = false

theorem dropWhile_append_of_head {p : Char → Bool} {d : List Char} {c : Char}
    (hd : d.head? = some c) (hc : p c = false) (a : List Char) :
    (a ++ d).dropWhile p = a.dropWhile p ++ d := by
  obtain ⟨t, rfl⟩ := List.head?_eq_some_iff.mp hd
  have hstop : (c :: t).dropWhile p = c :: t := List.dropWhile_cons_of_neg (by simp [hc])
  rw [List.dropWhile_append]
  split
  · rename_i hempty
    rw [List.isEmpty_iff] at hempty
    rw [hstop, hempty, List.nil_append]
  · rfl

/-- What is trimmed around something solid is trimmed on both sides of it. -/
theorem trim_append {d : List Char} (hd : Solid d) (a b : List Char) :
    trim (a ++ d ++ b) =
      a.dropWhile isBlank ++ d ++ (b.reverse.dropWhile isBlank).reverse := by
  obtain ⟨c, hfirst, hc⟩ := hd.first
  obtain ⟨e, hlast, he⟩ := hd.last
  have hfront : (a ++ (d ++ b)).dropWhile isBlank = a.dropWhile isBlank ++ (d ++ b) :=
    dropWhile_append_of_head (by rw [List.head?_append, hfirst]; rfl) hc a
  have hback : (b.reverse ++ (d.reverse ++ (a.dropWhile isBlank).reverse)).dropWhile isBlank =
      b.reverse.dropWhile isBlank ++ (d.reverse ++ (a.dropWhile isBlank).reverse) :=
    dropWhile_append_of_head (by rw [List.head?_append, List.head?_reverse, hlast]; rfl) he _
  rw [trim, trimBy, List.append_assoc, hfront]
  rw [show (a.dropWhile isBlank ++ (d ++ b)).reverse =
    b.reverse ++ (d.reverse ++ (a.dropWhile isBlank).reverse) by simp, hback]
  simp

/-- Blanks around something solid are trimmed. -/
theorem trim_blanks {d : List Char} (hd : Solid d) {a b : List Char}
    (ha : a.all isBlank = true) (hb : b.all isBlank = true) : trim (a ++ d ++ b) = d := by
  rw [List.all_eq_true] at ha hb
  have hall : ∀ s : List Char, (∀ c ∈ s, isBlank c = true) → s.dropWhile isBlank = [] := by
    intro s hs
    rw [← List.append_nil s, List.dropWhile_append_of_pos hs, List.dropWhile_nil]
  have hfront := hall a ha
  have hback := hall b.reverse fun c hc => hb c (List.mem_reverse.mp hc)
  rw [trim_append hd, hfront, hback]
  simp

/-- A trimmed text is a part of the text. -/
theorem trim_isInfix (s : List Char) : trim s <:+: s := by
  have hfront : s.dropWhile isBlank <:+ s := List.dropWhile_suffix _
  have hback : (s.dropWhile isBlank).reverse.dropWhile isBlank <:+ (s.dropWhile isBlank).reverse :=
    List.dropWhile_suffix _
  have hprefix : trim s <+: s.dropWhile isBlank := by
    rw [← List.reverse_suffix, trim, trimBy, List.reverse_reverse]
    exact hback
  exact hprefix.isInfix.trans hfront.isInfix

end Text

namespace ToolCall

/-! ## Where a fence is -/

/-- A character other than a backquote keeps fences apart. -/
theorem fence_infix_append_cons {a b : List Char} {c : Char} (hc : c ≠ '\x60')
    (h : fence <:+: a ++ c :: b) : fence <:+: a ∨ fence <:+: b := by
  induction a with
  | nil =>
    rcases List.infix_cons_iff.mp h with h | h
    · obtain ⟨t, ht⟩ := h
      exact absurd (List.cons.inj ht).1.symm hc
    · exact Or.inr h
  | cons x a ih =>
    rcases List.infix_cons_iff.mp h with h | h
    · left
      obtain ⟨t, ht⟩ := h
      cases a with
      | nil =>
        have h2 := (List.cons.inj (List.cons.inj ht).2).1
        exact absurd h2.symm hc
      | cons y a =>
        cases a with
        | nil =>
          have h3 := (List.cons.inj (List.cons.inj (List.cons.inj ht).2).2).1
          exact absurd h3.symm hc
        | cons z a =>
          simp only [fence, List.cons_append, List.cons.injEq] at ht
          obtain ⟨rfl, rfl, rfl, -⟩ := ht
          exact ⟨[], a, rfl⟩
    · rcases ih h with h | h
      · exact Or.inl (List.infix_cons h)
      · exact Or.inr h

/-- A text with fewer backquotes than a fence has none. -/
theorem not_fence_infix_of_count {s : List Char} (h : s.count '\x60' < 3) : ¬fence <:+: s := by
  intro hfound
  have hle := hfound.sublist.count_le '\x60'
  have hfence : fence.count '\x60' = 3 := by decide
  omega

/-! ## Where a text is cut -/

theorem splitFences_ne_nil (s : List Char) : splitFences s ≠ [] := by
  fun_cases splitFences s <;> simp_all

/-- A text without a fence is one piece. -/
theorem splitFences_of_no_fence {s : List Char} (h : ¬fence <:+: s) : splitFences s = [s] := by
  fun_induction splitFences s with
  | case1 => rfl
  | case2 rest => exact absurd ⟨[], rest, rfl⟩ h
  | case3 c rest _ hnil => exact absurd hnil (splitFences_ne_nil rest)
  | case4 c rest _ piece more hmore ih =>
    have hrest := ih fun hfound => h (List.infix_cons hfound)
    rw [hmore] at hrest
    obtain ⟨rfl, rfl⟩ := List.cons.inj hrest
    rfl

/-- A piece ends at the first fence behind it. -/
theorem splitFences_append {s : List Char} (h : ¬fence <:+: s ++ ['\x60', '\x60'])
    (rest : List Char) : splitFences (s ++ (fence ++ rest)) = s :: splitFences rest := by
  induction s with
  | nil => rfl
  | cons c s ih =>
    have htail := ih fun hfound => h (List.infix_cons hfound)
    have hother : ∀ t, c = '\x60' → s ++ (fence ++ rest) = '\x60' :: '\x60' :: t → False := by
      rintro t rfl ht
      apply h
      cases s with
      | nil => exact ⟨[], [], rfl⟩
      | cons d s =>
        cases s with
        | nil =>
          obtain ⟨rfl, -⟩ := List.cons.inj ht
          exact ⟨[], ['\x60'], rfl⟩
        | cons e s =>
          simp only [List.cons_append, List.cons.injEq] at ht
          obtain ⟨rfl, rfl, -⟩ := ht
          exact ⟨[], s ++ ['\x60', '\x60'], rfl⟩
    rw [List.cons_append, splitFences.eq_3 _ _ hother, htail]

/-- The text between the first two fences is the first block. -/
theorem blocks_append {p block : List Char} (hp : '\x60' ∉ p)
    (hblock : ¬fence <:+: block ++ ['\x60', '\x60']) (s : List Char) :
    ∃ more, blocks (p ++ (fence ++ (block ++ (fence ++ s)))) =
      Text.trim (dropTag block) :: more := by
  have hcount : (p ++ ['\x60', '\x60']).count '\x60' < 3 := by
    rw [List.count_append, List.count_eq_zero_of_not_mem hp]
    decide
  obtain ⟨next, rest, hrest⟩ := List.exists_cons_of_ne_nil (splitFences_ne_nil s)
  refine ⟨(fenced (next :: rest)).map fun block => Text.trim (dropTag block), ?_⟩
  rw [blocks, splitFences_append (not_fence_infix_of_count hcount), splitFences_append hblock, hrest]
  rfl

/-- A text without a fence has no block. -/
theorem blocks_of_no_fence {s : List Char} (h : ¬fence <:+: s) : blocks s = [] := by
  rw [blocks, splitFences_of_no_fence h]
  rfl

end ToolCall

end MeetDesk
