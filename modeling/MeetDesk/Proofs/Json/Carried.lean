import MeetDesk.Json.Reader

/-!
# What a reader leaves

A reader takes characters off the front of a text. A property of texts that survives this is carried
from what the reader is given to what it leaves. Outside of strings no reader takes a backquote, so
the property need not survive the loss of one there.
-/

namespace MeetDesk.Json

/-- The words that stand for values. -/
def words : List (List Char × Value) :=
  [(['n', 'u', 'l', 'l'], .null), (['t', 'r', 'u', 'e'], .bool true),
    (['f', 'a', 'l', 's', 'e'], .bool false), (['N', 'a', 'N'], .float (0 / 0)),
    (['I', 'n', 'f', 'i', 'n', 'i', 't', 'y'], .float (1 / 0)),
    (['-', 'I', 'n', 'f', 'i', 'n', 'i', 't', 'y'], .float (-1 / 0))]

/-- A scalar is a string, a word or a number. -/
theorem readScalar_cases {s rest : List Char} {v : Value} (h : readScalar s = .ok (v, rest)) :
    (∃ tail t, s = '"' :: tail ∧ scanString s tail [] = .ok (t, rest) ∧ v = .text t) ∨
      (∃ word ∈ words, s = word.1 ++ rest ∧ v = word.2) ∨ scanNumber s = .ok (v, rest) := by
  unfold readScalar at h
  split at h
  · split at h
    · cases h
    · rename_i tail _ t _ hscan
      obtain ⟨rfl, rfl⟩ := Prod.mk.inj (Except.ok.inj h)
      exact Or.inl ⟨tail, t, rfl, hscan, rfl⟩
  all_goals first
    | exact Or.inr (Or.inr h)
    | (obtain ⟨rfl, rfl⟩ := Prod.mk.inj (Except.ok.inj h)
       right
       left
       simp [words])

/-- A property of texts that survives the loss of a character other than a backquote, and of a
string. -/
structure Carried (P : List Char → Prop) : Prop where
  drop : ∀ {c : Char} {s : List Char}, c ≠ '\x60' → P (c :: s) → P s
  string : ∀ {whole s rest : List Char} {t : String}, P s →
    scanString whole s [] = .ok (t, rest) → P rest

/-- A reader to which a property is given leaves it. -/
def Carries {α : Type} (P : List Char → Prop) (scan : List Char → Scan α) : Prop :=
  ∀ s a rest, P s → scan s = .ok (a, rest) → P rest

namespace Carried

variable {P : List Char → Prop}

theorem dropWhile (hP : Carried P) {p : Char → Bool} (hp : p '\x60' = false) {s : List Char}
    (h : P s) : P (s.dropWhile p) := by
  induction s with
  | nil => exact h
  | cons c s ih =>
    by_cases hc : p c = true
    · rw [List.dropWhile_cons_of_pos hc]
      refine ih (hP.drop ?_ h)
      rintro rfl
      rw [hp] at hc
      cases hc
    · rw [List.dropWhile_cons_of_neg hc]
      exact h

theorem skipGaps (hP : Carried P) {s : List Char} (h : P s) : P (skipGaps s) :=
  hP.dropWhile (by decide) h

theorem splitDigits (hP : Carried P) {s : List Char} (h : P s) : P (splitDigits s).2 :=
  hP.dropWhile (by decide) h

theorem splitMinus (hP : Carried P) {s : List Char} (h : P s) : P (splitMinus s).2 := by
  unfold Json.splitMinus
  split
  · exact hP.drop (by decide) h
  · exact h

theorem splitWhole? (hP : Carried P) {s whole rest : List Char} (h : P s)
    (hs : splitWhole? s = some (whole, rest)) : P rest := by
  unfold Json.splitWhole? at hs
  split at hs
  · obtain ⟨-, rfl⟩ := Prod.mk.inj (Option.some.inj hs)
    exact hP.drop (by decide) h
  · rename_i c tail _
    split at hs
    · have hrest := hP.splitDigits h
      rw [Option.some.inj hs] at hrest
      exact hrest
    · cases hs
  · cases hs

theorem splitFraction (hP : Carried P) {s : List Char} (h : P s) : P (splitFraction s).2 := by
  unfold Json.splitFraction
  split
  · split
    · exact hP.splitDigits (hP.drop (by decide) h)
    · exact h
  · exact h

theorem splitSign (hP : Carried P) {s : List Char} (h : P s) : P (Decimal.splitSign s).2 := by
  unfold Decimal.splitSign
  split
  · exact hP.drop (by decide) h
  · exact hP.drop (by decide) h
  · exact h

theorem splitExponent (hP : Carried P) {s : List Char} (h : P s) : P (splitExponent s).2 := by
  unfold Json.splitExponent
  split
  · rename_i mark rest
    dsimp only
    split
    · rename_i hmark
      have hne : mark ≠ '\x60' := by
        rintro rfl
        simp at hmark
      exact hP.splitDigits (hP.splitSign (hP.drop hne h))
    · exact h
  · exact h

/-- A number is read up to where the property still holds. -/
theorem scanNumber (hP : Carried P) : Carries P scanNumber := by
  intro s v rest h hs
  unfold Json.scanNumber at hs
  split at hs
  · cases hs
  · rename_i whole left hwhole
    have hleft := hP.splitWhole? (hP.splitMinus h) hwhole
    dsimp only at hs
    split at hs
    · cases hs
    · obtain ⟨-, rfl⟩ := Prod.mk.inj (Except.ok.inj hs)
      exact hP.splitExponent (hP.splitFraction hleft)

/-- A word without a backquote is taken off. -/
theorem word (hP : Carried P) (word : List Char) (hword : '\x60' ∉ word) {s : List Char}
    (h : P (word ++ s)) : P s := by
  induction word with
  | nil => exact h
  | cons c word ih =>
    obtain ⟨hc, hrest⟩ := List.ne_and_not_mem_of_not_mem_cons hword
    exact ih hrest (hP.drop (Ne.symm hc) h)

/-- A scalar is read up to where the property still holds. -/
theorem readScalar (hP : Carried P) : Carries P readScalar := by
  intro s v rest h hs
  rcases readScalar_cases hs with ⟨tail, t, rfl, hscan, -⟩ | ⟨word, hword, rfl, -⟩ | hnumber
  · exact hP.string (hP.drop (by decide) h) hscan
  · have hclean : ∀ word ∈ words, '\x60' ∉ word.1 := by
      simp [words]
    exact hP.word word.1 (hclean word hword) h
  · exact hP.scanNumber _ _ _ h hnumber

/-- Items are read up to where the property still holds, if each of them is. -/
theorem readItems (hP : Carried P) {element : List Char → Scan Value} (he : Carries P element)
    (rounds : Nat) (done : List Value) : Carries P fun s => readItems element rounds s done := by
  intro s v rest h hs
  dsimp only at hs
  induction rounds generalizing s done with
  | zero => cases hs
  | succ rounds ih =>
    unfold Json.readItems at hs
    split at hs
    · cases hs
    · rename_i item left hitem
      have hleft := hP.skipGaps (he _ _ _ h hitem)
      split at hs
      · rename_i hgap
        obtain ⟨-, rfl⟩ := Prod.mk.inj (Except.ok.inj hs)
        rw [hgap] at hleft
        exact hP.drop (by decide) hleft
      · rename_i hgap
        rw [hgap] at hleft
        exact ih _ _ (hP.skipGaps (hP.drop (by decide) hleft)) hs
      · cases hs

/-- Fields are read up to where the property still holds, if each of their values is. -/
theorem readFields (hP : Carried P) {element : List Char → Scan Value} (he : Carries P element)
    (rounds : Nat) (done : Fields) : Carries P fun s => readFields element rounds s done := by
  intro s v rest h hs
  dsimp only at hs
  induction rounds generalizing s done with
  | zero => cases hs
  | succ rounds ih =>
    unfold Json.readFields at hs
    split at hs
    · split at hs
      · cases hs
      · rename_i name left hname
        have hleft := hP.skipGaps (hP.string (hP.drop (by decide) h) hname)
        split at hs
        · rename_i hcolon
          rw [hcolon] at hleft
          split at hs
          · cases hs
          · rename_i item left' hitem
            have hvalue := hP.skipGaps (hP.drop (by decide) hleft)
            have hafter := hP.skipGaps (he _ _ _ hvalue hitem)
            split at hs
            · rename_i hgap
              obtain ⟨-, rfl⟩ := Prod.mk.inj (Except.ok.inj hs)
              rw [hgap] at hafter
              exact hP.drop (by decide) hafter
            · rename_i hgap
              rw [hgap] at hafter
              exact ih _ _ (hP.skipGaps (hP.drop (by decide) hafter)) hs
            · cases hs
        · cases hs
    · cases hs

/-- What is carried is carried by the reading of any value. -/
theorem readValue (hP : Carried P) (rounds depth : Nat) : Carries P (readValue rounds depth) := by
  induction depth with
  | zero =>
    intro s v rest h hs
    unfold Json.readValue at hs
    split at hs
    · cases hs
    · cases hs
    · exact hP.readScalar _ _ _ h hs
  | succ depth ih =>
    intro s v rest h hs
    unfold Json.readValue at hs
    split at hs
    · have htail := hP.skipGaps (hP.drop (by decide) h)
      unfold readList at hs
      split at hs
      · rename_i hgap
        obtain ⟨-, rfl⟩ := Prod.mk.inj (Except.ok.inj hs)
        rw [hgap] at htail
        exact hP.drop (by decide) htail
      · exact hP.readItems ih _ _ _ _ _ htail hs
    · have htail := hP.skipGaps (hP.drop (by decide) h)
      unfold readObject at hs
      split at hs
      · rename_i hgap
        obtain ⟨-, rfl⟩ := Prod.mk.inj (Except.ok.inj hs)
        rw [hgap] at htail
        exact hP.drop (by decide) htail
      · exact hP.readFields ih _ _ _ _ _ htail hs
    · exact hP.readScalar _ _ _ h hs

end Carried

/-! ## Texts that cannot be read to their end -/

theorem hexValue?_backquote : hexValue? '\x60' = none := by decide

/-- An escape by number takes no backquote. -/
theorem drop_scanUnit {P : List Char → Prop}
    (drop : ∀ {c : Char} {s : List Char}, c ≠ '\x60' → P (c :: s) → P s) {more rest : List Char}
    {n : Nat} (h : P ('u' :: more)) (hs : scanUnit ('u' :: more) = .ok (n, rest)) : P rest := by
  have hdigits : ∀ {a b c d : Char} {u : Nat}, unit? a b c d = some u →
      a ≠ '\x60' ∧ b ≠ '\x60' ∧ c ≠ '\x60' ∧ d ≠ '\x60' := by
    intro a b c d u hu
    refine ⟨?_, ?_, ?_, ?_⟩ <;> (rintro rfl; simp [unit?, hexValue?_backquote] at hu)
  unfold scanUnit at hs
  split at hs
  · rename_i x a b c d next tail heq
    obtain ⟨rfl, rfl⟩ := List.cons.inj heq
    split at hs
    · cases hs
    · rename_i u hu
      obtain ⟨ha, hb, hc, hd⟩ := hdigits hu
      have hnext : P (next :: tail) := drop hd (drop hc (drop hb (drop ha (drop (by decide) h))))
      split at hs
      · split at hs
        · rename_i u' hu'
          obtain ⟨ha', hb', hc', hd'⟩ := hdigits hu'
          split at hs
          · obtain ⟨-, rfl⟩ := Prod.mk.inj (Except.ok.inj hs)
            exact drop hd' (drop hc' (drop hb' (drop ha' (drop (by decide)
              (drop (by decide) hnext)))))
          · obtain ⟨-, rfl⟩ := Prod.mk.inj (Except.ok.inj hs)
            exact hnext
        · obtain ⟨-, rfl⟩ := Prod.mk.inj (Except.ok.inj hs)
          exact hnext
      · obtain ⟨-, rfl⟩ := Prod.mk.inj (Except.ok.inj hs)
        exact hnext
  · cases hs

/-- A text that starts with a backquote and cannot be read as the end of a string. -/
structure Stops (stop : List Char) : Prop where
  head : ∃ tail, stop = '\x60' :: tail
  string : ∀ whole done r, scanString whole stop done ≠ .ok r

theorem Stops.drop {stop : List Char} (h : Stops stop) {c : Char} {s : List Char} (hc : c ≠ '\x60')
    (hs : ∃ q, c :: s = q ++ stop) : ∃ q, s = q ++ stop := by
  obtain ⟨tail, htail⟩ := h.head
  obtain ⟨q, hq⟩ := hs
  cases q with
  | nil =>
    rw [htail] at hq
    exact absurd (List.cons.inj hq).1 hc
  | cons d q => exact ⟨q, (List.cons.inj hq).2⟩

/-- A string that starts before such a text ends before it. -/
theorem Stops.scanString {stop : List Char} (h : Stops stop) {whole s done rest : List Char}
    {t : String} (hs : ∃ q, s = q ++ stop) (hscan : scanString whole s done = .ok (t, rest)) :
    ∃ q, rest = q ++ stop := by
  fun_induction Json.scanString whole s done with
  | case1 | case3 | case4 | case7 | case8 => cases hscan
  | case2 =>
    obtain ⟨-, rfl⟩ := Prod.mk.inj (Except.ok.inj hscan)
    exact h.drop (by decide) hs
  | case5 done more n left hunit ih =>
    refine ih ?_ hscan
    exact drop_scanUnit (P := fun s => ∃ q, s = q ++ stop) h.drop (h.drop (by decide) hs) hunit
  | case6 done e more he c hc ih =>
    refine ih (h.drop ?_ (h.drop (by decide) hs)) hscan
    rintro rfl
    cases hc
  | case9 done c rest' hquote hbackslash hlow ih =>
    obtain ⟨q, hq⟩ := hs
    cases q with
    | nil =>
      -- Only here could the backquote be taken, but then the string would end within `stop`.
      refine absurd ?_ (h.string whole done (t, rest))
      rw [← List.nil_append stop, ← hq, scanString.eq_6 _ _ _ _ hquote hbackslash, if_neg hlow]
      exact hscan
    | cons d q => exact ih ⟨q, (List.cons.inj hq).2⟩ hscan

/-- To end with such a text is carried over. -/
theorem Stops.carried {stop : List Char} (h : Stops stop) :
    Carried fun s => ∃ q, s = q ++ stop :=
  ⟨h.drop, h.scanString⟩

/-- A document cannot end in such a text. -/
theorem Stops.read_ne_ok {stop : List Char} (h : Stops stop) (levels : Nat) (q : List Char)
    (v : Value) : read levels (q ++ stop) ≠ .ok v := by
  intro hread
  unfold read at hread
  split at hread
  · cases hread
  · unfold readDocument at hread
    split at hread
    · cases hread
    · rename_i rest hfront
      have hrest := h.carried.skipGaps (h.carried.readValue _ _ _ _ _
        (h.carried.skipGaps ⟨q, rfl⟩) hfront)
      obtain ⟨tail, htail⟩ := h.head
      split at hread
      · rename_i hgap
        rw [hgap, htail] at hrest
        obtain ⟨q', hq'⟩ := hrest
        simp at hq'
      · cases hread

end MeetDesk.Json
