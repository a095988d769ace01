import Mathlib.Data.List.TakeWhile
import MeetDesk.Proofs.Json.Carried
import MeetDesk.Proofs.Json.RoundTrip

/-!
# Values cut out of a text

What a reader takes off the front of a text means the same without the text behind it. So an object that
is found in the midst of prose is a document of its own (`exists_document_of_readFront`).

A number has to be followed by something that does not continue it. A string has to be cut behind its
closing quote, for an escape looks ahead for the other half of a pair.
-/

namespace MeetDesk.Json

open Text (isLeading isTrailing pairCode)

/-- What the reader takes is not empty, and is read alike before any other text that does not continue a
number. No more rounds are needed than it has characters. -/
def Detaches {α : Type} (scan : Nat → List Char → Scan α) : Prop :=
  ∀ rounds s a rest, scan rounds s = .ok (a, rest) → ∃ c p, s = c :: p ++ rest ∧
    ∀ rounds' tail, (c :: p).length ≤ rounds' → EndsInteger tail →
      scan rounds' (c :: p ++ tail) = .ok (a, tail)

/-! ## Blanks -/

/-- What is skipped is a run of gaps. -/
theorem skipGaps_split (s : List Char) :
    ∃ gaps, s = gaps ++ skipGaps s ∧ ∀ c ∈ gaps, isGap c = true :=
  ⟨s.takeWhile isGap, (List.takeWhile_append_dropWhile).symm, fun _ hc => List.mem_takeWhile_imp hc⟩

/-- Gaps in front are skipped. -/
theorem skipGaps_append {gaps : List Char} (h : ∀ c ∈ gaps, isGap c = true) (s : List Char) :
    skipGaps (gaps ++ s) = skipGaps s :=
  List.dropWhile_append_of_pos h

theorem not_isGap_of_skipGaps {s rest : List Char} {c : Char} (h : skipGaps s = c :: rest) :
    isGap c = false := by
  have hstop := List.head?_dropWhile_not isGap s
  rw [show s.dropWhile isGap = c :: rest from h] at hstop
  simpa using hstop

/-- The character behind blanks stays the first one behind them. -/
theorem skipGaps_detaches {s more : List Char} {c : Char} (h : skipGaps s = c :: more) :
    ∃ gaps, s = gaps ++ c :: more ∧ (∀ g ∈ gaps, isGap g = true) ∧
      ∀ tail, skipGaps (gaps ++ c :: tail) = c :: tail := by
  obtain ⟨gaps, hs, hgaps⟩ := skipGaps_split s
  have hc := not_isGap_of_skipGaps h
  rw [h] at hs
  exact ⟨gaps, hs, hgaps, fun tail => by rw [skipGaps_append hgaps, skipGaps_cons hc]⟩

theorem continuesInteger_of_isGap {c : Char} (h : isGap c = true) : continuesInteger c = false := by
  simp only [isGap, Bool.or_eq_true, beq_iff_eq] at h
  rcases h with ((rfl | rfl) | rfl) | rfl <;> rfl

theorem endsInteger_gaps {gaps : List Char} (h : ∀ c ∈ gaps, isGap c = true) {c : Char}
    (hc : continuesInteger c = false) (s : List Char) : EndsInteger (gaps ++ c :: s) := by
  cases gaps with
  | nil => exact endsInteger_cons hc s
  | cons g gaps => exact endsInteger_cons (continuesInteger_of_isGap (h g List.mem_cons_self)) _

/-! ## Strings -/

/-- The escape of a trailing half starts here exactly if there is one, with something behind it. -/
theorem startsTrailing_eq_true_iff {s : List Char} : startsTrailing s = true ↔
    ∃ a b c d next rest u, s = '\\' :: 'u' :: a :: b :: c :: d :: next :: rest ∧
      unit? a b c d = some u ∧ isTrailing u = true := by
  constructor
  · intro h
    unfold startsTrailing at h
    split at h
    · split at h
      · rename_i u hu
        exact ⟨_, _, _, _, _, _, u, rfl, hu, h⟩
      · cases h
    · cases h
  · rintro ⟨a, b, c, d, next, rest, u, rfl, hu, ht⟩
    simp only [startsTrailing, hu, ht]

/-- What stands behind a closing quote is no part of an escape before it. -/
theorem startsTrailing_quote {q rest : List Char} (h : startsTrailing (q ++ '"' :: rest) = true)
    (tail : List Char) : startsTrailing (q ++ '"' :: tail) = true := by
  have hquote : hexValue? '"' = none := by decide
  obtain ⟨a, b, c, d, next, more, u, heq, hu, ht⟩ := startsTrailing_eq_true_iff.mp h
  have hdigits : '"' ≠ a ∧ '"' ≠ b ∧ '"' ≠ c ∧ '"' ≠ d := by
    refine ⟨?_, ?_, ?_, ?_⟩ <;> (rintro rfl; simp [unit?, hquote] at hu)
  obtain ⟨ha, hb, hc, hd⟩ := hdigits
  -- The first six characters are no quotes, so the quote stands behind them.
  rcases q with _ | ⟨q1, _ | ⟨q2, _ | ⟨q3, _ | ⟨q4, _ | ⟨q5, _ | ⟨q6, q⟩⟩⟩⟩⟩⟩ <;>
    simp only [List.nil_append, List.cons_append, List.cons.injEq] at heq
  · exact absurd heq.1 (by decide)
  · exact absurd heq.2.1 (by decide)
  · exact absurd heq.2.2.1 ha
  · exact absurd heq.2.2.2.1 hb
  · exact absurd heq.2.2.2.2.1 hc
  · exact absurd heq.2.2.2.2.2.1 hd
  · obtain ⟨rfl, rfl, rfl, rfl, rfl, rfl, -⟩ := heq
    refine startsTrailing_eq_true_iff.mpr ?_
    cases q with
    | nil => exact ⟨_, _, _, _, _, _, u, rfl, hu, ht⟩
    | cons x q => exact ⟨_, _, _, _, _, _, u, rfl, hu, ht⟩

/-- An escape by number is one unit that is no half of a pair with what follows, or a pair. -/
theorem scanUnit_cases {more left : List Char} {n : Nat}
    (h : scanUnit ('u' :: more) = .ok (n, left)) : left ≠ [] ∧ ∃ a b c d u, unit? a b c d = some u ∧
      ((n = u ∧ more = a :: b :: c :: d :: left ∧
          (isLeading u = true → startsTrailing left = false)) ∨
        ∃ a' b' c' d' u', unit? a' b' c' d' = some u' ∧ isLeading u = true ∧ isTrailing u' = true ∧
          n = pairCode u u' ∧ more = a :: b :: c :: d :: '\\' :: 'u' :: a' :: b' :: c' :: d' :: left) := by
  unfold scanUnit at h
  split at h
  · rename_i x a b c d next rest heq
    obtain ⟨-, rfl⟩ := List.cons.inj heq
    split at h
    · cases h
    · rename_i u hu
      split at h
      · rename_i a' b' c' d' next' rest'
        split at h
        · rename_i u' hu'
          split at h
          · rename_i hpair
            obtain ⟨rfl, rfl⟩ := Prod.mk.inj (Except.ok.inj h)
            rw [Bool.and_eq_true] at hpair
            exact ⟨by simp, a, b, c, d, u, hu,
              Or.inr ⟨a', b', c', d', u', hu', hpair.1, hpair.2, rfl, rfl⟩⟩
          · rename_i hpair
            obtain ⟨rfl, rfl⟩ := Prod.mk.inj (Except.ok.inj h)
            refine ⟨by simp, a, b, c, d, u, hu, Or.inl ⟨rfl, rfl, fun hl => ?_⟩⟩
            simp only [startsTrailing, hu']
            simpa [hl] using hpair
        · rename_i hnone
          obtain ⟨rfl, rfl⟩ := Prod.mk.inj (Except.ok.inj h)
          refine ⟨by simp, a, b, c, d, u, hu, Or.inl ⟨rfl, rfl, fun _ => ?_⟩⟩
          simp only [startsTrailing, hnone]
      · rename_i hother
        obtain ⟨rfl, rfl⟩ := Prod.mk.inj (Except.ok.inj h)
        refine ⟨by simp, a, b, c, d, u, hu, Or.inl ⟨rfl, rfl, fun _ => ?_⟩⟩
        by_contra hstarts
        obtain ⟨a', b', c', d', next', rest', u', heq, -⟩ :=
          startsTrailing_eq_true_iff.mp (by simpa using hstarts)
        obtain ⟨rfl, rfl⟩ := List.cons.inj heq
        exact hother _ _ _ _ _ _ rfl rfl
  · cases h

/-- An escape before the end of a string does not depend on what stands behind the string. -/
theorem scanUnit_detaches {more q rest : List Char} {n : Nat}
    (h : scanUnit ('u' :: more) = .ok (n, q ++ '"' :: rest)) :
    ∃ u, more = u ++ (q ++ '"' :: rest) ∧
      ∀ tail, scanUnit ('u' :: (u ++ (q ++ '"' :: tail))) = .ok (n, q ++ '"' :: tail) := by
  have hne : ∀ tail, q ++ '"' :: tail ≠ [] := by simp
  obtain ⟨-, a, b, c, d, u, hu, ⟨hn, rfl, halone⟩ | ⟨a', b', c', d', u', hu', hl, ht, hn, rfl⟩⟩ :=
    scanUnit_cases h
  · rw [hn]
    refine ⟨[a, b, c, d], rfl, fun tail => scanUnit_alone hu (hne tail) fun hl => ?_⟩
    by_contra hstarts
    have hback := startsTrailing_quote (by simpa using hstarts) rest
    rw [halone hl] at hback
    cases hback
  · rw [hn]
    exact ⟨[a, b, c, d, '\\', 'u', a', b', c', d'], rfl,
      fun tail => scanUnit_paired hu hu' (hne tail) hl ht⟩

/-- A string is read up to its closing quote, whatever stands behind it. -/
theorem scanString_detaches {whole s done rest : List Char} {t : String}
    (h : scanString whole s done = .ok (t, rest)) : ∃ q, s = q ++ '"' :: rest ∧
      ∀ whole' tail, scanString whole' (q ++ '"' :: tail) done = .ok (t, tail) := by
  fun_induction scanString whole s done with
  | case1 | case3 | case4 | case7 | case8 => cases h
  | case2 =>
    obtain ⟨rfl, rfl⟩ := Prod.mk.inj (Except.ok.inj h)
    exact ⟨[], rfl, fun whole' tail => by simp [scanString]⟩
  | case5 done more n left hunit ih =>
    obtain ⟨q, rfl, hq⟩ := ih h
    obtain ⟨u, rfl, hu⟩ := scanUnit_detaches hunit
    refine ⟨'\\' :: 'u' :: (u ++ q), by simp, fun whole' tail => ?_⟩
    rw [show '\\' :: 'u' :: (u ++ q) ++ '"' :: tail = '\\' :: 'u' :: (u ++ (q ++ '"' :: tail)) by simp,
      scanString_of_scanUnit (hu tail)]
    exact hq whole' tail
  | case6 done e more he c hc ih =>
    obtain ⟨q, rfl, hq⟩ := ih h
    refine ⟨'\\' :: e :: q, rfl, fun whole' tail => ?_⟩
    rw [List.cons_append, List.cons_append, scanString.eq_5 _ _ _ _ he, hc]
    exact hq whole' tail
  | case9 done c more hquote hbackslash hlow ih =>
    obtain ⟨q, rfl, hq⟩ := ih h
    refine ⟨c :: q, rfl, fun whole' tail => ?_⟩
    rw [List.cons_append, scanString.eq_6 _ _ _ _ hquote hbackslash, if_neg hlow]
    exact hq whole' tail

/-! ## Numbers -/

theorem splitDigits_cases {s ds rest : List Char} (h : splitDigits s = (ds, rest)) :
    s = ds ++ rest ∧ ∀ c ∈ ds, c.isDigit = true := by
  obtain ⟨rfl, rfl⟩ := Prod.mk.inj h
  exact ⟨List.takeWhile_append_dropWhile.symm, fun _ hc => List.mem_takeWhile_imp hc⟩

/-- A sign is split off alike in front of any digit. -/
theorem splitSign_detaches (s : List Char) : ∃ sign, s = sign ++ (Decimal.splitSign s).2 ∧
    ∀ c t, c.isDigit = true →
      Decimal.splitSign (sign ++ c :: t) = ((Decimal.splitSign s).1, c :: t) := by
  unfold Decimal.splitSign
  split
  · exact ⟨['-'], rfl, fun _ _ _ => rfl⟩
  · exact ⟨['+'], rfl, fun _ _ _ => rfl⟩
  · refine ⟨[], rfl, fun c t hc => ?_⟩
    rw [List.nil_append]
    split
    · rename_i heq
      obtain ⟨rfl, -⟩ := List.cons.inj heq
      cases hc
    · rename_i heq
      obtain ⟨rfl, -⟩ := List.cons.inj heq
      cases hc
    · rfl

theorem splitMinus_detaches (s : List Char) : ∃ minus, s = minus ++ (splitMinus s).2 ∧
    (minus = [] ∨ minus = ['-']) ∧
    ∀ c t, c.isDigit = true → splitMinus (minus ++ c :: t) = ((splitMinus s).1, c :: t) := by
  unfold splitMinus
  split
  · exact ⟨['-'], rfl, Or.inr rfl, fun _ _ _ => rfl⟩
  · exact ⟨[], rfl, Or.inl rfl, fun c t hc => splitMinus_of_isDigit hc t⟩

/-- The whole part of a number is split off alike whatever follows that is no digit. -/
theorem splitWhole?_detaches {s whole rest : List Char} (h : splitWhole? s = some (whole, rest)) :
    s = whole ++ rest ∧ (∃ c ds, whole = c :: ds ∧ c.isDigit = true) ∧
      ∀ tail, EndsDigits tail → splitWhole? (whole ++ tail) = some (whole, tail) := by
  unfold splitWhole? at h
  split at h
  · obtain ⟨rfl, rfl⟩ := Prod.mk.inj (Option.some.inj h)
    exact ⟨rfl, ⟨'0', [], rfl, rfl⟩, fun tail _ => rfl⟩
  · rename_i c more hzero
    split at h
    · rename_i hc
      obtain ⟨hs, hdigits⟩ := splitDigits_cases (Option.some.inj h)
      cases whole with
      | nil => simp [splitDigits, hc] at h
      | cons d ds =>
        obtain ⟨rfl, rfl⟩ := List.cons.inj hs
        refine ⟨rfl, ⟨c, ds, rfl, hc⟩, fun tail htail => ?_⟩
        rw [List.cons_append, splitWhole?.eq_2 _ _ hzero, if_pos hc, ← List.cons_append,
          splitDigits_of_endsDigits hdigits htail]
    · cases h
  · cases h

/-- The fraction ends where the digits behind the point do; where there is none, none must follow. -/
theorem splitFraction_detaches {s fraction rest : List Char} (h : splitFraction s = (fraction, rest)) :
    ∃ p, s = p ++ rest ∧ (p = [] ∨ ∃ t, p = '.' :: t) ∧
      ∀ tail, EndsDigits tail → tail.head? ≠ some '.' → splitFraction (p ++ tail) = (fraction, tail) := by
  have hnone : ∀ tail : List Char, tail.head? ≠ some '.' → splitFraction tail = ([], tail) := by
    intro tail hpoint
    unfold splitFraction
    split
    · exact absurd rfl hpoint
    · rfl
  unfold splitFraction at h
  split at h
  · rename_i c more
    split at h
    · rename_i hc
      obtain ⟨hs, hdigits⟩ := splitDigits_cases h
      cases fraction with
      | nil => simp [splitDigits, hc] at h
      | cons d ds =>
        obtain ⟨rfl, rfl⟩ := List.cons.inj hs
        refine ⟨'.' :: c :: ds, rfl, Or.inr ⟨_, rfl⟩, fun tail htail _ => ?_⟩
        rw [List.cons_append, List.cons_append, splitFraction, if_pos hc, ← List.cons_append,
          splitDigits_of_endsDigits hdigits htail]
    · obtain ⟨rfl, rfl⟩ := Prod.mk.inj h
      exact ⟨[], rfl, Or.inl rfl, fun tail _ hpoint => hnone tail hpoint⟩
  · obtain ⟨rfl, rfl⟩ := Prod.mk.inj h
    exact ⟨[], rfl, Or.inl rfl, fun tail _ hpoint => hnone tail hpoint⟩

/-- An exponent is split off alike whatever follows that does not continue a number. -/
theorem splitExponent_detaches {s rest : List Char} {exponent? : Option Int}
    (h : splitExponent s = (exponent?, rest)) :
    ∃ p, s = p ++ rest ∧ (p = [] ∨ ∃ mark t, p = mark :: t ∧ (mark = 'e' ∨ mark = 'E')) ∧
      ∀ tail, EndsInteger tail → splitExponent (p ++ tail) = (exponent?, tail) := by
  unfold splitExponent at h
  split at h
  · rename_i mark more
    obtain ⟨sign, hsign, hkeep⟩ := splitSign_detaches more
    rcases hrun : splitDigits (Decimal.splitSign more).2 with ⟨ds, left⟩
    obtain ⟨hs, hdigits⟩ := splitDigits_cases hrun
    dsimp only at h
    rw [hrun] at h
    split at h
    · rename_i hmark
      obtain ⟨rfl, rfl⟩ := Prod.mk.inj h
      have hletter : mark = 'e' ∨ mark = 'E' := by
        simp only [Bool.and_eq_true, Bool.or_eq_true, beq_iff_eq] at hmark
        exact hmark.1
      cases ds with
      | nil => simp at hmark
      | cons d ds =>
        refine ⟨mark :: (sign ++ d :: ds), ?_, Or.inr ⟨mark, _, rfl, hletter⟩, fun tail htail => ?_⟩
        · rw [hsign, hs]
          simp
        · have hdigit := hdigits d List.mem_cons_self
          have htext : mark :: (sign ++ d :: ds) ++ tail = mark :: (sign ++ d :: (ds ++ tail)) := by
            simp
          rw [htext]
          unfold splitExponent
          dsimp only
          rw [hkeep d _ hdigit, ← List.cons_append, splitDigits_of_endsDigits hdigits htail.endsDigits]
          exact if_pos hmark
    · obtain ⟨rfl, rfl⟩ := Prod.mk.inj h
      exact ⟨[], rfl, Or.inl rfl, fun tail htail => splitExponent_of_ends htail⟩
  · obtain ⟨rfl, rfl⟩ := Prod.mk.inj h
    exact ⟨[], rfl, Or.inl rfl, fun tail htail => splitExponent_of_ends htail⟩

/-- A number starts with a digit, or with a minus and a digit, and is read up to its end. -/
theorem scanNumber_detaches {s rest : List Char} {v : Value} (h : scanNumber s = .ok (v, rest)) :
    ∃ c p, s = c :: p ++ rest ∧
      (c.isDigit = true ∨ c = '-' ∧ ∃ d t, p = d :: t ∧ d.isDigit = true) ∧
      ∀ tail, EndsInteger tail → scanNumber (c :: p ++ tail) = .ok (v, tail) := by
  unfold scanNumber at h
  split at h
  · cases h
  · rename_i whole afterWhole hwhole
    rcases hpoint : splitFraction afterWhole with ⟨fraction, afterFraction⟩
    rcases hmark : splitExponent afterFraction with ⟨exponent?, left⟩
    rw [hpoint] at h
    dsimp only at h
    rw [hmark] at h
    dsimp only at h
    split at h
    · cases h
    · rename_i value hvalue
      obtain ⟨rfl, rfl⟩ := Prod.mk.inj (Except.ok.inj h)
      obtain ⟨minus, hs, hminus, hkeep⟩ := splitMinus_detaches s
      obtain ⟨hsplit, ⟨d, ds, rfl, hd⟩, hwhole'⟩ := splitWhole?_detaches hwhole
      obtain ⟨point, rfl, hpointHead, hfraction⟩ := splitFraction_detaches hpoint
      obtain ⟨mark, rfl, hmarkHead, hexponent⟩ := splitExponent_detaches hmark
      have hmarkEnds : ∀ tail, EndsInteger tail → EndsDigits (mark ++ tail) ∧
          (mark ++ tail).head? ≠ some '.' := by
        intro tail htail
        rcases hmarkHead with rfl | ⟨c, t, rfl, rfl | rfl⟩
        · refine ⟨htail.endsDigits, fun hhead => ?_⟩
          have hcontinues := htail '.' hhead
          cases hcontinues
        · exact ⟨fun c hc => by cases hc; rfl, by simp⟩
        · exact ⟨fun c hc => by cases hc; rfl, by simp⟩
      have hpointEnds : ∀ tail, EndsInteger tail → EndsDigits (point ++ (mark ++ tail)) := by
        intro tail htail
        rcases hpointHead with rfl | ⟨t, rfl⟩
        · exact (hmarkEnds tail htail).1
        · intro c hc
          cases hc
          rfl
      have hread : ∀ tail, EndsInteger tail →
          scanNumber (minus ++ (d :: (ds ++ (point ++ (mark ++ tail))))) = .ok (value, tail) := by
        intro tail htail
        have hends := hmarkEnds tail htail
        unfold scanNumber
        rw [hkeep d _ hd, ← List.cons_append]
        dsimp only
        rw [hwhole' _ (hpointEnds tail htail)]
        dsimp only
        rw [hfraction _ hends.1 hends.2]
        dsimp only
        rw [hexponent tail htail]
        dsimp only
        rw [hvalue]
      have htext : s = minus ++ (d :: (ds ++ (point ++ (mark ++ left)))) := by
        rw [← List.cons_append, ← hsplit, ← hs]
      rcases hminus with rfl | rfl
      · refine ⟨d, ds ++ (point ++ mark), by simp [htext], Or.inl hd, fun tail htail => ?_⟩
        have htail := hread tail htail
        simpa using htail
      · refine ⟨'-', d :: (ds ++ (point ++ mark)), by simp [htext], Or.inr ⟨rfl, d, _, rfl, hd⟩,
          fun tail htail => ?_⟩
        have htail := hread tail htail
        simpa using htail

/-! ## Scalars -/

/-- The words for null and the truth values are read whatever follows. -/
theorem readScalar_word {word : List Char × Value} (h : word ∈ words) (tail : List Char) :
    readScalar (word.1 ++ tail) = .ok (word.2, tail) := by
  simp only [words, List.mem_cons, List.not_mem_nil, or_false] at h
  rcases h with rfl | rfl | rfl | rfl | rfl | rfl <;> rfl

/-- A scalar is read alike whatever follows. -/
theorem readScalar_detaches : Detaches fun _ => readScalar := by
  intro rounds s v rest h
  dsimp only at h ⊢
  rcases readScalar_cases h with ⟨more, t, rfl, hscan, rfl⟩ | ⟨word, hword, rfl, rfl⟩ | hnumber
  · obtain ⟨q, rfl, hq⟩ := scanString_detaches hscan
    refine ⟨'"', q ++ ['"'], by simp, fun _ tail _ _ => ?_⟩
    have htext : '"' :: (q ++ ['"']) ++ tail = '"' :: (q ++ '"' :: tail) := by simp
    rw [htext, readScalar.eq_1, hq _ tail]
  · have hne : word.1 ≠ [] := by
      have hall : ∀ word ∈ words, word.1 ≠ [] := by simp [words]
      exact hall word hword
    obtain ⟨c, p, hcp⟩ := List.exists_cons_of_ne_nil hne
    rw [hcp]
    refine ⟨c, p, rfl, fun _ tail _ _ => ?_⟩
    rw [← hcp]
    exact readScalar_word hword tail
  · obtain ⟨c, p, rfl, hhead, hp⟩ := scanNumber_detaches hnumber
    refine ⟨c, p, rfl, fun _ tail _ htail => ?_⟩
    have hstart : c.isDigit = true ∨ c = '-' ∧ ∃ d t, p ++ tail = d :: t ∧ d.isDigit = true := by
      rcases hhead with hc | ⟨hc, d, t, rfl, hd⟩
      · exact Or.inl hc
      · exact Or.inr ⟨hc, d, t ++ tail, rfl, hd⟩
    rw [List.cons_append, readScalar_eq_scanNumber hstart]
    exact hp tail htail

/-! ## Lists and objects -/

section Nested

variable {element : Nat → List Char → Scan Value}

/-- Items are read alike whatever follows the end of the list. -/
theorem readItems_detaches (he : Detaches element) {whole rounds : Nat} {s rest : List Char}
    {done : List Value} {v : Value} (h : readItems (element whole) rounds s done = .ok (v, rest)) :
    ∃ c p, s = c :: p ++ rest ∧ ∀ whole' rounds' tail, (c :: p).length ≤ whole' →
      (c :: p).length ≤ rounds' →
        readItems (element whole') rounds' (c :: p ++ tail) done = .ok (v, tail) := by
  induction rounds generalizing s done with
  | zero => cases h
  | succ rounds ih =>
    unfold readItems at h
    split at h
    · cases h
    · rename_i item left hitem
      obtain ⟨c, p, rfl, hp⟩ := he _ _ _ _ hitem
      split at h
      · rename_i hgap
        obtain ⟨rfl, rfl⟩ := Prod.mk.inj (Except.ok.inj h)
        obtain ⟨gaps, rfl, hgaps, hskip⟩ := skipGaps_detaches hgap
        refine ⟨c, p ++ gaps ++ [']'], by simp, fun whole' rounds' tail hwhole hrounds => ?_⟩
        simp only [List.length_cons, List.length_append] at hwhole hrounds
        obtain ⟨rounds', rfl⟩ : ∃ n, rounds' = n + 1 := ⟨rounds' - 1, by omega⟩
        have htext : c :: (p ++ gaps ++ [']']) ++ tail = c :: p ++ (gaps ++ ']' :: tail) := by simp
        have hends : EndsInteger (gaps ++ ']' :: tail) := endsInteger_gaps hgaps (by decide) tail
        have hvalue := hp whole' _ (by simp only [List.length_cons]; omega) hends
        unfold readItems
        rw [htext, hvalue]
        dsimp only
        rw [hskip tail]
        rfl
      · rename_i more hgap
        obtain ⟨gaps, rfl, hgaps, hskip⟩ := skipGaps_detaches hgap
        obtain ⟨c', p', hmore, hp'⟩ := ih h
        obtain ⟨gaps', rfl, -, hskip'⟩ := skipGaps_detaches hmore
        refine ⟨c, p ++ gaps ++ ',' :: (gaps' ++ c' :: p'), by simp,
          fun whole' rounds' tail hwhole hrounds => ?_⟩
        simp only [List.length_cons, List.length_append] at hwhole hrounds
        obtain ⟨rounds', rfl⟩ : ∃ n, rounds' = n + 1 := ⟨rounds' - 1, by omega⟩
        have htext : c :: (p ++ gaps ++ ',' :: (gaps' ++ c' :: p')) ++ tail =
            c :: p ++ (gaps ++ ',' :: (gaps' ++ c' :: (p' ++ tail))) := by simp
        have hends : EndsInteger (gaps ++ ',' :: (gaps' ++ c' :: (p' ++ tail))) :=
          endsInteger_gaps hgaps (by decide) _
        have hvalue := hp whole' _ (by simp only [List.length_cons]; omega) hends
        have hnext := hp' whole' rounds' tail (by simp only [List.length_cons]; omega)
          (by simp only [List.length_cons]; omega)
        unfold readItems
        rw [htext, hvalue]
        dsimp only
        rw [hskip]
        show readItems _ _ (skipGaps _) _ = _
        rw [hskip']
        exact hnext
      · cases h

section Fields

variable {element : List Char → Scan Value} {q afterName beforeValue left : List Char} {name : String}
  {value : Value}

/-- The last field of an object ends it. -/
theorem readFields_last (hname : ∀ whole, scanString whole q [] = .ok (name, afterName))
    (hcolon : skipGaps afterName = ':' :: beforeValue)
    (hvalue : element (skipGaps beforeValue) = .ok (value, left)) {rest : List Char}
    (hend : skipGaps left = '\x7d' :: rest) (rounds : Nat) (done : Fields) :
    readFields element (rounds + 1) ('"' :: q) done = .ok (.object (done.put name value), rest) := by
  rw [readFields.eq_2, hname]
  simp only [hcolon, hvalue, hend]

/-- Any other field is followed by the next one. -/
theorem readFields_next (hname : ∀ whole, scanString whole q [] = .ok (name, afterName))
    (hcolon : skipGaps afterName = ':' :: beforeValue)
    (hvalue : element (skipGaps beforeValue) = .ok (value, left)) {more : List Char}
    (hcomma : skipGaps left = ',' :: more) (rounds : Nat) (done : Fields) :
    readFields element (rounds + 1) ('"' :: q) done =
      readFields element rounds (skipGaps more) (done.put name value) := by
  rw [readFields.eq_2, hname]
  simp only [hcolon, hvalue, hcomma]

end Fields

/-- Fields are read alike whatever follows the end of the object. -/
theorem readFields_detaches (he : Detaches element) {whole rounds : Nat} {s rest : List Char}
    {done : Fields} {v : Value} (h : readFields (element whole) rounds s done = .ok (v, rest)) :
    ∃ p, s = '"' :: p ++ rest ∧ ∀ whole' rounds' tail, ('"' :: p).length ≤ whole' →
      ('"' :: p).length ≤ rounds' →
        readFields (element whole') rounds' ('"' :: p ++ tail) done = .ok (v, tail) := by
  induction rounds generalizing s done with
  | zero => cases h
  | succ rounds ih =>
    unfold readFields at h
    split at h
    · split at h
      · cases h
      · rename_i name afterName hname
        obtain ⟨q, rfl, hq⟩ := scanString_detaches hname
        split at h
        · rename_i beforeValue hcolon
          obtain ⟨blanks, rfl, -, hblanks⟩ := skipGaps_detaches hcolon
          split at h
          · cases h
          · rename_i value left hvalue
            obtain ⟨c, p, hstart, hp⟩ := he _ _ _ _ hvalue
            obtain ⟨spaces, rfl, -, hspaces⟩ := skipGaps_detaches hstart
            split at h
            · rename_i hgap
              obtain ⟨rfl, rfl⟩ := Prod.mk.inj (Except.ok.inj h)
              obtain ⟨gaps, rfl, hgaps, hskip⟩ := skipGaps_detaches hgap
              refine ⟨q ++ '"' :: (blanks ++ ':' :: (spaces ++ c :: p ++ gaps ++ ['\x7d'])), by simp,
                fun whole' rounds' tail hwhole hrounds => ?_⟩
              simp only [List.length_cons, List.length_append] at hwhole hrounds
              obtain ⟨rounds', rfl⟩ : ∃ n, rounds' = n + 1 := ⟨rounds' - 1, by omega⟩
              have hagain : element whole' (skipGaps (spaces ++ c :: (p ++ (gaps ++ '\x7d' :: tail)))) =
                  .ok (value, gaps ++ '\x7d' :: tail) := by
                rw [hspaces]
                exact hp whole' _ (by simp only [List.length_cons]; omega)
                  (endsInteger_gaps hgaps (by decide) tail)
              have hread := readFields_last (fun w => hq w _) (hblanks _) hagain (hskip tail) rounds' done
              simpa using hread
            · rename_i more hgap
              obtain ⟨gaps, rfl, hgaps, hskip⟩ := skipGaps_detaches hgap
              obtain ⟨p', hmore, hp'⟩ := ih h
              obtain ⟨gaps', rfl, -, hskip'⟩ := skipGaps_detaches hmore
              refine ⟨q ++ '"' :: (blanks ++ ':' :: (spaces ++ c :: p ++ gaps ++
                ',' :: (gaps' ++ '"' :: p'))), by simp, fun whole' rounds' tail hwhole hrounds => ?_⟩
              simp only [List.length_cons, List.length_append] at hwhole hrounds
              obtain ⟨rounds', rfl⟩ : ∃ n, rounds' = n + 1 := ⟨rounds' - 1, by omega⟩
              have hagain : element whole' (skipGaps (spaces ++
                  c :: (p ++ (gaps ++ ',' :: (gaps' ++ '"' :: (p' ++ tail)))))) =
                  .ok (value, gaps ++ ',' :: (gaps' ++ '"' :: (p' ++ tail))) := by
                rw [hspaces]
                exact hp whole' _ (by simp only [List.length_cons]; omega)
                  (endsInteger_gaps hgaps (by decide) _)
              have hnext := hp' whole' rounds' tail (by simp only [List.length_cons]; omega)
                (by simp only [List.length_cons]; omega)
              have hread := readFields_next (fun w => hq w _) (hblanks _) hagain (hskip _) rounds' done
              rw [List.cons_append] at hnext
              rw [hskip', hnext] at hread
              simpa using hread
            · cases h
        · cases h
    · cases h

/-- A list is read alike whatever follows, in any number of rounds that is enough. -/
theorem readList_detaches (he : Detaches element) {rounds : Nat} {s rest : List Char} {v : Value}
    (h : readList (element rounds) rounds s = .ok (v, rest)) :
    ∃ p, s = p ++ rest ∧ ∀ rounds' tail, p.length ≤ rounds' →
      readList (element rounds') rounds' (p ++ tail) = .ok (v, tail) := by
  unfold readList at h
  split at h
  · rename_i hgap
    obtain ⟨rfl, rfl⟩ := Prod.mk.inj (Except.ok.inj h)
    obtain ⟨gaps, rfl, -, hskip⟩ := skipGaps_detaches hgap
    refine ⟨gaps ++ [']'], by simp, fun rounds' tail _ => ?_⟩
    unfold readList
    rw [List.append_assoc, List.singleton_append, hskip tail]
    rfl
  · rename_i hend
    obtain ⟨c, p, hitems, hp⟩ := readItems_detaches he h
    obtain ⟨gaps, rfl, -, hskip⟩ := skipGaps_detaches hitems
    refine ⟨gaps ++ c :: p, by simp, fun rounds' tail hrounds => ?_⟩
    simp only [List.length_cons, List.length_append] at hrounds
    have hread := hp rounds' rounds' tail (by simp only [List.length_cons]; omega)
      (by simp only [List.length_cons]; omega)
    have hc : c ≠ ']' := by
      rintro rfl
      exact hend _ hitems
    rw [List.cons_append] at hread
    unfold readList
    rw [List.append_assoc, List.cons_append, hskip]
    split
    · rename_i heq
      exact absurd (List.cons.inj heq).1 hc
    · exact hread

/-- An object is read alike whatever follows, in any number of rounds that is enough. -/
theorem readObject_detaches (he : Detaches element) {rounds : Nat} {s rest : List Char} {v : Value}
    (h : readObject (element rounds) rounds s = .ok (v, rest)) :
    ∃ p, s = p ++ rest ∧ ∀ rounds' tail, p.length ≤ rounds' →
      readObject (element rounds') rounds' (p ++ tail) = .ok (v, tail) := by
  unfold readObject at h
  split at h
  · rename_i hgap
    obtain ⟨rfl, rfl⟩ := Prod.mk.inj (Except.ok.inj h)
    obtain ⟨gaps, rfl, -, hskip⟩ := skipGaps_detaches hgap
    refine ⟨gaps ++ ['\x7d'], by simp, fun rounds' tail _ => ?_⟩
    unfold readObject
    rw [List.append_assoc, List.singleton_append, hskip tail]
    rfl
  · obtain ⟨p, hfields, hp⟩ := readFields_detaches he h
    obtain ⟨gaps, rfl, -, hskip⟩ := skipGaps_detaches hfields
    refine ⟨gaps ++ '"' :: p, by simp, fun rounds' tail hrounds => ?_⟩
    simp only [List.length_cons, List.length_append] at hrounds
    have hread := hp rounds' rounds' tail (by simp only [List.length_cons]; omega)
      (by simp only [List.length_cons]; omega)
    rw [List.cons_append] at hread
    unfold readObject
    rw [List.append_assoc, List.cons_append, hskip]
    exact hread

end Nested

/-- Any value is read alike before any other text that does not continue a number. -/
theorem readValue_detaches (depth : Nat) : Detaches fun rounds => readValue rounds depth := by
  induction depth with
  | zero =>
    intro rounds s v rest h
    dsimp only at h
    unfold readValue at h
    split at h
    · cases h
    · cases h
    · rename_i hlist hobject
      obtain ⟨c, p, rfl, hp⟩ := readScalar_detaches rounds _ _ _ h
      refine ⟨c, p, rfl, fun rounds' tail hrounds htail => ?_⟩
      have hscalar := hp rounds' tail hrounds htail
      dsimp only
      rw [List.cons_append] at hscalar ⊢
      rw [readValue_eq_readScalar (fun hc => hlist _ (by rw [hc]; rfl))
        (fun hc => hobject _ (by rw [hc]; rfl))]
      exact hscalar
  | succ depth ih =>
    intro rounds s v rest h
    dsimp only at h
    unfold readValue at h
    split at h
    · obtain ⟨p, rfl, hp⟩ := readList_detaches ih h
      exact ⟨'[', p, rfl, fun rounds' tail hrounds _ => hp rounds' tail (Nat.le_of_succ_le hrounds)⟩
    · obtain ⟨p, rfl, hp⟩ := readObject_detaches ih h
      exact ⟨'\x7b', p, rfl, fun rounds' tail hrounds _ => hp rounds' tail (Nat.le_of_succ_le hrounds)⟩
    · rename_i hlist hobject
      obtain ⟨c, p, rfl, hp⟩ := readScalar_detaches rounds _ _ _ h
      refine ⟨c, p, rfl, fun rounds' tail hrounds htail => ?_⟩
      have hscalar := hp rounds' tail hrounds htail
      dsimp only
      rw [List.cons_append] at hscalar ⊢
      rw [readValue_eq_readScalar (fun hc => hlist _ (by rw [hc]; rfl))
        (fun hc => hobject _ (by rw [hc]; rfl))]
      exact hscalar

/-- What is read off the front of a text is read as a document, if it starts with a brace. -/
theorem exists_document_of_readFront {levels rounds : Nat} {s rest : List Char} {v : Value}
    (h : readFront levels rounds ('\x7b' :: s) = .ok (v, rest)) :
    ∃ p, '\x7b' :: s = p ++ rest ∧ read levels p = .ok v := by
  obtain ⟨c, p, hs, hp⟩ := readValue_detaches levels rounds _ _ _ h
  obtain ⟨rfl, -⟩ := List.cons.inj hs
  have hends : EndsInteger [] := fun c hc => by cases hc
  have hfront : readFront levels ('\x7b' :: p).length ('\x7b' :: p ++ []) = .ok (v, []) :=
    hp _ [] (Nat.le_refl _) hends
  rw [List.append_nil] at hfront
  refine ⟨'\x7b' :: p, hs, ?_⟩
  show readDocument levels ('\x7b' :: p) = .ok v
  unfold readDocument
  rw [skipGaps_cons (by decide), hfront]
  rfl

end MeetDesk.Json
