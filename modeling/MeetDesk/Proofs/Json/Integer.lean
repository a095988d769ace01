import MeetDesk.Json.Printer
import MeetDesk.Json.Scanner

/-!
# Integers and their digits

An integer that is written is read back, unless it has more digits than are read. It must be followed
by something that does not continue a number.
-/

namespace MeetDesk.Json

/-- Whether a character continues an integer. -/
def continuesInteger (c : Char) : Bool := c.isDigit || c == '.' || c == 'e' || c == 'E'

/-- Nothing at the front of a text continues an integer. -/
def EndsInteger (s : List Char) : Prop := ∀ c, s.head? = some c → continuesInteger c = false

/-- What stands at the front of a text is read as the value, or it is beyond a limit that is allowed to
be exceeded. -/
def Reads (allow : Limit → Prop) (scan : List Char → Scan Value) (s : List Char) (v : Value)
    (rest : List Char) : Prop :=
  scan s = .ok (v, rest) ∨ ∃ limit, allow limit ∧ scan s = .error (.beyond limit)

/-- An integer does not have too many digits, or may have them. -/
def DigitsAllowed (allow : Limit → Prop) (n : Nat) : Prop :=
  maxDigits < (Nat.toDigits 10 n).length → allow (.digits (Nat.toDigits 10 n).length)

/-- A number is read back from its digits. -/
theorem digitsValue_toDigits (n : Nat) : Decimal.digitsValue (Nat.toDigits 10 n) = n := by
  have h : Decimal.digitsValue (Nat.toDigits 10 n) = Nat.ofDigitChars 10 (Nat.toDigits 10 n) 0 := by
    rw [Nat.ofDigitChars_eq_foldl]
    rfl
  rw [h, Nat.ofDigitChars_ten_toDigits]

/-- The digits of a positive number do not start with a zero. -/
theorem toDigits_eq_cons {n : Nat} (hn : 0 < n) :
    ∃ c ds, Nat.toDigits 10 n = c :: ds ∧ c ≠ '0' := by
  induction n using Nat.base_induction 10 (by decide) with
  | single m hm =>
    refine ⟨m.digitChar, [], Nat.toDigits_of_lt_base hm, ?_⟩
    revert hn
    revert hm
    revert m
    decide
  | digit m k hk hm ih =>
    obtain ⟨c, ds, hds, hc⟩ := ih hm
    refine ⟨c, ds ++ Nat.toDigits 10 k, ?_, hc⟩
    rw [← Nat.toDigits_append_toDigits (by decide) hm hk, hds, List.cons_append]

/-- No digit stands at the front of a text. -/
def EndsDigits (s : List Char) : Prop := ∀ c, s.head? = some c → c.isDigit = false

theorem EndsInteger.endsDigits {s : List Char} (h : EndsInteger s) : EndsDigits s := by
  intro c hc
  have hcontinues := h c hc
  simp only [continuesInteger, Bool.or_eq_false_iff] at hcontinues
  exact hcontinues.1.1.1

/-- Digits are split off what does not start with one. -/
theorem splitDigits_of_endsDigits {ds tail : List Char} (hds : ∀ c ∈ ds, c.isDigit = true)
    (h : EndsDigits tail) : splitDigits (ds ++ tail) = (ds, tail) := by
  have hstop : tail.takeWhile Char.isDigit = [] ∧ tail.dropWhile Char.isDigit = tail := by
    cases tail with
    | nil => exact ⟨rfl, rfl⟩
    | cons c tail => simp [h c rfl]
  rw [splitDigits, List.takeWhile_append_of_pos hds, List.dropWhile_append_of_pos hds, hstop.1,
    hstop.2, List.append_nil]

/-- Digits that do not start with a zero are the whole part of a number. -/
theorem splitWhole?_append {c : Char} {ds rest : List Char}
    (hdigits : ∀ d ∈ c :: ds, d.isDigit = true) (hzero : c ≠ '0') (hrest : EndsInteger rest) :
    splitWhole? (c :: ds ++ rest) = some (c :: ds, rest) := by
  have hsplit := splitDigits_of_endsDigits hdigits hrest.endsDigits
  rw [List.cons_append] at hsplit ⊢
  unfold splitWhole?
  split
  · rename_i heq
    exact absurd (List.cons.inj heq).1 hzero
  · rename_i heq
    obtain ⟨rfl, rfl⟩ := List.cons.inj heq
    rw [if_pos (hdigits _ List.mem_cons_self), hsplit]
  · rename_i heq
    cases heq

/-- The digits of a number are its whole part. -/
theorem splitWhole?_toDigits (n : Nat) {rest : List Char} (hrest : EndsInteger rest) :
    splitWhole? (Nat.toDigits 10 n ++ rest) = some (Nat.toDigits 10 n, rest) := by
  rcases Nat.eq_zero_or_pos n with rfl | hn
  · rw [Nat.toDigits_zero]
    rfl
  · have hdigits : ∀ c ∈ Nat.toDigits 10 n, c.isDigit = true :=
      fun c hc => Nat.isDigit_of_mem_toDigits (by decide) (by decide) hc
    obtain ⟨c, ds, hds, hzero⟩ := toDigits_eq_cons hn
    rw [hds] at hdigits ⊢
    exact splitWhole?_append hdigits hzero hrest

theorem splitFraction_of_ends {rest : List Char} (h : EndsInteger rest) :
    splitFraction rest = ([], rest) := by
  unfold splitFraction
  split
  · have hpoint := h '.' rfl
    simp [continuesInteger] at hpoint
  · rfl

theorem splitExponent_of_ends {rest : List Char} (h : EndsInteger rest) :
    splitExponent rest = (none, rest) := by
  unfold splitExponent
  split
  · rename_i mark rest'
    have hmark := h mark rfl
    simp only [continuesInteger, Bool.or_eq_false_iff] at hmark
    simp [hmark.1.2, hmark.2]
  · rfl

/-- A number without a fraction and an exponent is an integer, unless it has too many digits. -/
theorem scanNumber_of_whole {negative : Bool} {whole s rest : List Char}
    (hs : splitMinus s = (negative, whole ++ rest))
    (hwhole : splitWhole? (whole ++ rest) = some (whole, rest)) (hrest : EndsInteger rest) :
    scanNumber s =
      if maxDigits < whole.length then .error (.beyond (.digits whole.length))
      else .ok (.int (Decimal.signed negative (Decimal.digitsValue whole)), rest) := by
  unfold scanNumber
  rw [hs]
  dsimp only
  rw [hwhole]
  dsimp only
  rw [splitFraction_of_ends hrest]
  dsimp only
  rw [splitExponent_of_ends hrest]
  dsimp only
  unfold assemble
  rw [if_pos (by rfl)]
  by_cases hlen : maxDigits < whole.length
  · rw [if_pos hlen, if_pos hlen]
  · rw [if_neg hlen, if_neg hlen]

/-- Digits are read as the number that they write, or as more than are read. -/
theorem reads_scanNumber_digits {allow : Limit → Prop} (negative : Bool) {n : Nat}
    {s rest : List Char} (hn : DigitsAllowed allow n) (hrest : EndsInteger rest)
    (hs : splitMinus s = (negative, Nat.toDigits 10 n ++ rest)) :
    Reads allow scanNumber s (.int (Decimal.signed negative n)) rest := by
  unfold Reads
  rw [scanNumber_of_whole hs (splitWhole?_toDigits n hrest) hrest, digitsValue_toDigits]
  by_cases hlen : maxDigits < (Nat.toDigits 10 n).length
  · rw [if_pos hlen]
    exact Or.inr ⟨_, hn hlen, rfl⟩
  · rw [if_neg hlen]
    exact Or.inl rfl

theorem toDigits_head (n : Nat) : ∃ d t, Nat.toDigits 10 n = d :: t ∧ d.isDigit = true := by
  obtain ⟨d, t, ht⟩ := List.exists_cons_of_ne_nil (Nat.toDigits_ne_nil (n := n) (b := 10))
  have hmem : d ∈ Nat.toDigits 10 n := by simp [ht]
  exact ⟨d, t, ht, Nat.isDigit_of_mem_toDigits (by decide) (by decide) hmem⟩

theorem splitMinus_of_isDigit {c : Char} (h : c.isDigit = true) (s : List Char) :
    splitMinus (c :: s) = (false, c :: s) := by
  unfold splitMinus
  split
  · rename_i heq
    obtain ⟨rfl, -⟩ := List.cons.inj heq
    cases h
  · rfl

theorem splitMinus_toDigits (n : Nat) (rest : List Char) :
    splitMinus (Nat.toDigits 10 n ++ rest) = (false, Nat.toDigits 10 n ++ rest) := by
  obtain ⟨d, t, ht, hd⟩ := toDigits_head n
  rw [ht, List.cons_append]
  exact splitMinus_of_isDigit hd (t ++ rest)

theorem toList_ofNat (n : Nat) : (toString (Int.ofNat n)).toList = Nat.toDigits 10 n :=
  Nat.toList_repr

theorem toList_negSucc (n : Nat) :
    (toString (Int.negSucc n)).toList = '-' :: Nat.toDigits 10 (n + 1) := by
  show ("-" ++ Nat.repr (n + 1)).toList = _
  rw [String.toList_append, Nat.toList_repr]
  rfl

/-- The text of an integer is read as the integer. -/
theorem reads_scanNumber_int {allow : Limit → Prop} {n : Int} (hn : DigitsAllowed allow n.natAbs)
    {rest : List Char} (hrest : EndsInteger rest) :
    Reads allow scanNumber ((toString n).toList ++ rest) (.int n) rest := by
  cases n with
  | ofNat n =>
    rw [toList_ofNat]
    exact reads_scanNumber_digits false hn hrest (splitMinus_toDigits n rest)
  | negSucc n =>
    rw [toList_negSucc]
    exact reads_scanNumber_digits true hn hrest rfl

/-- The text of an integer starts with a digit, or with a minus and a digit. -/
theorem toList_int_head (n : Int) : ∃ c s, (toString n).toList = c :: s ∧
    (c.isDigit = true ∨ c = '-' ∧ ∃ d t, s = d :: t ∧ d.isDigit = true) := by
  cases n with
  | ofNat n =>
    obtain ⟨d, t, ht, hd⟩ := toDigits_head n
    exact ⟨d, t, (toList_ofNat n).trans ht, Or.inl hd⟩
  | negSucc n =>
    obtain ⟨d, t, ht, hd⟩ := toDigits_head (n + 1)
    exact ⟨'-', d :: t, by rw [toList_negSucc, ht], Or.inr ⟨rfl, d, t, rfl, hd⟩⟩

end MeetDesk.Json
