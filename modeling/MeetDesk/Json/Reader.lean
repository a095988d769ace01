import MeetDesk.Json.Scanner

/-!
# Reading JSON

A value is read off the front of a text, by recursion on the levels of nesting that are still
allowed. How many are allowed at first is up to whoever reads. The loops over items and fields are
given a number of rounds that no text can use up: each round reads at least one character, and the
number is the length of the whole text.

`read` takes a whole document. `readFront` takes the value at the front of a text and leaves the
rest, for those who look for objects inside prose. Whatever succeeds leaves less than it was given.
-/

namespace MeetDesk.Json

/-- Reads the items of a list, from the first one on. -/
def readItems (element : List Char → Scan Value) :
    (rounds : Nat) → (s : List Char) → (done : List Value) → Scan Value
  | 0, s, _ => .error (.malformed .commaExpected s)
  | rounds + 1, s, done =>
    match element s with
    | .error e => .error e
    | .ok (value, rest) =>
      match skipGaps rest with
      | ']' :: left => .ok (.list (value :: done).reverse, left)
      | ',' :: more => readItems element rounds (skipGaps more) (value :: done)
      | other => .error (.malformed .commaExpected other)

/-- Reads the fields of an object, from the first name on. -/
def readFields (element : List Char → Scan Value) :
    (rounds : Nat) → (s : List Char) → (done : Fields) → Scan Value
  | 0, s, _ => .error (.malformed .commaExpected s)
  | rounds + 1, s, done =>
    match s with
    | '"' :: tail =>
      match scanString s tail [] with
      | .error e => .error e
      | .ok (name, rest) =>
        match skipGaps rest with
        | ':' :: rest =>
          match element (skipGaps rest) with
          | .error e => .error e
          | .ok (value, rest) =>
            match skipGaps rest with
            | '\x7d' :: left => .ok (.object (done.put name value), left)
            | ',' :: more => readFields element rounds (skipGaps more) (done.put name value)
            | other => .error (.malformed .commaExpected other)
        | other => .error (.malformed .colonExpected other)
    | _ => .error (.malformed .nameExpected s)

/-- Reads a list from behind its opening bracket. -/
def readList (element : List Char → Scan Value) (rounds : Nat) (s : List Char) : Scan Value :=
  match skipGaps s with
  | ']' :: left => .ok (.list [], left)
  | items => readItems element rounds items []

/-- Reads an object from behind its opening brace. -/
def readObject (element : List Char → Scan Value) (rounds : Nat) (s : List Char) : Scan Value :=
  match skipGaps s with
  | '\x7d' :: left => .ok (.object [], left)
  | fields => readFields element rounds fields []

/-- Reads a value that is neither a list nor an object. -/
def readScalar (s : List Char) : Scan Value :=
  match s with
  | '"' :: tail =>
    match scanString s tail [] with
    | .error e => .error e
    | .ok (text, rest) => .ok (.text text, rest)
  | 'n' :: 'u' :: 'l' :: 'l' :: rest => .ok (.null, rest)
  | 't' :: 'r' :: 'u' :: 'e' :: rest => .ok (.bool true, rest)
  | 'f' :: 'a' :: 'l' :: 's' :: 'e' :: rest => .ok (.bool false, rest)
  | 'N' :: 'a' :: 'N' :: rest => .ok (.float (0 / 0), rest)
  | 'I' :: 'n' :: 'f' :: 'i' :: 'n' :: 'i' :: 't' :: 'y' :: rest => .ok (.float (1 / 0), rest)
  | '-' :: 'I' :: 'n' :: 'f' :: 'i' :: 'n' :: 'i' :: 't' :: 'y' :: rest =>
    .ok (.float (-1 / 0), rest)
  | _ => scanNumber s

/-- Reads a value with the given number of levels of nesting left. -/
def readValue (rounds : Nat) : (depth : Nat) → (s : List Char) → Scan Value
  | 0, s =>
    match s with
    | '[' :: _ => .error (.beyond .depth)
    | '\x7b' :: _ => .error (.beyond .depth)
    | _ => readScalar s
  | depth + 1, s =>
    match s with
    | '[' :: tail => readList (readValue rounds depth) rounds tail
    | '\x7b' :: tail => readObject (readValue rounds depth) rounds tail
    | _ => readScalar s

/-- Reads the value at the front of a text, with so many levels of lists and objects. -/
def readFront (levels rounds : Nat) (s : List Char) : Scan Value := readValue rounds levels s

/-- Reads a document: one value with nothing but blanks around it. -/
def readDocument (levels : Nat) (s : List Char) : Except Error Value :=
  match readFront levels s.length (skipGaps s) with
  | .error e => .error e
  | .ok (value, rest) =>
    match skipGaps rest with
    | [] => .ok value
    | extra => .error (.malformed .extraData extra)

/-- Reads a document from a text that may have kept its byte order mark, which is refused. -/
def read (levels : Nat) (s : List Char) : Except Error Value :=
  match s with
  | '\ufeff' :: _ => .error (.malformed .byteOrderMark s)
  | _ => readDocument levels s

/-- The offset of a fault in the document that was read. -/
def offset (document rest : List Char) : Nat := Text.size document - Text.size rest

/-! ## What is read is gone -/

/-- A reader leaves less than it is given. -/
def Consumes {α : Type} (scan : List Char → Scan α) : Prop :=
  ∀ s a rest, scan s = .ok (a, rest) → rest.length < s.length

theorem length_skipGaps_le (s : List Char) : (skipGaps s).length ≤ s.length :=
  (List.dropWhile_sublist _).length_le

theorem length_of_skipGaps {s rest : List Char} {c : Char} (h : skipGaps s = c :: rest) :
    rest.length < s.length := by
  have := length_skipGaps_le s
  rw [h] at this
  simp only [List.length_cons] at this
  omega

theorem splitDigits_length (s : List Char) : (splitDigits s).2.length ≤ s.length :=
  (List.dropWhile_sublist _).length_le

theorem splitMinus_length (s : List Char) : (splitMinus s).2.length ≤ s.length := by
  unfold splitMinus
  split <;> simp

theorem splitFraction_length (s : List Char) : (splitFraction s).2.length ≤ s.length := by
  unfold splitFraction
  split
  · split
    · rename_i c rest _
      have := splitDigits_length (c :: rest)
      simp only [List.length_cons] at this ⊢
      omega
    · exact Nat.le_refl _
  · exact Nat.le_refl _

theorem splitSign_length (s : List Char) : (Decimal.splitSign s).2.length ≤ s.length := by
  unfold Decimal.splitSign
  split <;> simp

theorem splitExponent_length (s : List Char) : (splitExponent s).2.length ≤ s.length := by
  unfold splitExponent
  split
  · rename_i mark rest
    have h1 := splitDigits_length (Decimal.splitSign rest).2
    have h2 := splitSign_length rest
    dsimp only
    split
    · simp only [List.length_cons]
      omega
    · exact Nat.le_refl _
  · exact Nat.le_refl _

theorem splitWhole?_length {s whole rest : List Char} (h : splitWhole? s = some (whole, rest)) :
    rest.length < s.length := by
  unfold splitWhole? at h
  split at h
  · simp only [Option.some.injEq, Prod.mk.injEq] at h
    simp [h.2]
  · rename_i c tail _
    split at h
    · rename_i hc
      simp only [splitDigits, hc, List.dropWhile_cons, if_true, Option.some.injEq,
        Prod.mk.injEq] at h
      have := (List.dropWhile_sublist (l := tail) Char.isDigit).length_le
      rw [h.2] at this
      simp only [List.length_cons]
      omega
    · simp at h
  · simp at h

/-- A number takes a character at the least. -/
theorem consumes_scanNumber : Consumes scanNumber := by
  intro s value rest h
  unfold scanNumber at h
  have h0 := splitMinus_length s
  split at h
  · simp at h
  · rename_i whole left hw
    have h1 := splitWhole?_length hw
    have h2 := splitFraction_length left
    have h3 := splitExponent_length (splitFraction left).2
    simp only at h
    split at h
    · simp at h
    · simp only [Except.ok.injEq, Prod.mk.injEq] at h
      rw [← h.2]
      omega

/-- A scalar takes a character at the least. -/
theorem consumes_readScalar : Consumes readScalar := by
  intro s value rest h
  unfold readScalar at h
  split at h
  · rename_i tail
    split at h
    · simp at h
    · rename_i hs
      simp only [Except.ok.injEq, Prod.mk.injEq] at h
      have := scanString_length hs
      rw [← h.2]
      simp only [List.length_cons]
      omega
  all_goals first
    | exact consumes_scanNumber _ _ _ h
    | (simp only [Except.ok.injEq, Prod.mk.injEq] at h
       rw [← h.2]
       simp only [List.length_cons]
       omega)

/-- Items take a character at the least if each of them does. -/
theorem consumes_readItems {element : List Char → Scan Value} (he : Consumes element)
    (rounds : Nat) (done : List Value) : Consumes fun s => readItems element rounds s done := by
  intro s value rest h
  simp only at h
  induction rounds generalizing s done with
  | zero => simp [readItems] at h
  | succ rounds ih =>
    unfold readItems at h
    split at h
    · simp at h
    · rename_i item left hitem
      have h1 := he _ _ _ hitem
      split at h
      · rename_i hg
        simp only [Except.ok.injEq, Prod.mk.injEq] at h
        have := length_of_skipGaps hg
        rw [← h.2]
        omega
      · rename_i more hg
        have h2 := length_of_skipGaps hg
        have h3 := length_skipGaps_le more
        have h4 := ih _ _ h
        omega
      · simp at h

/-- Fields take a character at the least if each of their values does. -/
theorem consumes_readFields {element : List Char → Scan Value} (he : Consumes element)
    (rounds : Nat) (done : Fields) : Consumes fun s => readFields element rounds s done := by
  intro s value rest h
  simp only at h
  induction rounds generalizing s done with
  | zero => simp [readFields] at h
  | succ rounds ih =>
    unfold readFields at h
    split at h
    · rename_i tail
      split at h
      · simp at h
      · rename_i name left hs
        have h1 := scanString_length hs
        split at h
        · rename_i afterColon hc
          have h2 := length_of_skipGaps hc
          split at h
          · simp at h
          · rename_i item left' hitem
            have h3 := he _ _ _ hitem
            have h4 := length_skipGaps_le afterColon
            split at h
            · rename_i hg
              simp only [Except.ok.injEq, Prod.mk.injEq] at h
              have := length_of_skipGaps hg
              rw [← h.2]
              simp only [List.length_cons]
              omega
            · rename_i more hg
              have h5 := length_of_skipGaps hg
              have h6 := length_skipGaps_le more
              have h7 := ih _ _ h
              simp only [List.length_cons]
              omega
            · simp at h
        · simp at h
    · simp at h

/-- A value takes a character at the least. -/
theorem consumes_readValue (rounds depth : Nat) : Consumes (readValue rounds depth) := by
  induction depth with
  | zero =>
    intro s value rest h
    unfold readValue at h
    split at h
    · simp at h
    · simp at h
    · exact consumes_readScalar _ _ _ h
  | succ depth ih =>
    intro s value rest h
    unfold readValue at h
    split at h
    · rename_i tail
      unfold readList at h
      have hle := length_skipGaps_le tail
      split at h
      · rename_i hg
        simp only [Except.ok.injEq, Prod.mk.injEq] at h
        have := length_of_skipGaps hg
        rw [← h.2]
        simp only [List.length_cons]
        omega
      · have := consumes_readItems ih rounds [] _ _ _ h
        simp only [List.length_cons]
        omega
    · rename_i tail
      unfold readObject at h
      have hle := length_skipGaps_le tail
      split at h
      · rename_i hg
        simp only [Except.ok.injEq, Prod.mk.injEq] at h
        have := length_of_skipGaps hg
        rw [← h.2]
        simp only [List.length_cons]
        omega
      · have := consumes_readFields ih rounds [] _ _ _ h
        simp only [List.length_cons]
        omega
    · exact consumes_readScalar _ _ _ h

/-- Reading the value at the front of a text leaves less than the text. -/
theorem consumes_readFront (levels rounds : Nat) : Consumes (readFront levels rounds) :=
  consumes_readValue rounds levels

end MeetDesk.Json
