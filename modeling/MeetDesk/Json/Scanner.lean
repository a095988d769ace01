import MeetDesk.Decimal.Nearest
import MeetDesk.Json.Error
import MeetDesk.Text.Units
import MeetDesk.Value

/-!
# The tokens of JSON

Strings and numbers are read off the front of a text; what is left comes back with them. Every
successful scan leaves less than it was given, which is what the readers of nested values end by.
-/

namespace MeetDesk.Json

open Text (isLeading isTrailing pairCode)

/-- The outcome of reading something off the front of a text: it and what is left, or an error. -/
abbrev Scan (α : Type) := Except Error (α × List Char)

/-- The blanks between tokens. -/
def isGap (c : Char) : Bool := c == ' ' || c == '\t' || c == '\n' || c == '\r'

/-- Drops the blanks before a token. -/
def skipGaps (s : List Char) : List Char := s.dropWhile isGap

/-- The value of a hexadecimal digit. -/
def hexValue? (c : Char) : Option Nat :=
  if '0' ≤ c ∧ c ≤ '9' then some (c.toNat - '0'.toNat)
  else if 'a' ≤ c ∧ c ≤ 'f' then some (c.toNat - 'a'.toNat + 10)
  else if 'A' ≤ c ∧ c ≤ 'F' then some (c.toNat - 'A'.toNat + 10)
  else none

/-- The sixteen-bit unit that four hexadecimal digits name. -/
def unit? (a b c d : Char) : Option Nat := do
  let a ← hexValue? a
  let b ← hexValue? b
  let c ← hexValue? c
  let d ← hexValue? d
  return ((a * 16 + b) * 16 + c) * 16 + d

/-- The character that an escape by letter stands for. -/
def escaped? : Char → Option Char
  | '"' => some '"'
  | '\\' => some '\\'
  | '/' => some '/'
  | 'b' => some '\x08'
  | 'f' => some '\x0c'
  | 'n' => some '\n'
  | 'r' => some '\r'
  | 't' => some '\t'
  | _ => none

/-- Reads an escape by number, from the letter that introduces it on. Two escapes that make a pair
are read as one code. -/
def scanUnit (s : List Char) : Scan Nat :=
  match s with
  | _ :: a :: b :: c :: d :: next :: rest =>
    match unit? a b c d with
    | none => .error (.malformed .badUnit s)
    | some u =>
      match next, rest with
      | '\\', 'u' :: a' :: b' :: c' :: d' :: next' :: rest' =>
        match unit? a' b' c' d' with
        | some u' =>
          if isLeading u && isTrailing u' then .ok (pairCode u u', next' :: rest')
          else .ok (u, next :: rest)
        | none => .ok (u, next :: rest)
      | _, _ => .ok (u, next :: rest)
  | _ => .error (.malformed .badUnit s)

/-- An escape by number leaves less than it was given. -/
theorem scanUnit_length {s rest : List Char} {n : Nat} (h : scanUnit s = .ok (n, rest)) :
    rest.length < s.length := by
  unfold scanUnit at h
  repeat' split at h
  all_goals first
    | (simp only [reduceCtorEq] at h)
    | (simp only [Except.ok.injEq, Prod.mk.injEq] at h
       obtain ⟨-, rfl⟩ := h
       simp only [List.length_cons]
       omega)

/-- Reads a string from behind its opening quote. `whole` is the text from that quote on, and `done`
holds the characters read so far, last one first. -/
def scanString (whole : List Char) (s : List Char) (done : List Char) : Scan String :=
  match s with
  | [] => .error (.malformed .unterminatedString whole)
  | '"' :: rest => .ok (String.ofList done.reverse, rest)
  | '\\' :: rest =>
    match rest with
    | [] => .error (.malformed .unterminatedString whole)
    | 'u' :: more =>
      match _h : scanUnit ('u' :: more) with
      | .error e => .error e
      | .ok (n, left) => scanString whole left ((Text.ofCode n).reverse ++ done)
    | e :: more =>
      match escaped? e with
      | some c => scanString whole more (c :: done)
      | none => .error (.malformed .unknownEscape s)
  | c :: rest =>
    if c.toNat < 0x20 then .error (.malformed .bareControl s)
    else scanString whole rest (c :: done)
termination_by s.length
decreasing_by
  · have := scanUnit_length _h
    simp only [List.length_cons] at this ⊢
    omega
  · simp only [List.length_cons]; omega
  · simp only [List.length_cons]; omega

/-- A string leaves less than it was given, counted from behind its opening quote. -/
theorem scanString_length {whole s done rest : List Char} {t : String}
    (h : scanString whole s done = .ok (t, rest)) : rest.length < s.length := by
  fun_induction scanString whole s done with
  | case1 => simp at h
  | case2 =>
    simp only [Except.ok.injEq, Prod.mk.injEq] at h
    simp [h.2]
  | case3 => simp at h
  | case4 => simp at h
  | case5 _ _ _ _ hu ih =>
    have h1 := ih h
    have h2 := scanUnit_length hu
    simp only [List.length_cons] at h2 ⊢
    omega
  | case6 _ _ _ _ _ _ ih =>
    have := ih h
    simp only [List.length_cons]
    omega
  | case7 => simp at h
  | case8 => simp at h
  | case9 _ _ _ _ _ _ ih =>
    have := ih h
    simp only [List.length_cons]
    omega

/-- A run of digits at the front of a text, and the rest. -/
def splitDigits (s : List Char) : List Char × List Char :=
  (s.takeWhile Char.isDigit, s.dropWhile Char.isDigit)

/-- The minus of a negative number, and the rest. -/
def splitMinus : List Char → Bool × List Char
  | '-' :: rest => (true, rest)
  | s => (false, s)

/-- The whole part of a number: a zero, or digits that start with another one. -/
def splitWhole? : List Char → Option (List Char × List Char)
  | '0' :: rest => some (['0'], rest)
  | c :: rest => if c.isDigit then some (splitDigits (c :: rest)) else none
  | [] => none

/-- The fraction of a number: a point with at least one digit behind it. -/
def splitFraction : List Char → List Char × List Char
  | '.' :: c :: rest => if c.isDigit then splitDigits (c :: rest) else ([], '.' :: c :: rest)
  | s => ([], s)

/-- The exponent of a number: a letter, perhaps a sign, and at least one digit. -/
def splitExponent (s : List Char) : Option Int × List Char :=
  match s with
  | mark :: rest =>
    let sign := Decimal.splitSign rest
    let run := splitDigits sign.2
    if (mark == 'e' || mark == 'E') && !run.1.isEmpty then
      (some (Decimal.signed sign.1 (Decimal.exponentValue run.1)), run.2)
    else (none, s)
  | [] => (none, [])

/-- The number with the given parts: a float if it has a fraction or an exponent, else an
integer. -/
def assemble (negative : Bool) (whole fraction : List Char) (exponent? : Option Int) :
    Except Error Value :=
  if fraction.isEmpty && exponent?.isNone then
    if whole.length > maxDigits then .error (.beyond (.digits whole.length))
    else .ok (.int (Decimal.signed negative (Decimal.digitsValue whole)))
  else
    let exponent := exponent?.getD 0 - fraction.length
    .ok (.float (Decimal.floatOfDigits negative (whole ++ fraction) exponent))

/-- Reads a number. -/
def scanNumber (s : List Char) : Scan Value :=
  match splitWhole? (splitMinus s).2 with
  | none => .error (.malformed .valueExpected s)
  | some (whole, afterWhole) =>
    let fraction := splitFraction afterWhole
    let exponent := splitExponent fraction.2
    match assemble (splitMinus s).1 whole fraction.1 exponent.1 with
    | .error e => .error e
    | .ok value => .ok (value, exponent.2)

end MeetDesk.Json
