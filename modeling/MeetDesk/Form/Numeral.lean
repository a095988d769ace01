import MeetDesk.Decimal.Nearest
import MeetDesk.Form.Problem
import MeetDesk.Json.Error
import MeetDesk.Text.Blank
import MeetDesk.Text.Case

/-!
# Numerals

Numbers that are written as texts. An integer has a plain form: a zero, or digits that do not start
with one, and perhaps a minus before them. A text that is not in plain form is tidied and tried once
more: the white space around it, a plus, the zeros that lead it, a fraction of zeros, and underscores
between its digits are dropped. A float is read with white space around it or with underscores in it,
but not with both; an exponent whose digits have come to a bound takes no more of them.
-/

namespace MeetDesk.Numeral

open Decimal (digitsValue floatOfDigits signed splitSign)

/-- Reads an integer in plain form. Too many digits are too many whatever follows them. -/
def plainInteger (s : List Char) : Except Problem Int :=
  let negative := s.head? == some '-'
  let body := if negative then s.tail else s
  let digits := body.takeWhile Char.isDigit
  if digits.head? == some '0' && digits.length != 1 then .error .unreadableInteger
  else if digits.length > Json.maxDigits then .error .oversizedInteger
  else if digits.isEmpty || digits.length != body.length then .error .unreadableInteger
  else .ok (signed negative (digitsValue digits))

/-- What is left of a numeral behind leading zeros and the underscores among them. The character
that was passed last stays before a point and at the end, and a minus may stand behind the zeros. -/
def passZeros (last : Char) : List Char → Option (List Char)
  | [] => some [last]
  | c :: rest =>
    if c = '0' ∨ c = '_' then passZeros c rest
    else if c.isDigit ∨ c = '-' then some (c :: rest)
    else if c = '.' then some (last :: c :: rest)
    else none

/-- Drops the zeros that lead a numeral, which starts with a digit. -/
def dropZeros? : List Char → Option (List Char)
  | [] => none
  | c :: rest =>
    if c = '0' then passZeros c rest
    else if c.isDigit then some (c :: rest)
    else none

/-- Drops a point with zeros, at least one, and nothing else behind it. -/
def dropZeroFraction (s : List Char) : List Char :=
  let fraction := (s.dropWhile (· != '.')).drop 1
  if !fraction.isEmpty && fraction.all (· == '0') then s.takeWhile (· != '.') else s

/-- Drops the underscores, which must stand between other characters, and one at a time. -/
def ungroup? (s : List Char) : Option (List Char) :=
  if (s.splitOnP (· == '_')).all fun group => !group.isEmpty then some (s.filter (· != '_'))
  else none

/-- Tidies a numeral that has no sign. -/
def tidyUnsigned? (s : List Char) : Option (List Char) :=
  (dropZeros? s).bind fun digits => ungroup? (dropZeroFraction digits)

/-- Tidies a numeral. -/
def tidy? (s : List Char) : Option (List Char) :=
  match Text.trimWhite s with
  | '-' :: rest => (tidyUnsigned? rest).map ('-' :: ·)
  | '+' :: rest => tidyUnsigned? rest
  | rest => tidyUnsigned? rest

/-- Reads an integer. Only of a text in plain form it is said that it has too many digits. -/
def integer (s : String) : Except Problem Int :=
  match plainInteger s.toList with
  | .error .unreadableInteger =>
    match (tidy? s.toList).map plainInteger with
    | some (.ok n) => .ok n
    | _ => .error .unreadableInteger
  | read => read

/-- From which size on an exponent takes no further digit. -/
def exponentBound : Nat := 65536

/-- The value of the digits of an exponent. Digits behind one that reaches the bound do not count. -/
def exponentOf (digits : List Char) : Nat :=
  digits.foldl (fun n c => if n < exponentBound then 10 * n + (c.toNat - '0'.toNat) else n) 0

/-- Reads digits with an optional point and an optional exponent. At least one digit must stand
around the point. -/
def decimal? (negative : Bool) (s : List Char) : Option Float :=
  let whole := s.takeWhile Char.isDigit
  let afterWhole := s.dropWhile Char.isDigit
  let fraction := match afterWhole with
    | '.' :: rest => rest.takeWhile Char.isDigit
    | _ => []
  let tail := match afterWhole with
    | '.' :: rest => rest.dropWhile Char.isDigit
    | rest => rest
  if (whole ++ fraction).isEmpty then none
  else
    match tail with
    | [] => some (floatOfDigits negative (whole ++ fraction) (-(fraction.length : Int)))
    | mark :: rest =>
      let unsigned := splitSign rest
      if (mark == 'e' || mark == 'E') && !unsigned.2.isEmpty && unsigned.2.all Char.isDigit then
        let exponent := signed unsigned.1 (exponentOf unsigned.2) - fraction.length
        some (floatOfDigits negative (whole ++ fraction) exponent)
      else none

/-- Reads a float in plain form: a sign, and a decimal or the word for an infinity or for what is
not a number. -/
def plainFloat? (s : List Char) : Option Float :=
  let unsigned := splitSign s
  let word := String.ofList (Text.lowerAscii unsigned.2)
  if word == "inf" || word == "infinity" then some (if unsigned.1 then -1 / 0 else 1 / 0)
  else if word == "nan" then some (0 / 0)
  else decimal? unsigned.1 unsigned.2

/-- Reads a float. -/
def float? (s : String) : Option Float :=
  match plainFloat? (Text.trimWhite s.toList) with
  | some x => some x
  | none => (ungroup? s.toList).bind plainFloat?

end MeetDesk.Numeral
