import MeetDesk.Decimal.Scaled

/-!
# Dates and moments

The two calendar cells that a store may return. Both have a text with the usual dashes and colons;
how the date and the time of a moment are joined, and how its offset is written, is a matter of the
layout.
-/

namespace MeetDesk

/-- A calendar date. -/
structure Date where
  /-- The year. -/
  year : Nat
  /-- The month, from one. -/
  month : Nat
  /-- The day of the month, from one. -/
  day : Nat
  deriving DecidableEq, Repr

/-- A date with a time of day. -/
structure Moment where
  /-- The date. -/
  date : Date
  /-- The hour, from zero. -/
  hour : Nat
  /-- The minute. -/
  minute : Nat
  /-- The second. -/
  second : Nat
  /-- Millionths of a second. -/
  micro : Nat
  /-- The millionths of a second by which the clock is ahead of the universal one, if that is known. -/
  offset? : Option Int := none
  deriving DecidableEq, Repr

open Decimal (padded digitsValue)

/-- Year, month and day with dashes. -/
def Date.render (d : Date) : String :=
  padded 4 d.year ++ "-" ++ padded 2 d.month ++ "-" ++ padded 2 d.day

/-- How moments are written. -/
structure MomentLayout where
  /-- What stands between the date and the time of day. -/
  separator : String
  /-- What stands for the offset of the universal clock itself. -/
  universal : String
  /-- Whether the seconds of an offset are written, if there are any. -/
  offsetSeconds : Bool
  deriving DecidableEq, Repr

/-- The layout of a moment in a message. -/
def MomentLayout.plain : MomentLayout := ⟨" ", "+00:00", true⟩

/-- The layout of a moment in the body of an answer. -/
def MomentLayout.body : MomentLayout := ⟨"T", "Z", false⟩

/-- Millionths of a second behind a point, if there are any. -/
def renderFraction (micro : Nat) : String := if micro = 0 then "" else "." ++ padded 6 micro

/-- The text of an offset from the universal clock. Where its seconds are not written, it counts as
the whole seconds that it has begun, from below. -/
def MomentLayout.offset (l : MomentLayout) (offset : Int) : String :=
  let offset := if l.offsetSeconds then offset else offset / 1000000 * 1000000
  let micro := offset.natAbs % 1000000
  let n := offset.natAbs / 1000000
  let seconds :=
    if l.offsetSeconds && (n % 60 != 0 || micro != 0) then
      ":" ++ padded 2 (n % 60) ++ renderFraction micro
    else ""
  if offset = 0 then l.universal
  else (if offset < 0 then "-" else "+") ++ padded 2 (n / 3600) ++ ":" ++ padded 2 (n / 60 % 60) ++
    seconds

/-- Date and time of day; the millionths are written only if there are any. -/
def Moment.render (l : MomentLayout) (m : Moment) : String :=
  m.date.render ++ l.separator ++ padded 2 m.hour ++ ":" ++ padded 2 m.minute ++ ":" ++
    padded 2 m.second ++ renderFraction m.micro ++ (m.offset?.map l.offset).getD ""

/-- The numbers that count for a moment: seconds and millionths are left out from the end while
they are zero. -/
def Moment.parts (m : Moment) : List Nat :=
  let time :=
    if m.micro ≠ 0 then [m.hour, m.minute, m.second, m.micro]
    else if m.second ≠ 0 then [m.hour, m.minute, m.second]
    else [m.hour, m.minute]
  [m.date.year, m.date.month, m.date.day] ++ time

/-! ## Reading -/

/-- Whether a year has a leap day. -/
def isLeapYear (year : Nat) : Bool := (year % 4 == 0 && year % 100 != 0) || year % 400 == 0

/-- The number of days of a month. -/
def daysIn (year month : Nat) : Nat :=
  if month = 2 then (if isLeapYear year then 29 else 28)
  else if month ∈ [4, 6, 9, 11] then 30
  else 31

/-- Reads exactly `n` digits off the front of a text. -/
def takeDigits? (n : Nat) (s : List Char) : Option (Nat × List Char) :=
  let digits := s.take n
  if digits.length = n ∧ digits.all Char.isDigit then some (digitsValue digits, s.drop n) else none

/-- Reads a year, a month and a day off the front of a text, with dashes between them or with
nothing. -/
def takeDate? (s : List Char) : Option (Date × List Char) := do
  let (year, rest) ← takeDigits? 4 s
  let (month, rest) ← takeDigits? 2 (if rest.head? == some '-' then rest.tail else rest)
  let dashed := s[4]? == some '-'
  if dashed && rest.head? != some '-' then none
  else
    let (day, rest) ← takeDigits? 2 (if dashed then rest.tail else rest)
    return (⟨year, month, day⟩, rest)

/-- Reads the parts of a time of day that follow the hour: at most `parts` of them, each behind a colon
if `separated`. A fraction ends them. -/
def takeParts? (separated : Bool) : (parts : Nat) → List Char → Option (List Nat × List Char)
  | 0, s => some ([], s)
  | _ + 1, [] => some ([], [])
  | parts + 1, c :: rest => do
    if c == '.' || c == ',' then return ([], c :: rest)
    else if separated && c != ':' then none
    else
      let (part, left) ← takeDigits? 2 (if separated then rest else c :: rest)
      let (more, left) ← takeParts? separated parts left
      return (part :: more, left)

/-- The millionths that a run of fraction digits stands for. -/
def microsOf (digits : List Char) : Nat :=
  digitsValue ((digits ++ List.replicate 6 '0').take 6)

/-- Reads the fraction of a second, or nothing. -/
def fraction? : List Char → Option Nat
  | [] => some 0
  | mark :: digits =>
    if (mark == '.' || mark == ',') && !digits.isEmpty && digits.all Char.isDigit then
      some (microsOf digits)
    else none

/-- A time of day: its hour, minute, second and millionths. -/
abbrev Clock := Nat × Nat × Nat × Nat

/-- Reads a time of day, with colons between its parts or with nothing. -/
def clock? (s : List Char) : Option Clock := do
  let (hour, rest) ← takeDigits? 2 s
  let (parts, rest) ← takeParts? (rest.head? == some ':') 2 rest
  return (hour, parts.getD 0 0, parts.getD 1 0, ← fraction? rest)

/-- Reads an offset from the universal clock, or nothing. A fraction of a second alone counts for
nothing. -/
def zone? : List Char → Option (Option Int)
  | [] => some none
  | ['Z'] => some (some 0)
  | sign :: rest => do
    let (hour, minute, second, micro) ← clock? rest
    let whole := hour * 3600 + minute * 60 + second
    let size := if whole = 0 then 0 else whole * 1000000 + micro
    return some (Decimal.signed (sign == '-') size)

/-- Reads a date. -/
def Date.ofText? (s : String) : Option Date :=
  match takeDate? s.toList with
  | some (date, []) => some date
  | _ => none

/-- Reads a moment: a date and, behind any separator, a time of day and an offset. -/
def Moment.ofText? (s : String) : Option Moment := do
  let (date, rest) ← takeDate? s.toList
  if rest.length ≤ 1 then return { date, hour := 0, minute := 0, second := 0, micro := 0 }
  else
    let (time, zone) := rest.tail.span fun c => c != '+' && c != '-' && c != 'Z'
    let (hour, minute, second, micro) ← clock? time
    return { date, hour, minute, second, micro, offset? := ← zone? zone }

end MeetDesk
