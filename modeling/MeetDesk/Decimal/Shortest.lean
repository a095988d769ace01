import MeetDesk.Decimal.Binary

/-!
# The shortest decimal that reads back

Of all decimals that are rounded to a given float, `shortest` takes one from the coarsest power of
ten that has any, and of these the one nearest to the float. It therefore has the fewest digits that
identify the float.

The decimals that are rounded to `m · 2 ^ e` form an interval around it. Its ends lie half way to
the two neighbouring floats and belong to it when `m` is even, because halves are rounded to even.
If a power of ten has a multiple in the interval, then one of the two multiples next to the float
itself is in it, so only these are tried.
-/

namespace MeetDesk.Decimal

/-- The interval of numbers that are rounded to a float, over a common denominator. -/
structure Basin where
  /-- Numerator of the lower end. -/
  low : Nat
  /-- Numerator of the float itself. -/
  centre : Nat
  /-- Numerator of the upper end. -/
  high : Nat
  /-- The common denominator. -/
  denominator : Nat
  /-- Whether the ends belong to the interval. -/
  closed : Bool

/-- The interval of a positive dyadic number. The gap below a power of two is half the gap above
it, except at the bottom of the range. -/
def Dyadic.basin (d : Dyadic) : Basin :=
  let unit := Nat.pow 2 (d.exponent - 2).toNat
  let below := if d.mantissa = Nat.pow 2 52 ∧ d.exponent > -1074 then 1 else 2
  { low := (4 * d.mantissa - below) * unit
    centre := 4 * d.mantissa * unit
    high := (4 * d.mantissa + 2) * unit
    denominator := Nat.pow 2 (2 - d.exponent).toNat
    closed := decide (d.mantissa % 2 = 0) }

/-- Whether the number `n / b.denominator` lies in the interval. -/
def Basin.holds (b : Basin) (n : Nat) : Bool :=
  if b.closed then decide (b.low ≤ n ∧ n ≤ b.high) else decide (b.low < n ∧ n < b.high)

/-- The interval with everything multiplied by `10 ^ p`, so that `10 ^ -p` becomes one. -/
def Basin.scale (b : Basin) (p : Int) : Basin :=
  let factor := Nat.pow 10 p.toNat
  { b with
    low := b.low * factor
    centre := b.centre * factor
    high := b.high * factor
    denominator := b.denominator * Nat.pow 10 (-p).toNat }

/-- The whole number in the interval nearest to its centre, if there is one next to the centre;
of two at the same distance the even one. -/
def Basin.wholeNear? (b : Basin) : Option Nat :=
  let lower := b.centre / b.denominator
  let remainder := b.centre % b.denominator
  let lowerIn := b.holds (lower * b.denominator) && lower != 0
  let upperIn := b.holds ((lower + 1) * b.denominator)
  match lowerIn, upperIn with
  | true, true =>
    if 2 * remainder < b.denominator then some lower
    else if 2 * remainder = b.denominator ∧ lower % 2 = 0 then some lower
    else some (lower + 1)
  | true, false => some lower
  | false, true => some (lower + 1)
  | false, false => none

/-- A decimal `digits · 10 ^ exponent`. -/
structure Digits where
  /-- The digits, read as a whole number. -/
  digits : Nat
  /-- The exponent of ten. -/
  exponent : Int
  deriving DecidableEq, Repr

/-- The number of decimal digits. -/
def digitCount (n : Nat) : Nat := (Nat.toDigits 10 n).length

/-- A power of ten that is at least the number, within a factor of ten. -/
def Dyadic.topExponent (d : Dyadic) : Int :=
  if d.floor = 0 then -((digitCount (d.denominator / d.numerator) : Int) - 1)
  else digitCount d.floor

/-- Tries one power of ten after the other, coarsest first. Seventeen digits identify every float,
so the search ends within its steps. -/
def shortestFrom (b : Basin) : (steps : Nat) → (p : Int) → Digits
  | 0, p => ⟨0, p⟩
  | steps + 1, p =>
    match (b.scale (-p)).wholeNear? with
    | some n => ⟨n, p⟩
    | none => shortestFrom b steps (p - 1)

/-- The shortest decimal of a positive dyadic number. -/
def Dyadic.shortest (d : Dyadic) : Digits := shortestFrom d.basin 20 d.topExponent

end MeetDesk.Decimal
