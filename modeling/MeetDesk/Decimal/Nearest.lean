import MeetDesk.Decimal.Scaled

/-!
# The float nearest to a run of digits

The float nearest to a decimal depends on its first digits only. A point halfway between two floats has
fewer significant digits than are kept here, so it is among the decimals with that many digits, and a
longer decimal lies between two neighbours of them. All that counts of the digits behind the kept ones
is therefore whether one of them is not zero; one digit behind the kept ones says so.
-/

namespace MeetDesk.Decimal

/-- How many significant digits are kept. Halfway points have at most 768. -/
def keptDigits : Nat := 800

/-- The digits by which a run of digits is told from every halfway point: the kept ones, and one that
says whether a digit behind them is not zero. -/
def condensed (digits : List Char) : List Char :=
  let rest := digits.drop keptDigits
  if rest.isEmpty then digits
  else digits.take keptDigits ++ [if rest.all (· == '0') then '0' else '1']

/-- The float nearest to `digits · 10 ^ exponent`, with the given sign. -/
def floatOfDigits (negative : Bool) (digits : List Char) (exponent : Int) : Float :=
  let significant := digits.dropWhile (· == '0')
  let kept := condensed significant
  nearestFloat negative (digitsValue kept) (exponent + (significant.length - kept.length : Nat))

/-- The value of the digits of an exponent. From thirty significant digits on it makes no difference
how many follow: a number with such an exponent is beyond all floats or nearest to zero. -/
def exponentValue (digits : List Char) : Nat :=
  digitsValue ((digits.dropWhile (· == '0')).take 30)

end MeetDesk.Decimal
