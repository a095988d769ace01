import MeetDesk.Decimal.Layout

/-!
# Scaled decimals

A decimal as a store returns it: a coefficient and a power of ten that are both kept, so `720.50`
and `720.5` are different cells. Its text is positional unless the point would lie to the right of
the last digit or more than six places to the left of the first. A decimal cell can also hold an
infinity or what is not a number; the latter has a sign, may signal, and may carry a number that says
where it came from.
-/

namespace MeetDesk.Decimal

/-- The decimal `± coefficient · 10 ^ exponent`. -/
structure Scaled where
  /-- The sign, kept for zero too. -/
  negative : Bool
  /-- The digits, read as a whole number. -/
  coefficient : Nat
  /-- The exponent of ten. -/
  exponent : Int
  deriving DecidableEq, Repr

/-- The text of a scaled decimal. -/
def Scaled.render (d : Scaled) : String :=
  let digits := Nat.toDigits 10 d.coefficient
  let left : Int := digits.length + d.exponent
  let place : Int := if d.exponent ≤ 0 ∧ left > -6 then left else 1
  let body :=
    if place ≤ 0 then "0." ++ zeros (-place).toNat ++ String.ofList digits
    else if digits.length ≤ place.toNat then
      String.ofList digits ++ zeros (place.toNat - digits.length)
    else String.ofList (digits.take place.toNat) ++ "." ++ String.ofList (digits.drop place.toNat)
  let rest := left - place
  let tail := if rest = 0 then "" else (if rest < 0 then "E-" else "E+") ++ toString rest.natAbs
  (if d.negative then "-" else "") ++ body ++ tail

/-- The whole part of the magnitude, or `bound` if that is less. Powers of ten that could not change
the result are not formed. -/
def Scaled.floorUpTo (bound : Nat) (d : Scaled) : Nat :=
  if 0 ≤ d.exponent then min (d.coefficient * Nat.pow 10 (min d.exponent.toNat bound)) bound
  else
    let places := min (-d.exponent).toNat (Nat.toDigits 10 d.coefficient).length
    min (d.coefficient / Nat.pow 10 places) bound

/-- The value of a run of decimal digits. -/
def digitsValue (ds : List Char) : Nat := ds.foldl (fun n c => 10 * n + (c.toNat - '0'.toNat)) 0

/-- A sign and what follows it. -/
def splitSign : List Char → Bool × List Char
  | '-' :: r => (true, r)
  | '+' :: r => (false, r)
  | r => (false, r)

/-- Reads digits with an optional point and an optional exponent. -/
def Scaled.ofText? (s : String) : Option Scaled :=
  let (negative, body) := splitSign s.toList
  let (mantissa, tail) := body.span fun c => c.isDigit || c == '.'
  let (whole, fraction) := mantissa.span Char.isDigit
  let decimals := fraction.drop 1
  if (whole ++ decimals).isEmpty || decimals.contains '.' then none
  else
    let scale : Int := -(decimals.length : Int)
    match tail with
    | [] => some ⟨negative, digitsValue (whole ++ decimals), scale⟩
    | mark :: rest =>
      let (down, digits) := splitSign rest
      if (mark == 'e' || mark == 'E') && digits.all Char.isDigit && !digits.isEmpty then
        some ⟨negative, digitsValue (whole ++ decimals), scale + signed down (digitsValue digits)⟩
      else none

/-- What a decimal cell holds. -/
inductive Quantity where
  /-- A number. -/
  | finite (d : Scaled)
  /-- One of the two infinities. -/
  | infinite (negative : Bool)
  /-- Not a number: its sign, whether it signals, and what it carries, zero for nothing. -/
  | nan (negative signals : Bool) (carried : Nat)
  deriving DecidableEq, Repr

namespace Quantity

/-- The text of a quantity. -/
def render : Quantity → String
  | finite d => d.render
  | infinite negative => if negative then "-Infinity" else "Infinity"
  | nan negative signals carried =>
    (if negative then "-" else "") ++ (if signals then "sNaN" else "NaN") ++
      (if carried = 0 then "" else toString carried)

/-- Whether a quantity is a zero. -/
def isZero : Quantity → Bool
  | finite d => d.coefficient == 0
  | _ => false

/-- Reads what is not a number, from behind its sign: a word and perhaps digits. -/
def nanOfText? (negative : Bool) (s : List Char) : Option Quantity :=
  let word := (s.takeWhile Char.isAlpha).map Char.toLower
  let digits := s.dropWhile Char.isAlpha
  if !digits.all Char.isDigit then none
  else if word = "nan".toList then some (nan negative false (digitsValue digits))
  else if word = "snan".toList then some (nan negative true (digitsValue digits))
  else none

/-- Reads a quantity. -/
def ofText? (s : String) : Option Quantity :=
  let unsigned := splitSign s.toList
  let word := String.ofList (unsigned.2.map Char.toLower)
  if word == "inf" || word == "infinity" then some (infinite unsigned.1)
  else (nanOfText? unsigned.1 unsigned.2).or ((Scaled.ofText? s).map finite)

end Quantity

end MeetDesk.Decimal
