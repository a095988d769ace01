/-!
# Floats as exact numbers

A float is not a number, an infinity, or an exact dyadic number `m · 2 ^ e` with a sign. Everything
that needs the exact value of a float (its shortest decimal text, whether it is whole, its integer
part) goes through `Reading`, in exact arithmetic.
-/

namespace MeetDesk.Decimal

/-- The magnitude `mantissa · 2 ^ exponent` of a finite float. -/
structure Dyadic where
  /-- The mantissa, below `2 ^ 53`. -/
  mantissa : Nat
  /-- The exponent of two. -/
  exponent : Int
  deriving DecidableEq, Repr

/-- What a float stands for. -/
inductive Reading where
  /-- Not a number. -/
  | nan
  /-- One of the two infinities. -/
  | infinite (negative : Bool)
  /-- A number; the sign is kept for zero too. -/
  | finite (negative : Bool) (magnitude : Dyadic)
  deriving DecidableEq, Repr

/-- The sign, exponent and mantissa fields of a bit pattern, interpreted. -/
def readBits (bits : Nat) : Reading :=
  let negative := decide (bits / Nat.pow 2 63 % 2 = 1)
  let field : Nat := bits / Nat.pow 2 52 % Nat.pow 2 11
  let fraction : Nat := bits % Nat.pow 2 52
  if field = 2047 then
    if fraction = 0 then .infinite negative else .nan
  else if field = 0 then .finite negative ⟨fraction, -1074⟩
  else .finite negative ⟨fraction + Nat.pow 2 52, (field : Int) - 1075⟩

/-- What a float stands for. -/
def Reading.ofFloat (x : Float) : Reading := readBits x.toBits.toNat

/-- The numerator of the magnitude over `denominator`. -/
def Dyadic.numerator (d : Dyadic) : Nat := d.mantissa * Nat.pow 2 d.exponent.toNat

/-- The denominator of the magnitude, a power of two. -/
def Dyadic.denominator (d : Dyadic) : Nat := Nat.pow 2 (-d.exponent).toNat

/-- The integer part of the magnitude. -/
def Dyadic.floor (d : Dyadic) : Nat := d.numerator / d.denominator

/-- Whether the magnitude is a whole number. -/
def Dyadic.isWhole (d : Dyadic) : Bool := d.numerator % d.denominator == 0

/-- A natural number with a sign. -/
def signed (negative : Bool) (n : Nat) : Int := if negative then -(n : Int) else n

/-- The float nearest to `mantissa · 10 ^ exponent`, with the given sign. -/
def nearestFloat (negative : Bool) (mantissa : Nat) (exponent : Int) : Float :=
  let magnitude := match exponent with
    | .ofNat e => Float.ofScientific mantissa false e
    | .negSucc e => Float.ofScientific mantissa true (e + 1)
  if negative then -magnitude else magnitude

/-- The float nearest to an integer, which is infinite from a certain size on. -/
def floatOfInt (n : Int) : Float := nearestFloat (decide (n < 0)) n.natAbs 0

end MeetDesk.Decimal
