import MeetDesk.Decimal.Shortest

/-!
# Decimal layout

How the shortest digits of a float are written: positionally or with an exponent, with which marks,
and what stands for the values that are no numbers. A `Layout` holds the decisions; `Layout.render`
carries them out.
-/

namespace MeetDesk.Decimal

/-- The decisions on the text of a float. -/
structure Layout where
  /-- The least decimal exponent that is written positionally. -/
  positionalFrom : Int
  /-- The greatest decimal exponent that is written positionally. -/
  positionalTo : Int
  /-- What follows a whole number in positional notation. -/
  wholeMark : String
  /-- The mark before an exponent. -/
  exponentMark : String
  /-- The least number of digits of an exponent. -/
  exponentWidth : Nat
  /-- The text for a value that is not a number. -/
  nan : String
  /-- The text for positive infinity; the negative one has a minus in front. -/
  infinity : String

/-- Floats in messages and answers. -/
def plain : Layout :=
  { positionalFrom := -4, positionalTo := 15, wholeMark := ".0", exponentMark := "e",
    exponentWidth := 2, nan := "nan", infinity := "inf" }

/-- Floats in JSON texts. -/
def json : Layout := { plain with nan := "NaN", infinity := "Infinity" }

/-- A number of zeros. -/
def zeros (n : Nat) : String := String.ofList (List.replicate n '0')

/-- A natural number with at least `width` digits. -/
def padded (width n : Nat) : String :=
  let digits := toString n
  zeros (width - digits.length) ++ digits

/-- A decimal in positional notation. -/
def Layout.positional (l : Layout) (d : Digits) : String :=
  let digits := Nat.toDigits 10 d.digits
  let whole : Int := digits.length + d.exponent
  if 0 ≤ d.exponent then String.ofList digits ++ zeros d.exponent.toNat ++ l.wholeMark
  else if 0 < whole then
    String.ofList (digits.take whole.toNat) ++ "." ++ String.ofList (digits.drop whole.toNat)
  else "0." ++ zeros (-whole).toNat ++ String.ofList digits

/-- A decimal with one digit before the point and an exponent. -/
def Layout.scientific (l : Layout) (d : Digits) : String :=
  let digits := Nat.toDigits 10 d.digits
  let exponent : Int := digits.length + d.exponent - 1
  let fraction := if digits.length ≤ 1 then "" else "." ++ String.ofList (digits.drop 1)
  let sign := if exponent < 0 then "-" else "+"
  String.ofList (digits.take 1) ++ fraction ++ l.exponentMark ++ sign ++
    padded l.exponentWidth exponent.natAbs

/-- The text of a positive decimal. -/
def Layout.number (l : Layout) (d : Digits) : String :=
  let exponent : Int := digitCount d.digits + d.exponent - 1
  if l.positionalFrom ≤ exponent ∧ exponent ≤ l.positionalTo then l.positional d else l.scientific d

/-- The text of a float. -/
def Layout.render (l : Layout) (x : Float) : String :=
  match Reading.ofFloat x with
  | .nan => l.nan
  | .infinite negative => if negative then "-" ++ l.infinity else l.infinity
  | .finite negative d =>
    let body := if d.mantissa = 0 then "0" ++ l.wholeMark else l.number d.shortest
    if negative then "-" ++ body else body

end MeetDesk.Decimal
