import MeetDesk.Form.Checked
import MeetDesk.Form.Numeral
import MeetDesk.Text.Units

/-!
# Reading loose values

How a loose value becomes a text, a number or a truth value. The readers are lenient where the
meaning is plain (`"7"` and `7.0` are the integer seven, `"yes"` is true) and refuse where it is not.
-/

namespace MeetDesk.Coercion

open Decimal (Reading signed)

/-- A reader of loose values. -/
abbrev Reader (α : Type) := Value → Checked α

/-- Reads a text. -/
def text : Reader String := fun v =>
  match v.text? with
  | some s => .valid s
  | none => .fault .notText v

/-- Reads a text by what it says. A text that is not made of characters only says nothing. -/
def written {α : Type} (otherwise : Problem) (interpret : String → Except Problem α) : Reader α :=
  fun v =>
    match v.text? with
    | none => .fault otherwise v
    | some s =>
      if !Text.isWhole s then .fault .brokenText v
      else
        match interpret s with
        | .ok a => .valid a
        | .error problem => .fault problem v

/-- Reads a text that is not empty. -/
def nonEmptyText : Reader String :=
  written .notText fun s => if s.isEmpty then .error .emptyText else .ok s

/-- The size from which on a float is no longer taken for an integer. -/
def wholeFloatBound : Nat := Nat.pow 2 63

/-- Reads an integer. -/
def integer : Reader Int := fun v =>
  match v with
  | .int n => .valid n
  | .bool b => .valid (if b then 1 else 0)
  | .float x =>
    match Reading.ofFloat x with
    | .nan => .fault .notFinite v
    | .infinite _ => .fault .notFinite v
    | .finite negative d =>
      if !d.isWhole then .fault .fractional v
      else if d.floor < wholeFloatBound then .valid (signed negative d.floor)
      else .fault .oversizedInteger v
  | _ => written .notInteger Numeral.integer v

/-- Reads a float. -/
def number : Reader Float := fun v =>
  match v with
  | .float x => .valid x
  | .bool b => .valid (if b then 1 else 0)
  | .int n =>
    let x := Decimal.floatOfInt n
    if x.isFinite then .valid x else .fault .notNumber v
  | _ => written .notNumber (fun s => (Numeral.float? s).elim (.error .unreadableNumber) .ok) v

/-- The words for true. -/
def trueWords : List String := ["1", "on", "t", "true", "y", "yes"]

/-- The words for false. -/
def falseWords : List String := ["0", "off", "f", "false", "n", "no"]

/-- Reads a truth value from an integer: one or zero. Other integers of machine size could have
been meant as one, larger ones could not. -/
def booleanOfInt (v : Value) (n : Int) : Checked Bool :=
  if n = 0 then .valid false
  else if n = 1 then .valid true
  else if -Int.pow 2 63 ≤ n ∧ n < Int.pow 2 63 then .fault .unreadableBoolean v
  else .fault .notBoolean v

/-- Reads a truth value from a text, in any case. -/
def booleanOfText (s : String) : Except Problem Bool :=
  let word := String.ofList (Text.lowerAscii s.toList)
  if trueWords.contains word then .ok true
  else if falseWords.contains word then .ok false
  else .error .unreadableBoolean

/-- Reads a truth value. -/
def boolean : Reader Bool := fun v =>
  match v with
  | .bool b => .valid b
  | .int n => booleanOfInt v n
  | .float x =>
    match Reading.ofFloat x with
    | .finite negative d =>
      if d.isWhole && decide (d.floor < wholeFloatBound) then
        booleanOfInt v (signed negative d.floor)
      else .fault .notBoolean v
    | _ => .fault .notBoolean v
  | _ => written .notBoolean booleanOfText v

/-- Reads one of several choices by its text. -/
def choice {α : Type} (choices : List String) (read? : String → Option α) : Reader α :=
  written (.notAmong choices) fun s => (read? s).elim (.error (.notAmong choices)) .ok

/-- Reads null as nothing. -/
def orNull {α : Type} (read : Reader α) : Reader (Option α) := fun v =>
  match v with
  | .null => .valid none
  | _ => some <$> read v

/-- Reads the items of a list, the first of them at the given place. -/
def items {α : Type} (read : Reader α) : (index : Nat) → List Value → Checked (List α)
  | _, [] => .valid []
  | index, v :: rest => List.cons <$> (read v).under (.item index) <*> items read (index + 1) rest

/-- Reads a list. -/
def list {α : Type} (read : Reader α) : Reader (List α) := fun v =>
  match v with
  | .list values => items read 0 values
  | .tuple values => items read 0 values
  | _ => .fault .notList v

/-- Reads an object. -/
def object : Reader Fields := fun v =>
  match v with
  | .object fields => .valid fields
  | _ => .fault .notObject v

/-- Reads a filled form with the given name. -/
def form {α : Type} (name : String) (read : Fields → Checked α) : Reader α := fun v =>
  match v with
  | .object fields => read fields
  | _ => .fault (.notForm name) v

end MeetDesk.Coercion
