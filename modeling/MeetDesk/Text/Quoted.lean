import MeetDesk.Text.Printable
import MeetDesk.Text.Units

/-!
# Quoted texts

Names in messages are shown between quotes: single quotes, or double quotes where the text holds a
single quote and no double one. A backslash, the quote in use and whatever is not printable are
escaped, so a quoted text has one line and shows all that is in it.
-/

namespace MeetDesk.Text

/-- The hexadecimal digit of a number below sixteen. -/
def hexDigit (n : Nat) : Char := "0123456789abcdef".toList.getD n '0'

/-- The last `width` hexadecimal digits of a number. -/
def hex : (width : Nat) → (n : Nat) → List Char
  | 0, _ => []
  | w + 1, n => hex w (n / 16) ++ [hexDigit (n % 16)]

/-- The shortest of the three numeric escapes that can hold a code point. -/
def numericEscape (n : Nat) : List Char :=
  if n < 0x100 then '\\' :: 'x' :: hex 2 n
  else if n < 0x10000 then '\\' :: 'u' :: hex 4 n
  else '\\' :: 'U' :: hex 8 n

/-- The quote that surrounds a text. -/
def quoteFor (s : List Char) : Char :=
  if s.contains '\'' && !s.contains '"' then '"' else '\''

/-- One character of a quoted text. -/
def quotedChar (quote c : Char) : List Char :=
  if c = quote ∨ c = '\\' then ['\\', c]
  else if c = '\n' then ['\\', 'n']
  else if c = '\r' then ['\\', 'r']
  else if c = '\t' then ['\\', 't']
  else if isPrintable c then [c]
  else numericEscape c.toNat

/-- One code of a quoted text. Half of a pair is not printable. -/
def quotedCode (quote : Char) (n : Nat) : List Char :=
  if isHalf n then numericEscape n else quotedChar quote (Char.ofNat n)

/-- A text between quotes. -/
def quoted (s : String) : String :=
  let quote := quoteFor s.toList
  String.ofList (quote :: (codes s.toList).flatMap (quotedCode quote) ++ [quote])

end MeetDesk.Text
