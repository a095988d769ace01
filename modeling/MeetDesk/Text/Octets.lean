import MeetDesk.Text.Units

/-!
# Texts as octets

UTF-8 is read leniently: an octet that belongs to no character is read as the replacement character.
UTF-16 and UTF-32 are read strictly, save that half of a pair may stand alone. Which of them encodes a
JSON document is seen from its first octets: the document starts with an ASCII character, so zeros
among the first four octets show how wide a character is and which of its octets comes first.
-/

namespace MeetDesk.Text

/-- What an octet at the start of a character announces: how many octets follow, its own share of
the code point, and the range of the first one that follows. -/
structure Lead where
  /-- The number of octets that follow. -/
  more : Nat
  /-- The bits of the code point in this octet. -/
  bits : Nat
  /-- The least first octet that may follow. -/
  low : Nat
  /-- The greatest first octet that may follow. -/
  high : Nat

/-- What an octet announces, if it can start a character. -/
def lead? (n : Nat) : Option Lead :=
  if n < 0x80 then some ⟨0, n, 0x80, 0xBF⟩
  else if 0xC2 ≤ n ∧ n ≤ 0xDF then some ⟨1, n - 0xC0, 0x80, 0xBF⟩
  else if n = 0xE0 then some ⟨2, 0, 0xA0, 0xBF⟩
  else if n = 0xED then some ⟨2, 0xD, 0x80, 0x9F⟩
  else if 0xE1 ≤ n ∧ n ≤ 0xEF then some ⟨2, n - 0xE0, 0x80, 0xBF⟩
  else if n = 0xF0 then some ⟨3, 0, 0x90, 0xBF⟩
  else if 0xF1 ≤ n ∧ n ≤ 0xF3 then some ⟨3, n - 0xF0, 0x80, 0xBF⟩
  else if n = 0xF4 then some ⟨3, 4, 0x80, 0x8F⟩
  else none

/-- Reads the octets that follow the first one of a character. Gives the character, or the
replacement character if the sequence breaks off, and what is left. -/
def followers : (more bits low high : Nat) → List UInt8 → Char × List UInt8
  | 0, bits, _, _, rest => (Char.ofNat bits, rest)
  | _ + 1, _, _, _, [] => ('\ufffd', [])
  | more + 1, bits, low, high, b :: rest =>
    if low ≤ b.toNat ∧ b.toNat ≤ high then
      followers more (bits * 64 + (b.toNat - 0x80)) 0x80 0xBF rest
    else ('\ufffd', b :: rest)

theorem length_followers_le (more bits low high : Nat) (s : List UInt8) :
    (followers more bits low high s).2.length ≤ s.length := by
  induction more generalizing bits low high s with
  | zero => simp [followers]
  | succ more ih =>
    cases s with
    | nil => simp [followers]
    | cons b rest =>
      simp only [followers]
      split
      · have := ih (bits * 64 + (b.toNat - 0x80)) 0x80 0xBF rest
        simp only [List.length_cons]
        omega
      · exact Nat.le_refl _

/-- Reads octets as UTF-8. -/
def decodeUtf8 (s : List UInt8) : List Char :=
  match s with
  | [] => []
  | b :: rest =>
    match lead? b.toNat with
    | none => '\ufffd' :: decodeUtf8 rest
    | some lead =>
      let read := followers lead.more lead.bits lead.low lead.high rest
      read.1 :: decodeUtf8 read.2
termination_by s.length
decreasing_by
  · simp
  · have := length_followers_le lead.more lead.bits lead.low lead.high rest
    simp only [List.length_cons]
    omega

/-- The number that two octets make, the more significant one first if `bigEndian`. -/
def wideUnit (bigEndian : Bool) (a b : UInt8) : Nat :=
  if bigEndian then a.toNat * 256 + b.toNat else b.toNat * 256 + a.toNat

/-- The sixteen-bit units that octets make, if their number is even. -/
def unitsOf? (bigEndian : Bool) : List UInt8 → Option (List Nat)
  | [] => some []
  | [_] => none
  | a :: b :: rest => (unitsOf? bigEndian rest).map (wideUnit bigEndian a b :: ·)

/-- Reads octets as UTF-16. -/
def decodeUtf16? (bigEndian : Bool) (s : List UInt8) : Option (List Nat) :=
  (unitsOf? bigEndian s).map ofUnits

/-- Reads octets as UTF-32. -/
def decodeUtf32? (bigEndian : Bool) : List UInt8 → Option (List Nat)
  | [] => some []
  | a :: b :: c :: d :: rest =>
    let first := wideUnit bigEndian a b
    let second := wideUnit bigEndian c d
    let code := if bigEndian then first * 0x10000 + second else second * 0x10000 + first
    if code < 0x110000 then (decodeUtf32? bigEndian rest).map (code :: ·) else none
  | _ => none

/-- How the characters of a document are encoded. -/
inductive Encoding where
  /-- In one to four octets. -/
  | utf8
  /-- In units of two octets. -/
  | utf16 (bigEndian : Bool)
  /-- In four octets. -/
  | utf32 (bigEndian : Bool)
  deriving DecidableEq, Repr

/-- The encoding of a JSON document. -/
def Encoding.ofDocument (s : List UInt8) : Encoding :=
  match (s.take 4).map UInt8.toNat with
  | [0, 0, _, _] => .utf32 true
  | [0, _, _, _] => .utf16 true
  | [_, 0, 0, 0] => .utf32 false
  | [_, 0, _, _] => .utf16 false
  | [0, _] => .utf16 true
  | [_, 0] => .utf16 false
  | _ => .utf8

/-- The text of a JSON document. A byte order mark before UTF-8 is passed over. -/
def decodeDocument? (s : List UInt8) : Option (List Char) :=
  match Encoding.ofDocument s with
  | .utf16 bigEndian => (decodeUtf16? bigEndian s).map ofCodes
  | .utf32 bigEndian => (decodeUtf32? bigEndian s).map ofCodes
  | .utf8 =>
    match decodeUtf8 s with
    | '\ufeff' :: rest => some (ofChars rest)
    | all => some (ofChars all)

/-- The octets that encode a text in UTF-8. Half of a pair has none. -/
def encodeUtf8? (s : List Char) : Option (List UInt8) :=
  (chars? s).map fun cs => (String.ofList cs).toUTF8.toList

end MeetDesk.Text
