import MeetDesk.Text.Octets
import MeetDesk.Text.Quoted

/-!
# Stray octets

What surrounds a program holds octets, not characters. A text goes there in UTF-8, which has no form
for half of a pair. The second halves from `0xDC80` to `0xDCFF` go there all the same: each of them
stands for an octet that is part of no character, and is what such an octet is read as. So octets come
back as they were, but halves that happen to spell a character come back as that character.
-/

namespace MeetDesk.Text

/-- Halves in a row that have no form in UTF-8. -/
structure HalfRun where
  /-- The number of codes before them. -/
  place : Nat
  /-- The halves. -/
  halves : List Nat
  deriving DecidableEq, Repr

/-- The message for halves that have no form. A half alone is shown. -/
def HalfRun.message (r : HalfRun) : String :=
  let last := r.place + r.halves.length - 1
  let found := match r.halves with
    | [n] => "character '\\u" ++ String.ofList (hex 4 n) ++ "' in position " ++ toString r.place
    | _ => "characters in position " ++ toString r.place ++ "-" ++ toString last
  "'utf-8' codec can't encode " ++ found ++ ": surrogates not allowed"

/-- The octet that a half stands for, if it stands for one. -/
def strayOctet? (n : Nat) : Option UInt8 :=
  if 0xDC80 ≤ n ∧ n ≤ 0xDCFF then some (UInt8.ofNat (n - 0xDC00)) else none

/-- The first half that has no form, and the halves behind it. `hasForm` tells which halves have one. -/
def firstHalves? (hasForm : Nat → Bool) (codes : List Nat) : Option HalfRun :=
  let place := codes.findIdx fun n => isHalf n && !hasForm n
  let halves := (codes.drop place).takeWhile isHalf
  if halves.isEmpty then none else some ⟨place, halves⟩

/-- The halves in a text that keep it from being encoded. -/
def unencodable? (s : String) : Option HalfRun := firstHalves? (fun _ => false) (codes s.toList)

/-- The halves in a text that keep it from being encoded where stray octets are let pass. -/
def unkeepable? (s : String) : Option HalfRun :=
  firstHalves? (fun n => (strayOctet? n).isSome) (codes s.toList)

/-- The octets of a code. -/
def strayOctets (n : Nat) : List UInt8 :=
  match strayOctet? n with
  | some b => [b]
  | none => (String.singleton (Char.ofNat n)).toUTF8.toList

/-- Reads the octets that follow the first one of a character, unless one of them is missing. -/
def followers? : (more bits low high : Nat) → List UInt8 → Option (Nat × List UInt8)
  | 0, bits, _, _, rest => some (bits, rest)
  | _ + 1, _, _, _, [] => none
  | more + 1, bits, low, high, b :: rest =>
    if low ≤ b.toNat ∧ b.toNat ≤ high then
      followers? more (bits * 64 + (b.toNat - 0x80)) 0x80 0xBF rest
    else none

theorem length_le_of_followers? {more bits low high : Nat} {s : List UInt8} {r : Nat × List UInt8}
    (h : followers? more bits low high s = some r) : r.2.length ≤ s.length := by
  induction more generalizing bits low high s with
  | zero =>
    simp only [followers?, Option.some.injEq] at h
    subst h
    exact Nat.le_refl _
  | succ more ih =>
    cases s with
    | nil => simp [followers?] at h
    | cons b rest =>
      simp only [followers?] at h
      split at h
      · have := ih h
        simp only [List.length_cons]
        omega
      · simp at h

/-- The character at the front of octets, if there is one, and what is left. -/
def character? (b : UInt8) (rest : List UInt8) : Option (Nat × List UInt8) :=
  (lead? b.toNat).bind fun lead => followers? lead.more lead.bits lead.low lead.high rest

theorem length_le_of_character? {b : UInt8} {rest : List UInt8} {r : Nat × List UInt8}
    (h : character? b rest = some r) : r.2.length ≤ rest.length := by
  obtain ⟨lead, _, hr⟩ := Option.bind_eq_some_iff.1 h
  exact length_le_of_followers? hr

/-- Reads octets as UTF-8. A stray octet is read as the half that stands for it. -/
def decodeStray (s : List UInt8) : List Nat :=
  match s with
  | [] => []
  | b :: rest =>
    match h : character? b rest with
    | some r => r.1 :: decodeStray r.2
    | none => (0xDC00 + b.toNat) :: decodeStray rest
termination_by s.length
decreasing_by
  · have := length_le_of_character? h
    simp only [List.length_cons]
    omega
  · simp

/-- A text as it comes back from the octets that it is kept as. -/
def throughOctets (s : String) : String :=
  if isWhole s then s
  else String.ofList (ofCodes (decodeStray ((codes s.toList).flatMap strayOctets)))

end MeetDesk.Text
