/-!
# Texts and their codes

A text is a sequence of codes. A code is the number of a character, or one of the numbers between
`0xD800` and `0xE000` that belong to no character: in a text of sixteen-bit units a character beyond
the first plane takes two units from that range, and half of such a pair can lose the other half.

A text is kept in a `String`. A half is kept as two characters, a mark and a private character behind
it; the mark is a noncharacter, which is free for such use, and where it stands for itself it is kept
twice. So every text has one kept form, and `codes` reads it back (`codes_ofCodes`).
-/

namespace MeetDesk.Text

/-- The first unit of a pair. -/
def isLeading (u : Nat) : Bool := decide (0xD800 ≤ u ∧ u < 0xDC00)

/-- The second unit of a pair. -/
def isTrailing (u : Nat) : Bool := decide (0xDC00 ≤ u ∧ u < 0xE000)

/-- Whether a code is half of a pair. -/
def isHalf (n : Nat) : Bool := decide (0xD800 ≤ n ∧ n < 0xE000)

/-- The code that a pair of units encodes. -/
def pairCode (leading trailing : Nat) : Nat :=
  0x10000 + (leading - 0xD800) * 0x400 + (trailing - 0xDC00)

/-- The codes that units encode. -/
def ofUnits : List Nat → List Nat
  | [] => []
  | [u] => [u]
  | u :: v :: rest =>
    if isLeading u && isTrailing v then pairCode u v :: ofUnits rest
    else u :: ofUnits (v :: rest)

/-! ## The kept form -/

/-- The character that announces that the next one does not stand for itself. -/
def mark : Char := Char.ofNat 0x10FFFF

/-- How far behind a half the private character lies by which it is kept. -/
def halfOffset : Nat := 0x800

/-- The characters by which a code is kept. -/
def ofCode (n : Nat) : List Char :=
  if isHalf n then [mark, Char.ofNat (n + halfOffset)]
  else if n = mark.toNat then [mark, mark]
  else [Char.ofNat n]

/-- The characters by which codes are kept. -/
def ofCodes (codes : List Nat) : List Char := codes.flatMap ofCode

/-- The code of the character behind a mark. -/
def markedCode (c : Char) : Nat := if c = mark then mark.toNat else c.toNat - halfOffset

/-- Reads the codes of a text; `done` holds those read so far, the last one first. -/
def readCodes (done : List Nat) : List Char → List Nat
  | [] => done.reverse
  | [c] => (c.toNat :: done).reverse
  | c :: d :: rest =>
    if c = mark then readCodes (markedCode d :: done) rest
    else readCodes (c.toNat :: done) (d :: rest)

/-- The codes of a text. -/
def codes (s : List Char) : List Nat := readCodes [] s

/-- The text that is made of the given characters. -/
def ofChars (cs : List Char) : List Char := ofCodes (cs.map Char.toNat)

/-- The number of codes in a text. -/
def size (s : List Char) : Nat := (codes s).length

/-- Whether a text is made of characters only, with no half of a pair in it. -/
def isWhole (s : String) : Bool := !(codes s.toList).any isHalf

/-- The characters that a text is made of, if it has no half of a pair in it. -/
def chars? (s : List Char) : Option (List Char) :=
  if (codes s).any isHalf then none else some ((codes s).map Char.ofNat)

/-! ## What is kept is read back -/

/-- A code of a text: the number of a character, or half of a pair. -/
def IsCode (n : Nat) : Prop := n < 0x110000

theorem toNat_ofNat {n : Nat} (h : n.isValidChar) : (Char.ofNat n).toNat = n := by
  rw [Char.ofNat, dif_pos h]
  rfl

theorem isValidChar_of_not_isHalf {n : Nat} (hn : IsCode n) (h : isHalf n = false) :
    n.isValidChar := by
  simp only [IsCode, isHalf, decide_eq_false_iff_not] at hn h
  simp only [Nat.isValidChar]
  omega

theorem toNat_mark : mark.toNat = 0x10FFFF := by decide

/-- A half lies behind its private character by the offset. -/
theorem markedCode_half {n : Nat} (h : isHalf n = true) :
    markedCode (Char.ofNat (n + halfOffset)) = n := by
  simp only [isHalf, decide_eq_true_eq] at h
  have hv : (n + halfOffset).isValidChar := by simp only [Nat.isValidChar, halfOffset]; omega
  have hc := toNat_ofNat hv
  have hm : Char.ofNat (n + halfOffset) ≠ mark := by
    intro e
    rw [e, toNat_mark, halfOffset] at hc
    omega
  rw [markedCode, if_neg hm, hc, halfOffset]
  omega

/-- A code that was kept is the first to be read; what follows it is read on its own. -/
theorem readCodes_ofCode_append {n : Nat} (hn : IsCode n) (done : List Nat) (rest : List Char) :
    readCodes done (ofCode n ++ rest) = readCodes (n :: done) rest := by
  unfold ofCode
  by_cases hh : isHalf n = true
  · simp [hh, readCodes, markedCode_half hh]
  · have hh' : isHalf n = false := by simpa using hh
    have hv := toNat_ofNat (isValidChar_of_not_isHalf hn hh')
    by_cases hm : n = mark.toNat
    · subst hm
      simp [hh', readCodes, markedCode]
    · have hc : Char.ofNat n ≠ mark := fun e => hm (by rw [← e, hv])
      cases rest with
      | nil => simp [hh', hm, readCodes, hv]
      | cons d rest => simp [hh', hm, readCodes, hc, hv]

/-- The codes that were kept are read behind those read before. -/
theorem readCodes_ofCodes {ns : List Nat} (h : ∀ n ∈ ns, IsCode n) (done : List Nat) :
    readCodes done (ofCodes ns) = done.reverse ++ ns := by
  induction ns generalizing done with
  | nil => simp [ofCodes, readCodes]
  | cons n rest ih =>
    have hr := ih (fun m hm => h m (List.mem_cons_of_mem _ hm)) (n :: done)
    simp only [ofCodes, List.flatMap_cons] at hr ⊢
    rw [readCodes_ofCode_append (h n List.mem_cons_self), hr]
    simp

/-- The kept form of codes holds just these codes. -/
theorem codes_ofCodes {ns : List Nat} (h : ∀ n ∈ ns, IsCode n) : codes (ofCodes ns) = ns := by
  simpa [codes] using readCodes_ofCodes h []

example : codes (ofCodes [0xDE00, 0x10FFFF, 0xD83D]) = [0xDE00, 0x10FFFF, 0xD83D] := by
  decide +kernel

end MeetDesk.Text
