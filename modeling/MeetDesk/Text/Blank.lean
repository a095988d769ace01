/-!
# Blank characters

Two classes of blanks are in use. `isBlank` decides where words end and what is stripped from the
ends of a text; `isWhite` is the narrower class that the readers of numbers strip. They differ in
the four information separators only.

Texts are handled as lists of characters, so that a function on them is a recursion on the list.
-/

namespace MeetDesk.Text

/-- The blank code points, as closed ranges. -/
def blankRanges : List (Nat × Nat) :=
  [(0x09, 0x0D), (0x1C, 0x20), (0x85, 0x85), (0xA0, 0xA0), (0x1680, 0x1680), (0x2000, 0x200A),
   (0x2028, 0x2029), (0x202F, 0x202F), (0x205F, 0x205F), (0x3000, 0x3000)]

/-- Whether a code point lies in one of the given closed ranges. -/
def within (ranges : List (Nat × Nat)) (n : Nat) : Bool :=
  ranges.any fun r => decide (r.1 ≤ n ∧ n ≤ r.2)

/-- A blank: it separates words and is stripped from the ends of a text. -/
def isBlank (c : Char) : Bool := within blankRanges c.toNat

/-- The information separators, the only blanks that are not white space. -/
def isSeparator (c : Char) : Bool := decide (0x1C ≤ c.toNat ∧ c.toNat ≤ 0x1F)

/-- White space: what surrounds a number without being part of it. -/
def isWhite (c : Char) : Bool := isBlank c && !isSeparator c

/-- Drops what satisfies `p` from both ends. -/
def trimBy (p : Char → Bool) (s : List Char) : List Char :=
  ((s.dropWhile p).reverse.dropWhile p).reverse

/-- Drops the blanks from both ends. -/
def trim (s : List Char) : List Char := trimBy isBlank s

/-- Drops the white space from both ends. -/
def trimWhite (s : List Char) : List Char := trimBy isWhite s

/-- The words of a text: its maximal runs of characters that are not blank. -/
def words (s : List Char) : List (List Char) :=
  (s.splitOnP isBlank).filter fun w => !w.isEmpty

/-- `trim` on strings. -/
def strip (s : String) : String := String.ofList (trim s.toList)

/-- What is left at the front of a trimmed text is not blank. -/
theorem head?_trim_not_blank {s : List Char} {c : Char} (h : (trim s).head? = some c) :
    isBlank c = false := by
  have key : ∀ l : List Char, ∀ r : List Char, (l.reverse.dropWhile isBlank).reverse = r →
      ∃ t, l = r ++ t := by
    intro l r hr
    refine ⟨(l.reverse.takeWhile isBlank).reverse, ?_⟩
    rw [← hr, ← List.reverse_append, List.takeWhile_append_dropWhile, List.reverse_reverse]
  obtain ⟨t, ht⟩ := key (s.dropWhile isBlank) (trim s) rfl
  cases hs : trim s with
  | nil => simp [hs] at h
  | cons d r =>
    have hd : d = c := by simpa [hs] using h
    subst hd
    have hhead : (s.dropWhile isBlank).head? = some d := by rw [ht, hs]; rfl
    have := List.head?_dropWhile_not isBlank s
    simpa [hhead] using this

end MeetDesk.Text
