import MeetDesk.Json.Printer
import MeetDesk.Json.Scanner

/-!
# Strings and their escapes

A string that is written is read back code by code. The one thing that can go wrong is that two codes
are read as one: a leading unit that is directly followed by a trailing one is read as the pair that
they make. A text without such neighbours survives.
-/

namespace MeetDesk

namespace Text

/-- Whether a leading unit is directly followed by a trailing one. -/
def hasPair : List Nat → Bool
  | a :: b :: rest => (isLeading a && isTrailing b) || hasPair (b :: rest)
  | _ => false

/-- A text in its kept form in which no two halves make a pair. -/
def IsPlain (s : List Char) : Prop := ofCodes (codes s) = s ∧ hasPair (codes s) = false

theorem isCode_toNat (c : Char) : IsCode c.toNat := by
  have h := c.valid
  show c.val.toNat < 0x110000
  rcases h with h | h
  · exact Nat.lt_trans h (by decide)
  · exact h.2

theorem isCode_of_mem_readCodes {done : List Nat} (h : ∀ n ∈ done, IsCode n) (s : List Char) :
    ∀ n ∈ readCodes done s, IsCode n := by
  fun_induction readCodes done s with
  | case1 done => simpa using h
  | case2 done c =>
    intro n hn
    rcases List.mem_cons.mp (List.mem_reverse.mp hn) with rfl | hn
    · exact isCode_toNat c
    · exact h n hn
  | case3 done d rest ih =>
    refine ih (List.forall_mem_cons.mpr ⟨?_, h⟩)
    unfold markedCode
    have hd := isCode_toNat d
    split
    · exact isCode_toNat mark
    · exact Nat.lt_of_le_of_lt (Nat.sub_le _ _) hd
  | case4 done c d rest hc ih => exact ih (List.forall_mem_cons.mpr ⟨isCode_toNat c, h⟩)

/-- The codes of a text are codes. -/
theorem isCode_of_mem_codes (s : List Char) : ∀ n ∈ codes s, IsCode n :=
  isCode_of_mem_readCodes (by simp) s

/-- A text that holds no pair holds none in its tail. -/
theorem hasPair_tail {a : Nat} {ns : List Nat} (h : hasPair (a :: ns) = false) :
    hasPair ns = false := by
  cases ns with
  | nil => rfl
  | cons b rest =>
    rw [hasPair, Bool.or_eq_false_iff] at h
    exact h.2

theorem pairCode_add (a b : Nat) :
    pairCode (0xD800 + a) (0xDC00 + b) = 0x10000 + a * 0x400 + b := by
  unfold pairCode
  omega

theorem ofCode_of_lt {n : Nat} (h : n < 0xD800) : ofCode n = [Char.ofNat n] := by
  have hhalf : isHalf n = false := by
    simp only [isHalf, decide_eq_false_iff_not]
    omega
  have hmark : n ≠ mark.toNat := by
    rw [toNat_mark]
    omega
  simp [ofCode, hhalf, hmark]

/-- Whether a text is in ASCII. -/
def isAscii (s : List Char) : Bool := s.all fun c => c.toNat < 0x80

theorem isAscii_iff {s : List Char} : isAscii s = true ↔ ∀ c ∈ s, c.toNat < 0x80 := by
  simp [isAscii]

/-- An ASCII text is plain. -/
theorem isPlain_of_isAscii {s : List Char} (h : isAscii s = true) : IsPlain s := by
  rw [isAscii_iff] at h
  have hkept : ofCodes (s.map Char.toNat) = s := by
    induction s with
    | nil => rfl
    | cons c s ih =>
      obtain ⟨hc, hs⟩ := List.forall_mem_cons.mp h
      have htail := ih hs
      simp only [ofCodes, List.map_cons, List.flatMap_cons] at htail ⊢
      rw [ofCode_of_lt (Nat.lt_trans hc (by decide)), Char.ofNat_toNat, htail]
      rfl
  have hcodes : codes s = s.map Char.toNat := by
    have hall : ∀ n ∈ s.map Char.toNat, IsCode n := by
      intro n hn
      obtain ⟨c, -, rfl⟩ := List.mem_map.mp hn
      exact isCode_toNat c
    have hread := codes_ofCodes hall
    rw [hkept] at hread
    exact hread
  refine ⟨by rw [hcodes, hkept], ?_⟩
  rw [hcodes]
  clear hkept hcodes
  induction s with
  | nil => rfl
  | cons c s ih =>
    obtain ⟨hc, hs⟩ := List.forall_mem_cons.mp h
    have hl : isLeading c.toNat = false := by
      simp only [isLeading, decide_eq_false_iff_not]
      omega
    have htail := ih hs
    cases s with
    | nil => rfl
    | cons d s =>
      simp only [List.map_cons] at htail ⊢
      rw [hasPair, hl, htail]
      rfl

end Text

namespace Json

open Text

/-! ## Escapes by number -/

/-- A hexadecimal digit is read back. -/
theorem hexValue?_hexDigit : ∀ d < 16, hexValue? (hexDigit d) = some d := by decide

theorem hex_four (n : Nat) : hex 4 n = [hexDigit (n / 16 / 16 / 16 % 16),
    hexDigit (n / 16 / 16 % 16), hexDigit (n / 16 % 16), hexDigit (n % 16)] := rfl

/-- Four hexadecimal digits are read back. -/
theorem unit?_hexDigits {n : Nat} (h : n < 0x10000) :
    unit? (hexDigit (n / 16 / 16 / 16 % 16)) (hexDigit (n / 16 / 16 % 16))
      (hexDigit (n / 16 % 16)) (hexDigit (n % 16)) = some n := by
  have hvalue : ∀ m, hexValue? (hexDigit (m % 16)) = some (m % 16) :=
    fun m => hexValue?_hexDigit _ (Nat.mod_lt _ (by decide))
  simp only [unit?, hvalue, Option.bind_eq_bind, Option.bind_some]
  refine congrArg some ?_
  omega

/-- Whether the escape of a trailing unit stands at the front of a text. -/
def startsTrailing : List Char → Bool
  | '\\' :: 'u' :: a :: b :: c :: d :: _ :: _ =>
    match unit? a b c d with
    | some u => isTrailing u
    | none => false
  | _ => false

/-- A unit is read on its own unless it is the first half of a pair whose second half follows. -/
theorem scanUnit_alone {a b c d : Char} {u : Nat} {left : List Char} (hu : unit? a b c d = some u)
    (hleft : left ≠ []) (h : isLeading u = true → startsTrailing left = false) :
    scanUnit ('u' :: a :: b :: c :: d :: left) = .ok (u, left) := by
  obtain ⟨next, rest, rfl⟩ := List.exists_cons_of_ne_nil hleft
  simp only [scanUnit, hu]
  split
  · rename_i a' b' c' d' next' rest'
    cases hunit : unit? a' b' c' d' with
    | none => rfl
    | some u' =>
      by_cases hl : isLeading u = true
      · have ht := h hl
        simp only [startsTrailing, hunit] at ht
        simp [ht]
      · simp [hl]
  · rfl

/-- The two halves of a pair are read as one code. -/
theorem scanUnit_paired {a b c d a' b' c' d' : Char} {u u' : Nat} {left : List Char}
    (hu : unit? a b c d = some u) (hu' : unit? a' b' c' d' = some u') (hleft : left ≠ [])
    (hl : isLeading u = true) (ht : isTrailing u' = true) :
    scanUnit ('u' :: a :: b :: c :: d :: '\\' :: 'u' :: a' :: b' :: c' :: d' :: left) =
      .ok (pairCode u u', left) := by
  obtain ⟨next, rest, rfl⟩ := List.exists_cons_of_ne_nil hleft
  simp only [scanUnit, hu, hu', hl, ht, Bool.and_self, if_true]

/-- An escape that does not start a pair is read on its own. -/
theorem scanUnit_single {n : Nat} {next : Char} {rest : List Char} (hn : n < 0x10000)
    (h : isLeading n = true → startsTrailing (next :: rest) = false) :
    scanUnit ('u' :: hex 4 n ++ next :: rest) = .ok (n, next :: rest) := by
  rw [hex_four]
  exact scanUnit_alone (unit?_hexDigits hn) (List.cons_ne_nil next rest) h

/-- The two escapes of a pair are read as one code. -/
theorem scanUnit_pair {a b : Nat} {next : Char} {rest : List Char} (ha : isLeading a = true)
    (hb : isTrailing b = true) :
    scanUnit ('u' :: hex 4 a ++ ('\\' :: 'u' :: hex 4 b ++ next :: rest)) =
      .ok (pairCode a b, next :: rest) := by
  have ha' : a < 0x10000 := by
    simp only [isLeading, decide_eq_true_eq] at ha
    omega
  have hb' : b < 0x10000 := by
    simp only [isTrailing, decide_eq_true_eq] at hb
    omega
  rw [hex_four, hex_four]
  exact scanUnit_paired (unit?_hexDigits ha') (unit?_hexDigits hb') (List.cons_ne_nil next rest) ha hb

/-! ## One code -/

/-- The ways in which a code is written. -/
inductive EscapeForm : Nat → List Char → Prop
  /-- By a letter. -/
  | letter {e c : Char} (escaped : escaped? e = some c) (other : e ≠ 'u') :
      EscapeForm c.toNat ['\\', e]
  /-- As it is. -/
  | char {c : Char} (quote : c ≠ '"') (backslash : c ≠ '\\') (low : 0x20 ≤ c.toNat)
      (high : c.toNat < 0x7F) : EscapeForm c.toNat [c]
  /-- By a number. -/
  | unit {n : Nat} (small : n < 0x10000) : EscapeForm n (unitEscape n)
  /-- By two numbers. -/
  | pair {a b : Nat} (leading : isLeading a = true) (trailing : isTrailing b = true) :
      EscapeForm (pairCode a b) (unitEscape a ++ unitEscape b)

theorem escapeForm_codePoint {n : Nat} (hn : IsCode n) : EscapeForm n (codePointEscape n) := by
  unfold codePointEscape
  unfold IsCode at hn
  split
  · rename_i h
    exact .unit h
  · rename_i h
    have hl : isLeading (0xD800 + (n - 0x10000) / 0x400) = true := by
      simp only [isLeading, decide_eq_true_eq]
      omega
    have ht : isTrailing (0xDC00 + (n - 0x10000) % 0x400) = true := by
      simp only [isTrailing, decide_eq_true_eq]
      omega
    have hpair : pairCode (0xD800 + (n - 0x10000) / 0x400) (0xDC00 + (n - 0x10000) % 0x400) = n := by
      rw [pairCode_add]
      omega
    have hform := EscapeForm.pair hl ht
    rw [hpair] at hform
    exact hform

/-- A character is written in one of the forms. -/
theorem escapeForm_char (c : Char) : EscapeForm c.toNat (escapeChar c) := by
  have hletter : ∀ {e d : Char}, escaped? e = some d → e ≠ 'u' → c = d →
      EscapeForm c.toNat ['\\', e] := by
    rintro e d he hu rfl
    exact .letter he hu
  unfold escapeChar
  repeat' split
  -- The first seven cases are those with a letter of their own.
  iterate 7
    next h => exact hletter rfl (by decide) h
  · rename_i hquote hbackslash _ _ _ _ _ hrange
    exact .char hquote hbackslash hrange.1 hrange.2
  · exact escapeForm_codePoint (isCode_toNat c)

/-- Every code is written in one of these ways. -/
theorem escapeForm_code {n : Nat} (hn : IsCode n) : EscapeForm n (escapeCode n) := by
  unfold escapeCode
  by_cases hhalf : isHalf n = true
  · rw [if_pos hhalf]
    simp only [isHalf, decide_eq_true_eq] at hhalf
    exact .unit (by omega)
  · have hform := escapeForm_char (Char.ofNat n)
    rw [toNat_ofNat (isValidChar_of_not_isHalf hn (by simpa using hhalf))] at hform
    rw [if_neg hhalf]
    exact hform

/-- What is written for a code starts with the escape of a trailing unit only if the code is one. -/
theorem startsTrailing_escape {n : Nat} {form tail : List Char} (h : EscapeForm n form)
    (ht : tail ≠ []) (hn : isTrailing n = false) : startsTrailing (form ++ tail) = false := by
  obtain ⟨next, rest, rfl⟩ := List.exists_cons_of_ne_nil ht
  cases h with
  | letter hescaped hother =>
    unfold startsTrailing
    split
    · rename_i heq
      exact absurd (List.cons.inj (List.cons.inj heq).2).1 hother
    · rfl
  | char _ hbackslash =>
    unfold startsTrailing
    split
    · rename_i heq
      exact absurd (List.cons.inj heq).1 hbackslash
    · rfl
  | unit hsmall =>
    rw [unitEscape, hex_four]
    simp only [List.cons_append, List.nil_append, startsTrailing, unit?_hexDigits hsmall, hn]
  | @pair a b ha hb =>
    have ha' : a < 0x10000 ∧ isTrailing a = false := by
      simp only [isLeading, isTrailing, decide_eq_true_eq, decide_eq_false_iff_not] at ha ⊢
      omega
    rw [unitEscape, unitEscape, hex_four, hex_four]
    simp only [List.cons_append, List.nil_append, startsTrailing, unit?_hexDigits ha'.1, ha'.2]

/-- An escape by letter stands for a character of the first plane. -/
theorem ofCode_of_escaped {e c : Char} (h : escaped? e = some c) : ofCode c.toNat = [c] := by
  have hlow : c.toNat < 0xD800 := by
    unfold escaped? at h
    split at h <;> cases h <;> decide
  rw [ofCode_of_lt hlow, Char.ofNat_toNat]

theorem scanString_of_scanUnit {n : Nat} {more left : List Char}
    (h : scanUnit ('u' :: more) = .ok (n, left)) (whole done : List Char) :
    scanString whole ('\\' :: 'u' :: more) done =
      scanString whole left ((ofCode n).reverse ++ done) := by
  rw [scanString.eq_4]
  split
  · rename_i heq
    rw [h] at heq
    cases heq
  · rename_i heq
    rw [h] at heq
    cases heq
    rfl

/-- What is written for a code is read back as this code, unless it makes a pair with what follows. -/
theorem scanString_escape {n : Nat} {form tail : List Char} (h : EscapeForm n form)
    (ht : tail ≠ []) (hn : isLeading n = true → startsTrailing tail = false)
    (whole done : List Char) :
    scanString whole (form ++ tail) done = scanString whole tail ((ofCode n).reverse ++ done) := by
  obtain ⟨next, rest, rfl⟩ := List.exists_cons_of_ne_nil ht
  cases h with
  | @letter e c hescaped hother =>
    rw [ofCode_of_escaped hescaped, List.cons_append, List.cons_append, scanString.eq_5 _ _ _ _ hother,
      hescaped]
    rfl
  | @char c hquote hbackslash hlow hhigh =>
    rw [ofCode_of_lt (Nat.lt_trans hhigh (by decide)), Char.ofNat_toNat, List.cons_append,
      scanString.eq_6 _ _ _ _ hquote hbackslash, if_neg (Nat.not_lt.mpr hlow)]
    rfl
  | unit hsmall => exact scanString_of_scanUnit (scanUnit_single hsmall hn) whole done
  | @pair a b ha hb =>
    have hunit : scanUnit ('u' :: hex 4 a ++ ('\\' :: 'u' :: hex 4 b ++ next :: rest)) = _ :=
      scanUnit_pair ha hb
    rw [List.append_assoc]
    exact scanString_of_scanUnit hunit whole done

/-! ## Strings -/

/-- What is written for codes is read back as these codes if no two of them make a pair. -/
theorem scanString_escapes {ns : List Nat} (hcode : ∀ n ∈ ns, IsCode n) (hpair : hasPair ns = false)
    (whole rest done : List Char) :
    scanString whole (ns.flatMap escapeCode ++ '"' :: rest) done =
      .ok (String.ofList (done.reverse ++ ofCodes ns), rest) := by
  induction ns generalizing done with
  | nil => simp [scanString, ofCodes]
  | cons n ns ih =>
    obtain ⟨hn, hns⟩ := List.forall_mem_cons.mp hcode
    have htail : ns.flatMap escapeCode ++ '"' :: rest ≠ [] := by simp
    have hfollow : isLeading n = true →
        startsTrailing (ns.flatMap escapeCode ++ '"' :: rest) = false := by
      intro hl
      cases ns with
      | nil => rfl
      | cons m ms =>
        rw [hasPair, Bool.or_eq_false_iff, hl, Bool.true_and] at hpair
        rw [List.flatMap_cons, List.append_assoc]
        exact startsTrailing_escape (escapeForm_code (hns m List.mem_cons_self)) (by simp) hpair.1
    rw [List.flatMap_cons, List.append_assoc, scanString_escape (escapeForm_code hn) htail hfollow,
      ih hns (hasPair_tail hpair)]
    simp [ofCodes]

/-- A plain text that is written as a string is read back. -/
theorem scanString_string {s : String} (h : IsPlain s.toList) (whole rest : List Char) :
    ∃ tail, string s ++ rest = '"' :: tail ∧ scanString whole tail [] = .ok (s, rest) := by
  refine ⟨(codes s.toList).flatMap escapeCode ++ '"' :: rest, by simp [string], ?_⟩
  rw [scanString_escapes (isCode_of_mem_codes s.toList) h.2, List.reverse_nil, List.nil_append, h.1,
    String.ofList_toList]

end Json

end MeetDesk
