import Mathlib
import MeetDesk.Proofs.Json.Escape
import MeetDesk.Proofs.Tool.Fences
import MeetDesk.Text.Case

/-!
# Spellings of a text

A text is spelled in many ways if neither the case of its letters nor its blanks count: any blanks may
stand around it and, at least one, in place of each of its spaces. The words of the upper-case image do
not depend on the spelling, and a text in ASCII is itself a spelling of these words.
-/

namespace MeetDesk.Text

/-- A character, perhaps in the other case. Only the letters of ASCII have one. -/
def InCase (c d : Char) : Prop := d = c ∨ d = c.toUpper ∨ d = c.toLower

/-- Nothing but blanks. -/
def Blanks (s : List Char) : Prop := ∀ c ∈ s, isBlank c = true

/-- A text with its letters in any case and with blanks in place of its spaces, at least one for each. -/
inductive Respaced : List Char → List Char → Prop
  | nil : Respaced [] []
  | letter {c d : Char} {s t : List Char} (hc : c ≠ ' ') (hd : InCase c d) (rest : Respaced s t) :
      Respaced (c :: s) (d :: t)
  | space {run s t : List Char} (hne : run ≠ []) (hrun : Blanks run) (rest : Respaced s t) :
      Respaced (' ' :: s) (run ++ t)

/-- The second text is a spelling of the first one: with its letters in any case, blanks in place of its
spaces, and blanks around it. -/
def Spelling (s t : List Char) : Prop :=
  ∃ before body after, Blanks before ∧ Blanks after ∧ Respaced s body ∧ t = before ++ body ++ after

/-! ## Characters -/

theorem isLower_iff {c : Char} : c.isLower = true ↔ 97 ≤ c.toNat ∧ c.toNat ≤ 122 := by
  simp only [Char.isLower, Bool.and_eq_true, decide_eq_true_eq, ge_iff_le, UInt32.le_iff_toNat_le]
  exact Iff.rfl

/-- A small letter and its capital are thirty-two codes apart. -/
theorem toNat_toUpper {c : Char} (h : c.isLower = true) : c.toUpper.toNat = c.toNat - 32 := by
  have hrange := isLower_iff.mp h
  rw [Char.toUpper_eq_of_isLower h]
  refine toNat_ofNat ?_
  simp only [Nat.isValidChar]
  omega

theorem isBlank_eq_false_of_letter {c : Char} (h : 65 ≤ c.toNat ∧ c.toNat ≤ 122) :
    isBlank c = false := by
  simp only [isBlank, within, blankRanges, List.any_cons, List.any_nil, Bool.or_eq_false_iff,
    decide_eq_false_iff_not, and_true]
  omega

/-- Capitals and small letters are alike in not being blank. -/
theorem isBlank_toUpper (c : Char) : isBlank c.toUpper = isBlank c := by
  by_cases h : c.isLower = true
  · have hrange := isLower_iff.mp h
    have hupper := toNat_toUpper h
    rw [isBlank_eq_false_of_letter (by omega), isBlank_eq_false_of_letter (by omega)]
  · rw [Char.toUpper_eq_of_not_isLower h]

theorem toUpper_of_isBlank {c : Char} (h : isBlank c = true) : c.toUpper = c := by
  refine Char.toUpper_eq_of_not_isLower fun hlower => ?_
  have hrange := isLower_iff.mp hlower
  rw [isBlank_eq_false_of_letter (by omega)] at h
  cases h

theorem toUpper_lt {c : Char} : c.toUpper.toNat < 0x80 ↔ c.toNat < 0x80 := by
  by_cases h : c.isLower = true
  · have hrange := isLower_iff.mp h
    have hupper := toNat_toUpper h
    omega
  · rw [Char.toUpper_eq_of_not_isLower h]

/-- What differs in case has the same capitals. -/
theorem InCase.toUpper {c d : Char} (h : InCase c d) : d.toUpper = c.toUpper := by
  rcases h with rfl | rfl | rfl
  · rfl
  · exact Char.toUpper_toUpper_eq_toUpper c
  · exact Char.toUpper_toLower_eq_toUpper c

/-- A character is a case of its upper case. -/
theorem inCase_toUpper (c : Char) : InCase c.toUpper c := by
  by_cases h : c.isLower = true
  · right; right
    rw [Char.toLower_toUpper_eq_toLower, Char.toLower_eq_of_not_isUpper (Char.not_isUpper_of_isLower h)]
  · left
    rw [Char.toUpper_eq_of_not_isLower h]

/-- In another case, a character of ASCII remains one. -/
theorem InCase.ascii {c d : Char} (h : InCase c d) (hc : c.toNat < 0x80) : d.toNat < 0x80 := by
  rw [← toUpper_lt, h.toUpper, toUpper_lt]
  exact hc

/-! ## Upper-case images -/

/-- An ASCII text is put in capitals character by character. -/
theorem upper_cons {c : Char} (hc : c.toNat < 0x80) (s : List Char) :
    upper (c :: s) = c.toUpper :: upper s := by
  rw [upper, List.flatMap_cons, imageOf, if_pos hc]
  rfl

theorem upper_of_isBlank {c : Char} (h : isBlank c = true) (s : List Char) :
    upper (c :: s) = c :: upper s := by
  by_cases hc : c.toNat < 0x80
  · rw [upper_cons hc, toUpper_of_isBlank h]
  · have hkeys : ∀ e ∈ upperExceptions, isBlank e.1 = false := by decide
    have hnone : upperExceptions.lookup c = none := by
      rw [List.lookup_eq_none_iff]
      rintro e he
      rw [bne_iff_ne]
      rintro rfl
      rw [hkeys e he] at h
      cases h
    rw [upper, List.flatMap_cons, imageOf, if_neg hc, hnone]
    rfl

/-- Blanks in front of a text stay as they are when it is put in capitals. -/
theorem upper_of_blanks {s : List Char} (h : Blanks s) (t : List Char) :
    upper (s ++ t) = s ++ upper t := by
  induction s with
  | nil => rfl
  | cons c s ih =>
    obtain ⟨hc, hs⟩ := List.forall_mem_cons.mp h
    rw [List.cons_append, upper_of_isBlank hc, ih hs, List.cons_append]

/-! ## Words -/

/-- Whether no word starts at the front of a text. -/
def startsBlank (s : List Char) : Bool := s.head?.all isBlank

theorem words_of_isBlank {c : Char} (h : isBlank c = true) (s : List Char) :
    words (c :: s) = words s := by
  rw [words, List.splitOnP_cons_eq_if_modifyHead, if_pos h, words]
  rfl

/-- Blanks in front of a text do not change its words. -/
theorem words_of_blanks {s : List Char} (h : Blanks s) (t : List Char) : words (s ++ t) = words t := by
  induction s with
  | nil => rfl
  | cons c s ih =>
    obtain ⟨hc, hs⟩ := List.forall_mem_cons.mp h
    rw [List.cons_append, words_of_isBlank hc, ih hs]

/-- A character in front of a text starts a word of its own, or becomes the first of the first word. -/
theorem words_cons {c : Char} (h : isBlank c = false) (s : List Char) :
    words (c :: s) = if startsBlank s then [c] :: words s else (words s).modifyHead (c :: ·) := by
  have hc : ¬isBlank c = true := by simp [h]
  cases s with
  | nil => simp [words, startsBlank, List.splitOnP_cons_eq_if_modifyHead, h]
  | cons d s =>
    rw [words, List.splitOnP_cons_eq_if_modifyHead, if_neg hc]
    by_cases hd : isBlank d = true
    · rw [words_of_isBlank hd, List.splitOnP_cons_eq_if_modifyHead, if_pos hd, words]
      simp [startsBlank, hd]
    · obtain ⟨first, more, hsplit⟩ := List.exists_cons_of_ne_nil (List.splitOnP_ne_nil isBlank s)
      rw [words, List.splitOnP_cons_eq_if_modifyHead, if_neg hd, hsplit]
      simp [startsBlank, hd]

/-- Blanks hold no words. -/
theorem words_eq_nil {s : List Char} (h : Blanks s) : words s = [] := by
  have hwords := words_of_blanks h []
  rw [List.append_nil] at hwords
  rw [hwords]
  rfl

/-! ## What does not depend on the spelling -/

theorem Respaced.refl (s : List Char) : Respaced s s := by
  induction s with
  | nil => exact .nil
  | cons c s ih =>
    by_cases hc : c = ' '
    · subst hc
      have hspace : Blanks [' '] := List.forall_mem_singleton.mpr (by decide)
      exact .space (List.cons_ne_nil _ _) hspace ih
    · exact .letter hc (.inl rfl) ih

/-- A text is a spelling of itself. -/
theorem Spelling.refl (s : List Char) : Spelling s s :=
  ⟨[], s, [], by simp [Blanks], by simp [Blanks], .refl s, by simp⟩

/-- Behind a text in any spelling its words are the same, and a word starts at the front or does not. -/
theorem Respaced.words_upper {s t : List Char} (h : Respaced s t) (hs : isAscii s = true)
    {after : List Char} (hafter : Blanks after) :
    words (upper (t ++ after)) = words (upper s) ∧
      startsBlank (upper (t ++ after)) = startsBlank (upper s) := by
  induction h with
  | nil =>
    have hupper := upper_of_blanks hafter []
    rw [List.append_nil] at hupper
    rw [List.nil_append, hupper, show upper [] = [] from rfl, List.append_nil, words_eq_nil hafter]
    refine ⟨rfl, ?_⟩
    cases after with
    | nil => rfl
    | cons c after =>
      have hc := hafter c List.mem_cons_self
      simp [startsBlank, hc]
  | @letter c d s t hc hd rest ih =>
    obtain ⟨hascii, hs⟩ := List.forall_mem_cons.mp (isAscii_iff.mp hs)
    obtain ⟨hwords, hstarts⟩ := ih (isAscii_iff.mpr hs)
    rw [List.cons_append, upper_cons hascii, upper_cons (hd.ascii hascii), hd.toUpper]
    refine ⟨?_, rfl⟩
    by_cases hblank : isBlank c.toUpper = true
    · rw [words_of_isBlank hblank, words_of_isBlank hblank, hwords]
    · rw [words_cons (by simpa using hblank), words_cons (by simpa using hblank), hwords, hstarts]
  | @space run s t hne hrun rest ih =>
    obtain ⟨-, hs⟩ := List.forall_mem_cons.mp (isAscii_iff.mp hs)
    obtain ⟨hwords, -⟩ := ih (isAscii_iff.mpr hs)
    have hspace : isBlank ' ' = true := by decide
    rw [List.append_assoc, upper_of_blanks hrun, upper_of_isBlank hspace, words_of_blanks hrun,
      words_of_isBlank hspace, hwords]
    refine ⟨rfl, ?_⟩
    obtain ⟨c, run, rfl⟩ := List.exists_cons_of_ne_nil hne
    have hc := hrun c List.mem_cons_self
    simp [startsBlank, hc, hspace]

/-- The words in upper case are those of every spelling. -/
theorem Spelling.words_upper {s t : List Char} (h : Spelling s t) (hs : isAscii s = true) :
    words (upper t) = words (upper s) := by
  obtain ⟨before, body, after, hbefore, hafter, hbody, rfl⟩ := h
  rw [List.append_assoc, upper_of_blanks hbefore, words_of_blanks hbefore]
  exact (hbody.words_upper hs hafter).1

/-! ## Texts without spaces -/

/-- A text of one word is respaced as itself, in any case. -/
theorem Respaced.of_word {s t : List Char} (h : Respaced s t) (hs : isAscii s = true)
    (hword : ∀ c ∈ s, isBlank c = false) :
    upper t = upper s ∧ t.length = s.length ∧ ∀ d ∈ t, isBlank d = false := by
  induction h with
  | nil => exact ⟨rfl, rfl, hword⟩
  | @letter c d s t hc hd rest ih =>
    obtain ⟨hascii, hs⟩ := List.forall_mem_cons.mp (isAscii_iff.mp hs)
    obtain ⟨hblank, hword⟩ := List.forall_mem_cons.mp hword
    obtain ⟨hupper, hlength, hall⟩ := ih (isAscii_iff.mpr hs) hword
    refine ⟨?_, congrArg (· + 1) hlength, List.forall_mem_cons.mpr ⟨?_, hall⟩⟩
    · rw [upper_cons (hd.ascii hascii), upper_cons hascii, hd.toUpper, hupper]
    · rw [← isBlank_toUpper, hd.toUpper, isBlank_toUpper]
      exact hblank
  | space =>
    have hspace := hword ' ' List.mem_cons_self
    cases hspace

/-- A word has no blanks at its ends. -/
theorem solid_of_word {s : List Char} (hne : s ≠ []) (hword : ∀ c ∈ s, isBlank c = false) : Solid s where
  first := ⟨s.head hne, List.head?_eq_some_head hne, hword _ (List.head_mem hne)⟩
  last := ⟨s.getLast hne, List.getLast?_eq_some_getLast hne, hword _ (List.getLast_mem hne)⟩

/-- What is left of a spelling of one word without the blanks at its ends is the word, in any case. -/
theorem Spelling.upper_trim {s t : List Char} (h : Spelling s t) (hs : isAscii s = true) (hne : s ≠ [])
    (hword : ∀ c ∈ s, isBlank c = false) : upper (trim t) = upper s := by
  obtain ⟨before, body, after, hbefore, hafter, hbody, rfl⟩ := h
  obtain ⟨hupper, hlength, hall⟩ := hbody.of_word hs hword
  have hbodyNe : body ≠ [] := by
    rintro rfl
    exact hne (List.length_eq_zero_iff.mp hlength.symm)
  rw [trim_blanks (solid_of_word hbodyNe hall) (List.all_eq_true.mpr hbefore)
    (List.all_eq_true.mpr hafter)]
  exact hupper

/-- What is trimmed are blanks. -/
theorem trim_split (s : List Char) :
    ∃ before after, Blanks before ∧ Blanks after ∧ s = before ++ trim s ++ after := by
  refine ⟨s.takeWhile isBlank, ((s.dropWhile isBlank).reverse.takeWhile isBlank).reverse, ?_, ?_, ?_⟩
  · intro c hc
    exact List.mem_takeWhile_imp hc
  · intro c hc
    exact List.mem_takeWhile_imp (List.mem_reverse.mp hc)
  · rw [List.append_assoc, trim, trimBy, ← List.reverse_append, List.takeWhile_append_dropWhile,
      List.reverse_reverse, List.takeWhile_append_dropWhile]

/-- A text whose capitals hold no plain space is respaced as its capitals are. -/
theorem respaced_upper {s : List Char} (hs : isAscii s = true) (hspace : ' ' ∉ upper s) :
    Respaced (upper s) s := by
  induction s with
  | nil => exact .nil
  | cons c s ih =>
    obtain ⟨hc, hs⟩ := List.forall_mem_cons.mp (isAscii_iff.mp hs)
    rw [upper_cons hc] at hspace ⊢
    rw [List.mem_cons, not_or] at hspace
    exact .letter (Ne.symm hspace.1) (inCase_toUpper c) (ih (isAscii_iff.mpr hs) hspace.2)

/-- A text in ASCII is a spelling of its trimmed upper-case image, if no space is left in it. -/
theorem spelling_upper_trim {s : List Char} (hs : isAscii s = true) (hspace : ' ' ∉ upper (trim s)) :
    Spelling (upper (trim s)) s := by
  obtain ⟨before, after, hbefore, hafter, hsplit⟩ := trim_split s
  have htrim : isAscii (trim s) = true :=
    isAscii_iff.mpr fun c hc => isAscii_iff.mp hs c ((trim_isInfix s).subset hc)
  exact ⟨before, trim s, after, hbefore, hafter, respaced_upper htrim hspace, hsplit⟩

/-! ## Texts in ASCII -/

/-- The words of a text in upper case, with one space between them. -/
def joined (s : List Char) : List Char := [' '].intercalate (words (upper s))

theorem startsBlank_upper {s : List Char} (hs : isAscii s = true) :
    startsBlank (upper s) = startsBlank s := by
  cases s with
  | nil => rfl
  | cons c s =>
    have hc := isAscii_iff.mp hs c List.mem_cons_self
    rw [upper_cons hc]
    simp [startsBlank, isBlank_toUpper]

theorem takeWhile_ne_nil {s : List Char} (hne : s ≠ []) (h : startsBlank s = true) :
    s.takeWhile isBlank ≠ [] := by
  obtain ⟨d, s, rfl⟩ := List.exists_cons_of_ne_nil hne
  have hd : isBlank d = true := by simpa [startsBlank] using h
  rw [List.takeWhile_cons_of_pos hd]
  exact List.cons_ne_nil _ _

theorem takeWhile_eq_nil {s : List Char} (h : ¬startsBlank s = true) : s.takeWhile isBlank = [] := by
  cases s with
  | nil => rfl
  | cons d s => exact List.takeWhile_cons_of_neg (by simpa [startsBlank] using h)

/-- The first character of the first word is the first of all. -/
theorem intercalate_modifyHead {sep : List Char} {ws : List (List Char)} (hne : ws ≠ []) (c : Char) :
    sep.intercalate (ws.modifyHead (c :: ·)) = c :: sep.intercalate ws := by
  obtain ⟨w, ws, rfl⟩ := List.exists_cons_of_ne_nil hne
  cases ws with
  | nil => simp
  | cons next ws => simp [List.intercalate_cons_cons]

/-- A text is respaced as its words in upper case, between the blanks at its front and some at its end. -/
structure Rejoined (s body after : List Char) : Prop where
  blanks : Blanks after
  respaced : Respaced (joined s) body
  split : s = s.takeWhile isBlank ++ body ++ after

/-- The blanks at the front of a text are blanks. -/
theorem blanks_takeWhile (s : List Char) : Blanks (s.takeWhile isBlank) := fun _ hc =>
  List.mem_takeWhile_imp hc

/-- A text without words is blank. -/
theorem Rejoined.blanks_of_words {s body after : List Char} (h : Rejoined s body after)
    (hempty : words (upper s) = []) : Blanks s := by
  have hbody := h.respaced
  rw [joined, hempty] at hbody
  cases hbody
  rw [h.split, List.append_nil]
  exact fun d hd => (List.mem_append.mp hd).elim (blanks_takeWhile s d) (h.blanks d)

/-- A character that is not blank joins the first word, if it stands directly before it, or is a word of
its own. -/
theorem Rejoined.cons {s body after : List Char} (h : Rejoined s body after) (hs : isAscii s = true)
    {c : Char} (hc : c.toNat < 0x80) (hblank : ¬isBlank c = true) :
    ∃ body' after', Rejoined (c :: s) body' after' := by
  have hword : isBlank c.toUpper = false := by
    rw [isBlank_toUpper]
    simpa using hblank
  have hspace : c.toUpper ≠ ' ' := by
    intro heq
    rw [heq] at hword
    cases hword
  have hwords := words_cons hword (upper s)
  rw [startsBlank_upper hs, ← upper_cons hc] at hwords
  have hfront : (c :: s).takeWhile isBlank = [] := List.takeWhile_cons_of_neg hblank
  by_cases hstarts : startsBlank s = true
  · rw [if_pos hstarts] at hwords
    by_cases hempty : words (upper s) = []
    · refine ⟨[c], s, h.blanks_of_words hempty, ?_, by rw [hfront]; rfl⟩
      rw [joined, hwords, hempty, List.intercalate_singleton]
      exact .letter hspace (inCase_toUpper c) .nil
    · have hne : s ≠ [] := by
        rintro rfl
        exact hempty rfl
      have hjoined : joined (c :: s) = c.toUpper :: ' ' :: joined s := by
        obtain ⟨w, ws, hcons⟩ := List.exists_cons_of_ne_nil hempty
        rw [joined, joined, hwords, hcons, List.intercalate_cons_cons]
        rfl
      refine ⟨c :: (s.takeWhile isBlank ++ body), after, h.blanks, ?_, ?_⟩
      · rw [hjoined]
        exact .letter hspace (inCase_toUpper c)
          (.space (takeWhile_ne_nil hne hstarts) (blanks_takeWhile s) h.respaced)
      · rw [hfront, List.nil_append, List.cons_append, ← h.split]
  · rw [if_neg hstarts] at hwords
    have hsome : words (upper s) ≠ [] := by
      intro hempty
      have hall := h.blanks_of_words hempty
      cases s with
      | nil => exact hstarts rfl
      | cons d s => exact hstarts (by simpa [startsBlank] using hall d List.mem_cons_self)
    have hsplit := h.split
    rw [takeWhile_eq_nil hstarts, List.nil_append] at hsplit
    refine ⟨c :: body, after, h.blanks, ?_, ?_⟩
    · rw [joined, hwords, intercalate_modifyHead hsome]
      exact .letter hspace (inCase_toUpper c) h.respaced
    · rw [hfront, List.nil_append, List.cons_append, ← hsplit]

/-- Every ASCII text is respaced as its words are, between the blanks around it. -/
theorem exists_rejoined {s : List Char} (hs : isAscii s = true) :
    ∃ body after, Rejoined s body after := by
  induction s with
  | nil => exact ⟨[], [], by simp [Blanks], .nil, rfl⟩
  | cons c s ih =>
    obtain ⟨hc, hs⟩ := List.forall_mem_cons.mp (isAscii_iff.mp hs)
    obtain ⟨body, after, h⟩ := ih (isAscii_iff.mpr hs)
    by_cases hblank : isBlank c = true
    · refine ⟨body, after, h.blanks, ?_, ?_⟩
      · rw [joined, upper_of_isBlank hblank, words_of_isBlank hblank]
        exact h.respaced
      · rw [List.takeWhile_cons_of_pos hblank, List.cons_append, List.cons_append, ← h.split]
    · exact h.cons (isAscii_iff.mpr hs) hc hblank

/-- A text in ASCII is a spelling of its words in upper case. -/
theorem spelling_joined {s : List Char} (hs : isAscii s = true) : Spelling (joined s) s := by
  obtain ⟨body, after, h⟩ := exists_rejoined hs
  exact ⟨s.takeWhile isBlank, body, after, blanks_takeWhile s, h.blanks, h.respaced, h.split⟩

/-! ## Whole texts -/

/-- A text without the mark has the codes of its characters. -/
theorem readCodes_of_mark_not_mem {done : List Nat} {s : List Char} (h : mark ∉ s) :
    readCodes done s = done.reverse ++ s.map Char.toNat := by
  fun_induction readCodes done s with
  | case1 done => simp
  | case2 done c => simp
  | case3 done d rest ih => exact absurd List.mem_cons_self h
  | case4 done c d rest hc ih =>
    rw [ih fun hmem => h (List.mem_cons_of_mem _ hmem)]
    simp

/-- A text without marks is made of characters only. -/
theorem isWhole_of_mark_not_mem {s : String} (h : mark ∉ s.toList) : isWhole s = true := by
  rw [isWhole, codes, readCodes_of_mark_not_mem h, Bool.not_eq_true', List.any_eq_false]
  intro n hn
  obtain ⟨c, -, rfl⟩ := List.mem_map.mp (by simpa using hn)
  have hvalid : c.toNat.isValidChar := c.valid
  simp only [Nat.isValidChar] at hvalid
  simp only [isHalf, decide_eq_true_eq]
  omega

theorem not_isBlank_mark : isBlank mark = false := by decide

/-- A spelling of an ASCII text does not hold the mark. -/
theorem Respaced.mark_not_mem {s t : List Char} (h : Respaced s t) (hs : isAscii s = true) :
    mark ∉ t := by
  induction h with
  | nil => exact List.not_mem_nil
  | @letter c d s t hc hd rest ih =>
    obtain ⟨hascii, hs⟩ := List.forall_mem_cons.mp (isAscii_iff.mp hs)
    intro hmem
    rcases List.mem_cons.mp hmem with rfl | hmem
    · have hmark := hd.ascii hascii
      rw [toNat_mark] at hmark
      omega
    · exact ih (isAscii_iff.mpr hs) hmem
  | @space run s t hne hrun rest ih =>
    obtain ⟨-, hs⟩ := List.forall_mem_cons.mp (isAscii_iff.mp hs)
    intro hmem
    rcases List.mem_append.mp hmem with hmem | hmem
    · have hblank := hrun mark hmem
      rw [not_isBlank_mark] at hblank
      cases hblank
    · exact ih (isAscii_iff.mpr hs) hmem

/-- A spelling of an ASCII text has no half of a pair in it. -/
theorem Spelling.isWhole {s : List Char} {t : String} (h : Spelling s t.toList) (hs : isAscii s = true) :
    isWhole t = true := by
  obtain ⟨before, body, after, hbefore, hafter, hbody, ht⟩ := h
  refine isWhole_of_mark_not_mem fun hmem => ?_
  have hblank : ∀ {run}, Blanks run → mark ∉ run := fun hrun hmark => by
    have := hrun mark hmark
    rw [not_isBlank_mark] at this
    cases this
  rw [ht, List.mem_append, List.mem_append] at hmem
  rcases hmem with (hmem | hmem) | hmem
  · exact hblank hbefore hmem
  · exact hbody.mark_not_mem hs hmem
  · exact hblank hafter hmem

end MeetDesk.Text
