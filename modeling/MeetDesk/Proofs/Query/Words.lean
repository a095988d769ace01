import MeetDesk.Proofs.Json.Integer
import MeetDesk.Query.Compiled

/-!
# The text of a query as words

Behind the name of its table, the text of a query is lines, and a line is words with spaces between
them. No word of a condition is the one that stands between conditions, and no operator's words are
the first words of another operator's.
-/

namespace MeetDesk

/-! ## Words -/

def wordsOf (line : List Char) : List String := (line.splitOn ' ').map String.ofList

/-- A word that can stand in a line, and does not stand between conditions. -/
structure IsWord (w : String) : Prop where
  space : ' ' ∉ w.toList
  feed : '\n' ∉ w.toList
  ne_and : w ≠ "AND"

/-- Words that hold no blank come back out of the line that they are put in. -/
theorem wordsOf_intercalate {ws : List String} (hne : ws ≠ []) (h : ∀ w ∈ ws, ' ' ∉ w.toList) :
    wordsOf (String.intercalate " " ws).toList = ws := by
  have hsep : " ".toList = [' '] := rfl
  have hsplit : ([' '].intercalate (ws.map String.toList)).splitOn ' ' = ws.map String.toList := by
    refine List.splitOn_intercalate ' ' ?_ (by simpa using hne)
    intro cs hcs
    obtain ⟨w, hw, rfl⟩ := List.mem_map.mp hcs
    exact h w hw
  rw [wordsOf, String.toList_intercalate, hsep, hsplit, List.map_map]
  exact (List.map_congr_left fun w _ => String.ofList_toList).trans (List.map_id ws)

/-- What holds of the separator and of the parts holds of the whole. -/
theorem forall_mem_intercalate {α : Type} {p : α → Prop} {sep : List α} {parts : List (List α)}
    (hsep : ∀ a ∈ sep, p a) (h : ∀ part ∈ parts, ∀ a ∈ part, p a) :
    ∀ a ∈ sep.intercalate parts, p a := by
  induction parts with
  | nil => simp
  | cons part parts ih =>
    obtain ⟨hpart, hparts⟩ := List.forall_mem_cons.mp h
    cases parts with
    | nil =>
      rw [List.intercalate_singleton]
      exact hpart
    | cons next rest =>
      rw [List.intercalate_cons_cons, List.append_assoc]
      intro a ha
      rcases List.mem_append.mp ha with ha | ha
      · exact hpart a ha
      · rcases List.mem_append.mp ha with ha | ha
        · exact hsep a ha
        · exact ih hparts a ha

theorem bne_of_not_mem {α : Type} [BEq α] [LawfulBEq α] {a : α} {l : List α} (h : a ∉ l) :
    ∀ b ∈ l, (b != a) = true := by
  intro b hb
  rw [bne_iff_ne]
  rintro rfl
  exact h hb

/-- What is neither in the separator nor in a part is not in the whole. -/
theorem not_mem_intercalate {α : Type} {a : α} {sep : List α} {parts : List (List α)}
    (hsep : a ∉ sep) (h : ∀ part ∈ parts, a ∉ part) : a ∉ sep.intercalate parts := by
  intro hin
  refine forall_mem_intercalate (p := (· ≠ a)) ?_ ?_ a hin rfl
  · rintro b hb rfl
    exact hsep hb
  · rintro part hpart b hb rfl
    exact h part hpart hb

/-- A line of words is one line. -/
theorem feed_not_mem_intercalate {ws : List String} (h : ∀ w ∈ ws, '\n' ∉ w.toList) :
    '\n' ∉ (String.intercalate " " ws).toList := by
  rw [String.toList_intercalate]
  refine not_mem_intercalate (by decide) ?_
  intro cs hcs
  obtain ⟨w, hw, rfl⟩ := List.mem_map.mp hcs
  exact h w hw

theorem intercalate_ne_nil {α : Type} {sep : List α} {parts : List (List α)} (hne : parts ≠ [])
    (h : ∀ part ∈ parts, part ≠ []) : sep.intercalate parts ≠ [] := by
  obtain ⟨part, rest, rfl⟩ := List.exists_cons_of_ne_nil hne
  have hpart := h part List.mem_cons_self
  cases rest with
  | nil => simpa using hpart
  | cons next rest => simp [List.intercalate_cons_cons, hpart]

/-- Conditions with a word between them are words with spaces between them. -/
theorem intercalate_and {wss : List (List String)} (h : ∀ ws ∈ wss, ws ≠ []) :
    String.intercalate " AND " (wss.map (String.intercalate " ")) =
      String.intercalate " " (["AND"].intercalate wss) := by
  induction wss with
  | nil => rfl
  | cons ws wss ih =>
    obtain ⟨hws, hwss⟩ := List.forall_mem_cons.mp h
    cases wss with
    | nil => simp
    | cons next rest =>
      have hrest : ["AND"].intercalate (next :: rest) ≠ [] :=
        intercalate_ne_nil (List.cons_ne_nil _ _) hwss
      have hand : " AND " = " " ++ ("AND" ++ " ") := by decide
      rw [List.map_cons, String.intercalate_cons_of_ne_nil (by simp), ih hwss,
        List.intercalate_cons_cons, List.append_assoc,
        String.intercalate_append_of_ne_nil hws (by simp), List.singleton_append,
        String.intercalate_cons_of_ne_nil hrest, hand]
      simp only [String.append_assoc]

/-! ## Columns and operators -/

/-- A column name is one word of a line. -/
theorem Column.isWord (c : Column) : IsWord c.label := by
  have hall : ∀ c ∈ Column.all,
      ' ' ∉ c.label.toList ∧ '\n' ∉ c.label.toList ∧ c.label ≠ "AND" := by
    decide
  obtain ⟨hspace, hfeed, hand⟩ := hall c (Column.mem_all c)
  exact ⟨hspace, hfeed, hand⟩

def Operator.words (o : Operator) : List String := wordsOf o.symbol.toList

/-- The words of an operator are words of a line. -/
theorem Operator.isWord {o : Operator} {w : String} (h : w ∈ o.words) : IsWord w := by
  have hall : ∀ o ∈ Operator.all, ∀ w ∈ o.words,
      ' ' ∉ w.toList ∧ '\n' ∉ w.toList ∧ w ≠ "AND" := by
    decide
  obtain ⟨hspace, hfeed, hand⟩ := hall o (Operator.mem_all o) w h
  exact ⟨hspace, hfeed, hand⟩

/-- The symbol of an operator is made of its words. -/
theorem Operator.symbol_eq (o : Operator) : o.symbol = String.intercalate " " o.words := by
  cases o <;> decide

theorem Operator.words_ne_nil (o : Operator) : o.words ≠ [] := by
  cases o <;> decide

/-! ## Placeholders -/

theorem toList_placeholderName (i : Nat) :
    (placeholderName i).toList = "param".toList ++ Nat.toDigits 10 i := by
  rw [placeholderName, String.toList_append]
  exact congrArg _ Nat.toList_repr

/-- No two places have the same placeholder name. -/
theorem placeholderName_injective {i j : Nat} (h : placeholderName i = placeholderName j) : i = j := by
  have hlist := congrArg String.toList h
  rw [toList_placeholderName, toList_placeholderName] at hlist
  have hvalue := congrArg Decimal.digitsValue (List.append_cancel_left hlist)
  rwa [Json.digitsValue_toDigits, Json.digitsValue_toDigits] at hvalue

/-- A placeholder name is made of letters and digits. -/
theorem isAlphanum_of_mem_placeholderName {i : Nat} {c : Char}
    (h : c ∈ (placeholderName i).toList) : c.isAlphanum = true := by
  rw [toList_placeholderName] at h
  rcases List.mem_append.mp h with h | h
  · have hletters : "param".toList.all Char.isAlphanum = true := by decide
    exact List.all_eq_true.mp hletters c h
  · have hdigit := Nat.isDigit_of_mem_toDigits (b := 10) (by decide) (by decide) h
    simp [Char.isAlphanum, hdigit]

theorem toList_placeholder (i : Nat) (type : StoreType) : (placeholder i type).toList =
    '\x7b' :: ((placeholderName i).toList ++ ':' :: (type.label.toList ++ ['\x7d'])) := by
  simp [placeholder, String.toList_append]

/-- A placeholder is one word of a line. -/
theorem isWord_placeholder (i : Nat) (type : StoreType) : IsWord (placeholder i type) := by
  have hlabel : type.label.toList.all Char.isAlphanum = true := by cases type <;> decide
  have hchars : ∀ c ∈ (placeholder i type).toList,
      c = '\x7b' ∨ c = ':' ∨ c = '\x7d' ∨ c.isAlphanum = true := by
    intro c hc
    rw [toList_placeholder] at hc
    simp only [List.mem_cons, List.mem_append, List.not_mem_nil, or_false] at hc
    rcases hc with rfl | hc | rfl | hc | rfl
    · exact Or.inl rfl
    · exact Or.inr (Or.inr (Or.inr (isAlphanum_of_mem_placeholderName hc)))
    · exact Or.inr (Or.inl rfl)
    · exact Or.inr (Or.inr (Or.inr (List.all_eq_true.mp hlabel c hc)))
    · exact Or.inr (Or.inr (Or.inl rfl))
  refine ⟨fun h => ?_, fun h => ?_, fun h => ?_⟩
  · have hspace := hchars _ h
    revert hspace
    decide
  · have hfeed := hchars _ h
    revert hfeed
    decide
  · have hlist := congrArg String.toList h
    rw [toList_placeholder] at hlist
    exact absurd (List.cons.inj hlist).1 (by decide)

/-! ## Conditions -/

namespace Condition

/-- The words of a condition whose placeholder has the number `next`. -/
def words (next : Nat) (c : Condition) : List String :=
  c.column.label ::
    (c.operator.words ++ (c.bound?.map fun o => placeholder next o.storeType).toList)

/-- The words of conditions, with placeholders numbered from `next` on. -/
def wordLists : (next : Nat) → List Condition → List (List String)
  | _, [] => []
  | next, c :: rest => c.words next :: wordLists (next + c.bound?.toList.length) rest

/-- The front of a condition is the column and the words of the operator. -/
theorem head_eq (c : Condition) :
    c.head = String.intercalate " " (c.column.label :: c.operator.words) := by
  rw [head, c.operator.symbol_eq, String.intercalate_cons_of_ne_nil c.operator.words_ne_nil]

/-- The texts of conditions are made of their words. -/
theorem texts_eq (next : Nat) (cs : List Condition) :
    texts next cs = (wordLists next cs).map (String.intercalate " ") := by
  induction cs generalizing next with
  | nil => rfl
  | cons c rest ih =>
    unfold texts wordLists words
    cases c.bound? with
    | none =>
      dsimp only
      rw [List.map_cons, head_eq, ih]
      simp
    | some o =>
      dsimp only
      rw [List.map_cons, head_eq, ih, Option.map_some, Option.toList_some, ← List.cons_append,
        String.intercalate_append_of_ne_nil (List.cons_ne_nil _ _) (List.cons_ne_nil _ _),
        String.intercalate_singleton]
      rfl

theorem isWord_of_mem_words {next : Nat} {c : Condition} {w : String} (h : w ∈ c.words next) :
    IsWord w := by
  rcases List.mem_cons.mp h with rfl | h
  · exact c.column.isWord
  · rcases List.mem_append.mp h with h | h
    · exact Operator.isWord h
    · obtain ⟨o, -, rfl⟩ := Option.map_eq_some_iff.mp (Option.mem_toList.mp h)
      exact isWord_placeholder next o.storeType

theorem mem_wordLists {next : Nat} {cs : List Condition} {ws : List String}
    (h : ws ∈ wordLists next cs) : ∃ i c, ws = words i c := by
  induction cs generalizing next with
  | nil => cases h
  | cons c rest ih =>
    rcases List.mem_cons.mp h with rfl | h
    · exact ⟨next, c, rfl⟩
    · exact ih h

/-- The words of the line of some conditions. -/
def lineWords (cs : List Condition) : List String := "WHERE" :: ["AND"].intercalate (wordLists 0 cs)

theorem wordLists_ne_nil {cs : List Condition} (hne : cs ≠ []) : wordLists 0 cs ≠ [] := by
  obtain ⟨c, rest, rfl⟩ := List.exists_cons_of_ne_nil hne
  exact List.cons_ne_nil _ _

/-- The line of the conditions is made of its words. -/
theorem line_eq {cs : List Condition} (hne : cs ≠ []) :
    "WHERE " ++ String.intercalate " AND " (texts 0 cs) = String.intercalate " " (lineWords cs) := by
  have hlists : ∀ ws ∈ wordLists 0 cs, ws ≠ [] := by
    intro ws hws
    obtain ⟨i, c, rfl⟩ := mem_wordLists hws
    exact List.cons_ne_nil _ _
  have hwhere : "WHERE " = "WHERE" ++ " " := by decide
  rw [texts_eq, intercalate_and hlists, lineWords,
    String.intercalate_cons_of_ne_nil (intercalate_ne_nil (wordLists_ne_nil hne) hlists), hwhere]

/-- The words of the conditions hold neither a blank nor a line feed, so the line can be taken apart again.
-/
theorem blank_not_mem_lineWords {cs : List Condition} {w : String} (h : w ∈ lineWords cs) :
    ' ' ∉ w.toList ∧ '\n' ∉ w.toList := by
  rcases List.mem_cons.mp h with rfl | h
  · decide
  · refine forall_mem_intercalate (p := fun w => ' ' ∉ w.toList ∧ '\n' ∉ w.toList) (by decide) ?_ w h
    intro ws hws w hw
    obtain ⟨i, c, rfl⟩ := mem_wordLists hws
    exact ⟨(isWord_of_mem_words hw).space, (isWord_of_mem_words hw).feed⟩

end Condition

/-! ## Orders -/

namespace RowOrder

/-- The words of the line of an order. -/
def words : RowOrder → List String
  | standard => ["ORDER", "BY", "Name,", "Date", "DESC"]
  | along column direction => ["ORDER", "BY", column.label, direction.symbol]

/-- The text of an order is made of its words. -/
theorem text_eq (o : RowOrder) : o.text = String.intercalate " " o.words := by
  cases o with
  | standard => decide
  | along column direction =>
    have horder : "ORDER BY " = "ORDER" ++ (" " ++ ("BY" ++ " ")) := by decide
    rw [text, words, horder]
    simp [String.intercalate_cons_cons, String.append_assoc, -String.reduceAppend]

theorem isWord_of_mem_words {o : RowOrder} {w : String} (h : w ∈ o.words) : IsWord w := by
  cases o with
  | standard =>
    have hall : ∀ w ∈ standard.words, ' ' ∉ w.toList ∧ '\n' ∉ w.toList ∧ w ≠ "AND" := by decide
    obtain ⟨hspace, hfeed, hand⟩ := hall w h
    exact ⟨hspace, hfeed, hand⟩
  | along column direction =>
    simp only [words, List.mem_cons, List.not_mem_nil, or_false] at h
    rcases h with rfl | rfl | rfl | rfl
    · exact ⟨by decide, by decide, by decide⟩
    · exact ⟨by decide, by decide, by decide⟩
    · exact column.isWord
    · cases direction <;> exact ⟨by decide, by decide, by decide⟩

end RowOrder

/-! ## Whole texts -/

namespace Plan

/-- The lines of a plan behind its table. -/
def linesBehind (p : Plan) : List String :=
  whereLine p.conditions ++ [p.order.text, "LIMIT " ++ toString p.limit]

/-- What stands in every query before the name of its table. -/
def front : String := "SELECT\n    " ++ selectList ++ "\nFROM "

/-- The text of a query is a fixed front, the table in backticks, and the lines behind it. -/
theorem toList_compile (p : Plan) : p.compile.text.toList =
    front.toList ++ '\x60' :: (p.table.toList ++ '\x60' :: '\n' ::
      ['\n'].intercalate (p.linesBehind.map String.toList)) := by
  have hbehind : p.linesBehind ≠ [] := by simp [linesBehind]
  have hlines : p.lines =
      ["SELECT", "    " ++ selectList, "FROM \x60" ++ p.table ++ "\x60"] ++ p.linesBehind := by
    rw [lines, linesBehind, List.append_assoc]
  have hselect : "SELECT\n    " = "SELECT" ++ "\n" ++ "    " := by decide
  have hfrom : "FROM \x60" = "FROM " ++ "\x60" := by decide
  have hfrom' : "\nFROM " = "\n" ++ "FROM " := by decide
  have hmark : "\x60".toList = ['\x60'] := rfl
  have hfeed : "\n".toList = ['\n'] := rfl
  have htext : p.compile.text =
      front ++ "\x60" ++ p.table ++ "\x60" ++ "\n" ++ String.intercalate "\n" p.linesBehind := by
    have hhead : String.intercalate "\n"
        ["SELECT", "    " ++ selectList, "FROM \x60" ++ p.table ++ "\x60"] =
          front ++ "\x60" ++ p.table ++ "\x60" := by
      rw [String.intercalate_cons_cons, String.intercalate_cons_cons, String.intercalate_singleton,
        front, hselect, hfrom, hfrom']
      simp only [String.append_assoc]
    rw [compile, hlines, String.intercalate_append_of_ne_nil (List.cons_ne_nil _ _) hbehind, hhead]
  rw [htext]
  simp only [String.toList_append, String.toList_intercalate, hmark, hfeed, List.append_assoc,
    List.cons_append, List.nil_append]

/-- A letter, a digit, or what stands between the words before the table. -/
def isFront (c : Char) : Bool := c.isAlphanum || c == ' ' || c == '\n' || c == ','

theorem all_front : front.toList.all isFront = true := by
  have hlabels : ∀ column ∈ Column.all, column.label.toList.all isFront = true := by decide
  have hselect : ∀ c ∈ selectList.toList, isFront c = true := by
    rw [selectList, String.toList_intercalate, List.map_map]
    refine forall_mem_intercalate (List.all_eq_true.mp (by decide)) ?_
    intro part hpart c hc
    obtain ⟨column, hcolumn, rfl⟩ := List.mem_map.mp hpart
    exact List.all_eq_true.mp (hlabels column hcolumn) c hc
  have hbefore : "SELECT\n    ".toList.all isFront = true := by decide
  have hbehind : "\nFROM ".toList.all isFront = true := by decide
  rw [front, String.toList_append, String.toList_append, List.all_append, List.all_append, hbefore,
    hbehind, List.all_eq_true.mpr hselect]
  rfl

/-- The front is made of letters, digits, blanks, line feeds and commas. -/
theorem mem_front {c : Char} (h : c ∈ front.toList) :
    c.isAlphanum = true ∨ c = ' ' ∨ c = '\n' ∨ c = ',' := by
  have hfront := List.all_eq_true.mp all_front c h
  simp only [isFront, Bool.or_eq_true, beq_iff_eq] at hfront
  rwa [or_assoc, or_assoc] at hfront

theorem backtick_not_mem_front : '\x60' ∉ front.toList := by
  intro h
  have hchar := mem_front h
  revert hchar
  decide

/-- A table name is made of the characters that are allowed in one, but for a line feed. -/
theorem mem_of_isTableName {s : List Char} (h : isTableName s = true) {c : Char} (hc : c ∈ s) :
    isTableChar c = true ∨ c = '\n' := by
  cases s with
  | nil => cases hc
  | cons d rest =>
    obtain ⟨hhead, hall⟩ := (Bool.and_eq_true _ _).mp h
    rcases List.mem_cons.mp hc with rfl | hc
    · have hchar : isTableChar c = true := by simp [isTableChar, hhead]
      exact Or.inl hchar
    · have hall := List.all_eq_true.mp hall
      unfold dropFinalLineFeed at hall
      split at hall
      · rename_i hlast
        obtain ⟨before, rfl⟩ := List.getLast?_eq_some_iff.mp hlast
        rw [List.dropLast_concat] at hall
        rcases List.mem_append.mp hc with hc | hc
        · exact Or.inl (hall c hc)
        · exact Or.inr (List.mem_singleton.mp hc)
      · exact Or.inl (hall c hc)

/-- A table name cannot close the backticks around it. -/
theorem backtick_not_mem_of_isTableName {s : List Char} (h : isTableName s = true) : '\x60' ∉ s := by
  intro hin
  have hchar := mem_of_isTableName h hin
  revert hchar
  decide

/-- Each of the lines behind the table is one line. -/
theorem feed_not_mem_linesBehind {p : Plan} {line : String} (h : line ∈ p.linesBehind) :
    '\n' ∉ line.toList := by
  rcases List.mem_append.mp h with h | h
  · unfold whereLine at h
    split at h
    · cases h
    · rename_i hconditions
      rw [List.mem_singleton.mp h, Condition.line_eq (by simpa using hconditions)]
      exact feed_not_mem_intercalate fun w hw => (Condition.blank_not_mem_lineWords hw).2
  · simp only [List.mem_cons, List.not_mem_nil, or_false] at h
    rcases h with rfl | rfl
    · rw [RowOrder.text_eq]
      exact feed_not_mem_intercalate fun w hw => (RowOrder.isWord_of_mem_words hw).feed
    · have hdigits : (toString p.limit).toList = Nat.toDigits 10 p.limit := Nat.toList_repr
      rw [String.toList_append, List.mem_append, hdigits]
      rintro (hin | hin)
      · revert hin
        decide
      · have hdigit := Nat.isDigit_of_mem_toDigits (b := 10) (by decide) (by decide) hin
        revert hdigit
        decide

end Plan

end MeetDesk
