import MeetDesk.Proofs.Query.Decoding
import MeetDesk.Proofs.Query.Strictness

/-!
# The name of the table

The table is the only part of a query's text that is set from outside and written as it is. A name that is
accepted is made of letters, digits, `_`, `.` and `-`, and starts with neither a point nor a dash; only one
line feed may stand behind it (`compiles_iff_named`). So the backticks around it are the only ones in the
text, and every other line of the text is known.
-/

namespace MeetDesk

/-- A letter, a digit, or one of the marks that a name may hold. -/
def IsNameChar (c : Char) : Prop :=
  ('A' ≤ c ∧ c ≤ 'Z') ∨ ('a' ≤ c ∧ c ≤ 'z') ∨ ('0' ≤ c ∧ c ≤ '9') ∨ c = '_' ∨ c = '.' ∨ c = '-'

/-- A name that is safe to write between backticks. -/
structure IsSafeName (name : String) : Prop where
  ne_empty : name ≠ ""
  chars : ∀ c ∈ name.toList, IsNameChar c
  head : ∀ c, name.toList.head? = some c → c ≠ '.' ∧ c ≠ '-'

/-- A table that goes by the name, and the lines that name it in a query. -/
inductive NamesTable (name : String) : (table : String) → (source : List String) → Prop
  | whole : NamesTable name name ["FROM `" ++ name ++ "`"]
  /-- A line feed behind the name divides its line. -/
  | fed : NamesTable name (name ++ "\n") ["FROM `" ++ name, "`"]

/-- A safe name with a line feed behind it. -/
def IsFedName (table : String) : Prop := ∃ name, IsSafeName name ∧ table = name ++ "\n"

/-- Clauses and an order that can be planned for some table. -/
structure Plannable (strict : Bool) (clauses : List Clause) (orderBy? : Option String) : Prop where
  known : strict = true → ∀ c ∈ clauses, c.isKnown = true
  digits : ∀ c ∈ clauses, c.isKnown = true → c.WithinDigits
  order : ∀ name, orderBy? = some name → (Column.named? name).isSome = true

/-- The lines of columns, one for each. -/
def columnLines : List Column → List String
  | [] => []
  | [c] => ["    " ++ c.label]
  | c :: rest => ("    " ++ c.label ++ ",") :: columnLines rest

/-- The text of a query is these lines, with two backticks in all. Conditions have a line exactly if some
clause has an effect. -/
structure CompiledQuery.Laid (source : List String) (clauses : List Clause) (q : CompiledQuery) :
    Prop where
  lines : ∃ conditions order, q.text.toList.splitOn '\n' = (["SELECT"] ++ columnLines Column.all ++
      source ++ conditions ++ ["ORDER BY " ++ order, "LIMIT " ++ toString q.limit]).map String.toList ∧
    (clauses.filterMap Clause.effective? = [] → conditions = []) ∧
    (clauses.filterMap Clause.effective? ≠ [] → ∃ items, conditions = ["WHERE " ++ items])
  backticks : q.text.toList.count '\x60' = 2

/-! ## Names -/

namespace Plan

theorem isNameChar_iff {c : Char} : isTableChar c = true ↔ IsNameChar c := by
  have halphanum : c.isAlphanum = (decide ('A' ≤ c ∧ c ≤ 'Z') || ('a' ≤ c && c ≤ 'z') ||
      ('0' ≤ c && c ≤ '9')) := rfl
  simp only [isTableChar, isTableHead, halphanum, Bool.or_eq_true, Bool.and_eq_true,
    decide_eq_true_eq, beq_iff_eq, IsNameChar, or_assoc]

theorem isTableHead_iff {c : Char} :
    isTableHead c = true ↔ IsNameChar c ∧ c ≠ '.' ∧ c ≠ '-' := by
  rw [← isNameChar_iff, isTableChar]
  constructor
  · intro h
    refine ⟨by simp [h], ?_, ?_⟩
    · rintro rfl
      cases h
    · rintro rfl
      cases h
  · rintro ⟨h, hpoint, hdash⟩
    simpa [hpoint, hdash] using h

/-- Whatever is dropped from the end of a text, the rest was in it. -/
theorem dropFinalLineFeed_subset (s : List Char) : dropFinalLineFeed s ⊆ s := by
  unfold dropFinalLineFeed
  split
  · exact List.dropLast_subset s
  · exact List.Subset.refl s

theorem dropFinalLineFeed_concat (s : List Char) : dropFinalLineFeed (s ++ ['\n']) = s := by
  simp [dropFinalLineFeed]

/-- The text of a safe name: a character that can start one, and then characters of names. -/
theorem isSafeName_iff {name : String} {c : Char} {rest : List Char} (h : name.toList = c :: rest) :
    IsSafeName name ↔ isTableHead c = true ∧ ∀ d ∈ rest, isTableChar d = true := by
  constructor
  · rintro ⟨-, hchars, hhead⟩
    rw [h] at hchars hhead
    obtain ⟨hc, hrest⟩ := List.forall_mem_cons.mp hchars
    exact ⟨isTableHead_iff.mpr ⟨hc, hhead c rfl⟩, fun d hd => isNameChar_iff.mpr (hrest d hd)⟩
  · rintro ⟨hc, hrest⟩
    obtain ⟨hchar, hstart⟩ := isTableHead_iff.mp hc
    refine ⟨?_, ?_, ?_⟩
    · rintro rfl
      cases h
    · rw [h]
      exact List.forall_mem_cons.mpr ⟨hchar, fun d hd => isNameChar_iff.mp (hrest d hd)⟩
    · rw [h]
      rintro d hd
      obtain rfl := Option.some.inj hd
      exact hstart

/-- What is accepted as the name of a table is a safe name, perhaps with a line feed behind it. -/
theorem isTableName_iff {table : String} : isTableName table.toList = true ↔
    ∃ name source, IsSafeName name ∧ NamesTable name table source := by
  constructor
  · intro h
    cases htable : table.toList with
    | nil =>
      rw [htable] at h
      cases h
    | cons c rest =>
      rw [htable] at h
      obtain ⟨hc, hall⟩ := (Bool.and_eq_true _ _).mp h
      by_cases hlast : rest.getLast? = some '\n'
      · obtain ⟨before, rfl⟩ := List.getLast?_eq_some_iff.mp hlast
        rw [dropFinalLineFeed_concat] at hall
        obtain rfl : table = String.ofList (c :: before) ++ "\n" := by
          rw [← String.toList_inj, htable, String.toList_append, String.toList_ofList]
          rfl
        exact ⟨_, _, (isSafeName_iff String.toList_ofList).mpr ⟨hc, List.all_eq_true.mp hall⟩, .fed⟩
      · rw [dropFinalLineFeed, if_neg hlast] at hall
        exact ⟨_, _, (isSafeName_iff htable).mpr ⟨hc, List.all_eq_true.mp hall⟩, .whole⟩
  · rintro ⟨name, source, hsafe, hnames⟩
    obtain ⟨c, rest, hname⟩ := List.exists_cons_of_ne_nil (l := name.toList) fun hnil =>
      hsafe.ne_empty (String.toList_eq_nil_iff.mp hnil)
    obtain ⟨hc, hrest⟩ := (isSafeName_iff hname).mp hsafe
    cases hnames with
    | whole =>
      rw [hname]
      refine (Bool.and_eq_true _ _).mpr ⟨hc, List.all_eq_true.mpr fun d hd => ?_⟩
      exact hrest d (dropFinalLineFeed_subset rest hd)
    | fed =>
      have htable : (name ++ "\n").toList = c :: (rest ++ ['\n']) := by
        rw [String.toList_append, hname]
        rfl
      rw [htable, isTableName, hc, dropFinalLineFeed_concat]
      exact List.all_eq_true.mpr hrest

end Plan

/-- A table is named by a safe name itself, or by one with a line feed behind it. -/
theorem exists_namesTable_iff {table : String} :
    (∃ name source, IsSafeName name ∧ NamesTable name table source) ↔
      IsSafeName table ∨ IsFedName table := by
  constructor
  · rintro ⟨name, source, hsafe, hnames⟩
    cases hnames with
    | whole => exact .inl hsafe
    | fed => exact .inr ⟨name, hsafe, rfl⟩
  · rintro (hsafe | ⟨name, hsafe, rfl⟩)
    · exact ⟨table, _, hsafe, .whole⟩
    · exact ⟨name, _, hsafe, .fed⟩

/-- A name with a line feed at its end is not safe. -/
theorem IsFedName.not_isSafeName {table : String} (h : IsFedName table) : ¬IsSafeName table := by
  obtain ⟨name, -, rfl⟩ := h
  intro hsafe
  have hchar := hsafe.chars '\n' (by simp [String.toList_append])
  revert hchar
  unfold IsNameChar
  decide

/-- Where all else is in order, only the safe names are accepted, unless a line feed stands behind one. -/
theorem accepts_safe_iff {table : String} {accepted planned : Prop} (hplanned : planned)
    (h : accepted ↔ planned ∧ ∃ name source, IsSafeName name ∧ NamesTable name table source) :
    (accepted ↔ IsSafeName table) ↔ ¬IsFedName table := by
  rw [h, exists_namesTable_iff]
  constructor
  · intro hsafe hfed
    exact hfed.not_isSafeName (hsafe.mp ⟨hplanned, .inr hfed⟩)
  · intro hfed
    exact ⟨fun hnamed => hnamed.2.resolve_right hfed, fun hsafe => ⟨hplanned, .inl hsafe⟩⟩

/-! ## Success -/

namespace Clause

variable {c : Clause} {cs : List Clause} {strict : Bool}

/-- A clause that makes a condition has no operand with too many digits. -/
theorem withinDigits_of_condition? {effect? : Option Condition} (h : c.condition? strict = .ok effect?)
    (hknown : c.isKnown = true) : c.WithinDigits := by
  obtain ⟨column, hcolumn⟩ := Option.isSome_iff_exists.mp hknown
  intro hp n hn
  by_contra hlong
  have htakes : c.operator.takesValue = true := by
    revert hp
    cases c.operator <;> decide
  have hnone : (Operand.int n).pattern? = none := by
    rw [Operand.pattern?, Operand.patternText?, if_pos (Nat.not_lt.mp hlong)]
    rfl
  rw [condition?, hcolumn] at h
  simp [conditionOn, htakes, hn, hp, hnone] at h

/-- Clauses have conditions exactly if none of them is an error. -/
theorem conditions_ok_iff : (∃ conditions, Clause.conditions strict cs = .ok conditions) ↔
    (strict = true → ∀ c ∈ cs, c.isKnown = true) ∧ ∀ c ∈ cs, c.isKnown = true → c.WithinDigits := by
  constructor
  · rintro ⟨conditions, h⟩
    induction cs generalizing conditions with
    | nil => simp
    | cons c rest ih =>
      unfold Clause.conditions at h
      split at h
      · cases h
      · rename_i effect? hc
        split at h
        · cases h
        · rename_i more hmore
          obtain ⟨hknown, hdigits⟩ := ih more hmore
          refine ⟨fun hs => List.forall_mem_cons.mpr ⟨?_, hknown hs⟩,
            List.forall_mem_cons.mpr ⟨withinDigits_of_condition? hc, hdigits⟩⟩
          by_contra hunknown
          rw [condition?_of_not_isKnown (by simpa using hunknown), hs] at hc
          cases hc
  · rintro ⟨hknown, hdigits⟩
    cases strict with
    | true => exact exists_conditions (fun c hc => hdigits c hc (hknown rfl c hc)) fun _ => hknown rfl
    | false =>
      rw [conditions_lenient]
      refine exists_conditions (fun c hc => ?_) fun _ c hc => ?_
      · obtain ⟨hmem, hc⟩ := List.mem_filter.mp hc
        exact hdigits c hmem hc
      · exact (List.mem_filter.mp hc).2

end Clause

/-- Conditions have a plan exactly if the table and the order are accepted. -/
theorem Plan.ofConditions_ok_iff {table : String} {conditions : List Condition}
    {orderBy? : Option String} {direction? : Option Direction} {limit : Nat} :
    (∃ p, ofConditions table conditions orderBy? direction? limit = .ok p) ↔
      isTableName table.toList = true ∧
        ∀ name, orderBy? = some name → (Column.named? name).isSome = true := by
  constructor
  · rintro ⟨p, h⟩
    have htable := (eq_of_ofConditions h).1
    refine ⟨htable, ?_⟩
    rintro name rfl
    unfold ofConditions orderOf at h
    cases hcolumn : Column.named? name with
    | some column => rfl
    | none => simp [htable, hcolumn] at h
  · rintro ⟨htable, horder⟩
    obtain ⟨order, horder⟩ := orderOf_of_known direction? horder
    exact ⟨_, by rw [ofConditions, htable, horder]; rfl⟩

/-- A specification compiles exactly if its clauses and its order can be planned and its table is named. -/
theorem Specification.compiles_iff {s : Specification} {table : String} {strict : Bool} :
    (∃ q, s.compile table strict = .ok q) ↔ Plannable strict s.clauses s.orderBy? ∧
      ∃ name source, IsSafeName name ∧ NamesTable name table source := by
  rw [← Plan.isTableName_iff]
  constructor
  · rintro ⟨q, h⟩
    obtain ⟨conditions, p, hconditions, hp, -⟩ := s.exists_plan_of_compile h
    obtain ⟨hknown, hdigits⟩ := Clause.conditions_ok_iff.mp ⟨conditions, hconditions⟩
    obtain ⟨htable, horder⟩ := Plan.ofConditions_ok_iff.mp ⟨p, hp⟩
    exact ⟨⟨hknown, hdigits, horder⟩, htable⟩
  · rintro ⟨⟨hknown, hdigits, horder⟩, htable⟩
    obtain ⟨conditions, hconditions⟩ := Clause.conditions_ok_iff.mpr ⟨hknown, hdigits⟩
    obtain ⟨p, hp⟩ := Plan.ofConditions_ok_iff.mpr ⟨htable, horder⟩
    exact ⟨p.compile, by rw [compile_of_conditions hconditions, hp]; rfl⟩

/-- A loose query compiles exactly if, besides, its number of rows and its order have a meaning. -/
theorem LooseQuery.compiles_iff {l : LooseQuery} {table : String} {strict : Bool}
    (htext : l.table = .text table) :
    (∃ q, l.compile strict = .ok q) ↔
      (Plannable strict l.clauses l.orderName? ∧ l.orderFault? = none ∧
          ∃ limit, Plan.limitOfValue l.limit = .ok limit) ∧
        ∃ name source, IsSafeName name ∧ NamesTable name table source := by
  have hvalue : Plan.tableOfValue l.table = .ok table := by rw [htext]; rfl
  rw [← Plan.isTableName_iff]
  constructor
  · rintro ⟨q, h⟩
    obtain ⟨conditions, limit, table', p, hconditions, hlimit, htable', hp, -⟩ :=
      l.exists_plan_of_compile h
    rw [hvalue] at htable'
    obtain rfl := Except.ok.inj htable'
    obtain ⟨hknown, hdigits⟩ := Clause.conditions_ok_iff.mp ⟨conditions, hconditions⟩
    obtain ⟨htable, horder⟩ := Plan.ofConditions_ok_iff.mp ⟨p, hp⟩
    refine ⟨⟨⟨hknown, hdigits, horder⟩, ?_, limit, hlimit⟩, htable⟩
    unfold compile at h
    rw [hconditions, hlimit, hvalue] at h
    simp only [Except.mapError, bind, Except.bind, hp] at h
    split at h
    · cases h
    · assumption
  · rintro ⟨⟨⟨hknown, hdigits, horder⟩, hfault, limit, hlimit⟩, htable⟩
    obtain ⟨conditions, hconditions⟩ := Clause.conditions_ok_iff.mpr ⟨hknown, hdigits⟩
    obtain ⟨p, hp⟩ := Plan.ofConditions_ok_iff.mpr ⟨htable, horder⟩
    refine ⟨p.compile, ?_⟩
    unfold compile
    rw [hconditions, hlimit, hvalue, hfault]
    simp only [Except.mapError, bind, Except.bind]
    rw [hp]

/-! ## Characters behind the table -/

/-- A letter, a digit, or a mark that stands in a line behind the table. -/
def isLineChar (c : Char) : Bool :=
  c.isAlphanum || [' ', ',', '=', '!', '<', '>', ':', '\x7b', '\x7d'].contains c

theorem isLineChar_of_isAlphanum {c : Char} (h : c.isAlphanum = true) : isLineChar c = true := by
  rw [isLineChar, h, Bool.true_or]

theorem Column.lineChars_label (c : Column) : c.label.toList.all isLineChar = true := by
  have hall : ∀ c ∈ Column.all, c.label.toList.all isLineChar = true := by decide
  exact hall c (Column.mem_all c)

namespace Condition

theorem lineChars_head (c : Condition) : c.head.toList.all isLineChar = true := by
  have hspace : " ".toList.all isLineChar = true := by decide
  have hsymbol : c.operator.symbol.toList.all isLineChar = true := by cases c.operator <;> decide
  rw [head, String.toList_append, String.toList_append, List.all_append, List.all_append, hspace,
    hsymbol, c.column.lineChars_label]
  rfl

theorem lineChars_placeholder (i : Nat) (type : StoreType) :
    (placeholder i type).toList.all isLineChar = true := by
  have hlabel : type.label.toList.all isLineChar = true := by cases type <;> decide
  have hname : (placeholderName i).toList.all isLineChar = true := by
    refine List.all_eq_true.mpr fun c hc => ?_
    exact isLineChar_of_isAlphanum (isAlphanum_of_mem_placeholderName hc)
  rw [toList_placeholder, List.all_cons, List.all_append, List.all_cons, List.all_append, hname, hlabel]
  rfl

theorem lineChars_texts (next : Nat) (cs : List Condition) :
    ∀ text ∈ texts next cs, text.toList.all isLineChar = true := by
  induction cs generalizing next with
  | nil => simp [texts]
  | cons c rest ih =>
    unfold texts
    cases c.bound? with
    | none => exact List.forall_mem_cons.mpr ⟨c.lineChars_head, ih next⟩
    | some o =>
      refine List.forall_mem_cons.mpr ⟨?_, ih (next + 1)⟩
      have hspace : " ".toList.all isLineChar = true := by decide
      rw [String.toList_append, String.toList_append, List.all_append, List.all_append, hspace,
        c.lineChars_head, lineChars_placeholder]
      rfl

end Condition

theorem RowOrder.lineChars_text (o : RowOrder) : o.text.toList.all isLineChar = true := by
  cases o with
  | standard => decide
  | along column direction =>
    have horder : "ORDER BY ".toList.all isLineChar = true := by decide
    have hspace : " ".toList.all isLineChar = true := by decide
    have hdirection : direction.symbol.toList.all isLineChar = true := by cases direction <;> decide
    rw [text, String.toList_append, String.toList_append, String.toList_append, List.all_append,
      List.all_append, List.all_append, horder, hspace, hdirection, column.lineChars_label]
    rfl

namespace Plan

theorem lineChars_limit (n : Nat) : ("LIMIT " ++ toString n).toList.all isLineChar = true := by
  have hlimit : "LIMIT ".toList.all isLineChar = true := by decide
  have hdigits : (toString n).toList = Nat.toDigits 10 n := Nat.toList_repr
  have hchars : (Nat.toDigits 10 n).all isLineChar = true := by
    refine List.all_eq_true.mpr fun c hc => isLineChar_of_isAlphanum ?_
    have hdigit := Nat.isDigit_of_mem_toDigits (b := 10) (by decide) (by decide) hc
    simp [Char.isAlphanum, hdigit]
  rw [String.toList_append, List.all_append, hlimit, hdigits, hchars]
  rfl

/-- The lines behind the table are made of the characters of a line. -/
theorem lineChars_linesBehind {p : Plan} {line : String} (h : line ∈ p.linesBehind) :
    line.toList.all isLineChar = true := by
  rcases List.mem_append.mp h with h | h
  · unfold whereLine at h
    split at h
    · cases h
    · rw [List.mem_singleton.mp h, String.toList_append, List.all_append, String.toList_intercalate]
      have hwhere : "WHERE ".toList.all isLineChar = true := by decide
      have hand : ∀ c ∈ " AND ".toList, isLineChar c = true := List.all_eq_true.mp (by decide)
      have hitems : ∀ c ∈ " AND ".toList.intercalate
          ((Condition.texts 0 p.conditions).map String.toList), isLineChar c = true := by
        refine forall_mem_intercalate hand ?_
        intro part hpart
        obtain ⟨text, htext, rfl⟩ := List.mem_map.mp hpart
        exact List.all_eq_true.mp (Condition.lineChars_texts 0 p.conditions text htext)
      rw [hwhere, List.all_eq_true.mpr hitems]
      rfl
  · simp only [List.mem_cons, List.not_mem_nil, or_false] at h
    rcases h with rfl | rfl
    · exact p.order.lineChars_text
    · exact lineChars_limit p.limit

/-- The text of a query holds the two backticks of its table and no others. -/
theorem count_backtick_compile {p : Plan} (h : isTableName p.table.toList = true) :
    p.compile.text.toList.count '\x60' = 2 := by
  have hbehind : '\x60' ∉ ['\n'].intercalate (p.linesBehind.map String.toList) := by
    refine not_mem_intercalate (by decide) ?_
    intro cs hcs hin
    obtain ⟨line, hline, rfl⟩ := List.mem_map.mp hcs
    have hchar := List.all_eq_true.mp (lineChars_linesBehind hline) _ hin
    revert hchar
    decide
  have hfront := List.count_eq_zero.mpr backtick_not_mem_front
  have htable := List.count_eq_zero.mpr (backtick_not_mem_of_isTableName h)
  rw [toList_compile]
  simp [List.count_append, hfront, htable, List.count_eq_zero.mpr hbehind]

/-! ## Lines -/

theorem columnLines_ne_nil (c : Column) (rest : List Column) : columnLines (c :: rest) ≠ [] := by
  cases rest <;> exact List.cons_ne_nil _ _

/-- The list of columns is made of their lines. -/
theorem intercalate_columnLines (c : Column) (rest : List Column) :
    String.intercalate "\n" (columnLines (c :: rest)) =
      "    " ++ String.intercalate ",\n    " ((c :: rest).map Column.label) := by
  induction rest generalizing c with
  | nil => simp [columnLines]
  | cons d rest ih =>
    have hcomma : ",\n    " = "," ++ ("\n" ++ "    ") := by decide
    have hlabels : String.intercalate ",\n    " ((c :: d :: rest).map Column.label) =
        c.label ++ ",\n    " ++ String.intercalate ",\n    " ((d :: rest).map Column.label) :=
      String.intercalate_cons_of_ne_nil (by simp)
    rw [columnLines, String.intercalate_cons_of_ne_nil (columnLines_ne_nil d rest), ih d, hlabels]
    · generalize String.intercalate ",\n    " ((d :: rest).map Column.label) = more
      rw [hcomma]
      simp only [String.append_assoc]
    · exact List.cons_ne_nil d rest

/-- Each column has a line of its own. -/
theorem feed_not_mem_columnLines {cs : List Column} {line : String} (h : line ∈ columnLines cs) :
    '\n' ∉ line.toList := by
  have hindent : '\n' ∉ "    ".toList := by decide
  have hcomma : '\n' ∉ ",".toList := by decide
  fun_induction columnLines cs with
  | case1 => cases h
  | case2 c =>
    rw [List.mem_singleton.mp h, String.toList_append, List.mem_append]
    exact not_or.mpr ⟨hindent, c.isWord.feed⟩
  | case3 c rest _ ih =>
    rcases List.mem_cons.mp h with rfl | h
    · rw [String.toList_append, String.toList_append, List.mem_append, List.mem_append]
      exact not_or.mpr ⟨not_or.mpr ⟨hindent, c.isWord.feed⟩, hcomma⟩
    · exact ih h

/-- The lines that name the table are those of its text between the backticks. -/
theorem splitOn_source {name table : String} {source : List String} (h : NamesTable name table source)
    (hsafe : IsSafeName name) :
    ("FROM `" ++ table ++ "`").toList.splitOn '\n' = source.map String.toList := by
  have hname : '\n' ∉ ("FROM `" ++ name).toList := by
    rw [String.toList_append, List.mem_append]
    rintro (hin | hin)
    · revert hin
      decide
    · have hchar := hsafe.chars _ hin
      revert hchar
      unfold IsNameChar
      decide
  cases h with
  | whole =>
    have hmark : '\n' ∉ ("FROM `" ++ name ++ "`").toList := by
      rw [String.toList_append, List.mem_append]
      rintro (hin | hin)
      · exact hname hin
      · revert hin
        decide
    rw [List.splitOn_eq_singleton hmark, List.map_singleton]
  | fed =>
    have htext : ("FROM `" ++ (name ++ "\n") ++ "`").toList =
        ("FROM `" ++ name).toList ++ '\n' :: ['\x60'] := by
      simp [String.toList_append]
    have hmark : ['\x60'].splitOn '\n' = ["`".toList] := by decide
    rw [htext, List.splitOn_append_cons_self, List.splitOn_eq_singleton hname, hmark,
      List.singleton_append, List.map_cons, List.map_singleton]

/-- The lines of a query's text: the columns, the table, and what stands behind it. -/
theorem splitOn_compile {p : Plan} {name : String} {source : List String}
    (h : NamesTable name p.table source) (hsafe : IsSafeName name) :
    p.compile.text.toList.splitOn '\n' =
      (["SELECT"] ++ columnLines Column.all ++ source ++ p.linesBehind).map String.toList := by
  have hcolumns : ("    " ++ selectList).toList.splitOn '\n' =
      (columnLines Column.all).map String.toList := by
    have hfeed : "\n".toList = ['\n'] := rfl
    rw [selectList, Column.all, ← intercalate_columnLines, String.toList_intercalate, hfeed]
    refine List.splitOn_intercalate '\n' ?_ (by simp [columnLines_ne_nil])
    intro cs hcs
    obtain ⟨line, hline, rfl⟩ := List.mem_map.mp hcs
    exact feed_not_mem_columnLines hline
  have hbehind : (['\n'].intercalate (p.linesBehind.map String.toList)).splitOn '\n' =
      p.linesBehind.map String.toList := by
    refine List.splitOn_intercalate '\n' ?_ (by simp [linesBehind])
    intro cs hcs
    obtain ⟨line, hline, rfl⟩ := List.mem_map.mp hcs
    exact feed_not_mem_linesBehind hline
  have hselect : "SELECT".toList.splitOn '\n' = ["SELECT".toList] := by decide
  have htext : p.compile.text.toList = "SELECT".toList ++ '\n' :: (("    " ++ selectList).toList ++
      '\n' :: (("FROM `" ++ p.table ++ "`").toList ++
        '\n' :: ['\n'].intercalate (p.linesBehind.map String.toList))) := by
    have hselect : "SELECT\n    " = "SELECT" ++ ("\n" ++ "    ") := by decide
    have hfrom : "FROM `" = "FROM " ++ "`" := by decide
    have hfrom' : "\nFROM " = "\n" ++ "FROM " := by decide
    have hfeed : "\n".toList = ['\n'] := rfl
    have hmark : "`".toList = ['\x60'] := rfl
    rw [toList_compile, front, hselect, hfrom, hfrom']
    simp only [String.toList_append, hfeed, hmark, List.append_assoc, List.cons_append,
      List.nil_append]
  rw [htext, List.splitOn_append_cons_self, List.splitOn_append_cons_self,
    List.splitOn_append_cons_self, hselect, hcolumns, splitOn_source h hsafe, hbehind]
  simp only [List.map_append, List.map_singleton, List.append_assoc]

/-- A query is laid out line by line, with the table on the lines that name it. -/
theorem laid_compile {clauses : List Clause} {p : Plan} {name : String} {source : List String}
    (heffective : p.conditions.map Condition.effective = clauses.filterMap Clause.effective?)
    (h : NamesTable name p.table source) (hsafe : IsSafeName name) :
    p.compile.Laid source clauses := by
  have horder : ∃ order, p.order.text = "ORDER BY " ++ order := by
    cases p.order with
    | standard => exact ⟨"Name, Date DESC", rfl⟩
    | along column direction =>
      exact ⟨column.label ++ " " ++ direction.symbol, by simp [RowOrder.text, String.append_assoc]⟩
  obtain ⟨order, horder⟩ := horder
  refine ⟨⟨whereLine p.conditions, order, ?_, ?_, ?_⟩,
    count_backtick_compile (isTableName_iff.mpr ⟨name, source, hsafe, h⟩)⟩
  · rw [splitOn_compile h hsafe, linesBehind, horder]
    simp only [List.append_assoc, compile]
  · intro hnone
    rw [← heffective, List.map_eq_nil_iff] at hnone
    rw [hnone]
    rfl
  · intro hsome
    have hne : p.conditions ≠ [] := by
      rintro hnone
      rw [← heffective, hnone] at hsome
      exact hsome rfl
    have hfull : p.conditions.isEmpty = false := by simpa using hne
    exact ⟨_, by rw [whereLine, hfull]; rfl⟩

/-- A plan is only made with a safe name for the table, perhaps with a line feed behind it, and its query is
laid out line by line. -/
theorem laid_of_ofConditions {strict : Bool} {clauses : List Clause} {table : String}
    {conditions : List Condition} {orderBy? : Option String} {direction? : Option Direction}
    {limit : Nat} {p : Plan} (hclauses : Clause.conditions strict clauses = .ok conditions)
    (h : ofConditions table conditions orderBy? direction? limit = .ok p) :
    ∃ name source, IsSafeName name ∧ NamesTable name table source ∧ p.compile.Laid source clauses := by
  obtain ⟨htable, rfl⟩ := eq_of_ofConditions h
  obtain ⟨name, source, hsafe, hnames⟩ := isTableName_iff.mp htable
  exact ⟨name, source, hsafe, hnames,
    laid_compile (Clause.effective_of_conditions hclauses) hnames hsafe⟩

end Plan

/-! ## Whole queries -/

/-- A specification that can be planned compiles exactly if its table goes by a safe name, and so does a
loose query. Then the lines of the text are the columns, the table, and one each for the conditions, the
order and the number of rows. It is the name itself that must be safe, unless it is a safe one with a line
feed behind it. -/
theorem compiles_iff_named (table : String) (strict : Bool) :
    (∀ s : Specification,
      ((∃ q, s.compile table strict = .ok q) ↔ Plannable strict s.clauses s.orderBy? ∧
        ∃ name source, IsSafeName name ∧ NamesTable name table source) ∧
      (Plannable strict s.clauses s.orderBy? →
        (((∃ q, s.compile table strict = .ok q) ↔ IsSafeName table) ↔ ¬IsFedName table)) ∧
      ∀ q, s.compile table strict = .ok q →
        ∃ name source, IsSafeName name ∧ NamesTable name table source ∧ q.Laid source s.clauses) ∧
    ∀ l : LooseQuery, l.table = .text table →
      ((∃ q, l.compile strict = .ok q) ↔
        (Plannable strict l.clauses l.orderName? ∧ l.orderFault? = none ∧
            ∃ limit, Plan.limitOfValue l.limit = .ok limit) ∧
          ∃ name source, IsSafeName name ∧ NamesTable name table source) ∧
      (Plannable strict l.clauses l.orderName? ∧ l.orderFault? = none ∧
          (∃ limit, Plan.limitOfValue l.limit = .ok limit) →
        (((∃ q, l.compile strict = .ok q) ↔ IsSafeName table) ↔ ¬IsFedName table)) ∧
      ∀ q, l.compile strict = .ok q →
        ∃ name source, IsSafeName name ∧ NamesTable name table source ∧ q.Laid source l.clauses := by
  constructor
  · intro s
    refine ⟨s.compiles_iff, fun hplanned => accepts_safe_iff hplanned s.compiles_iff, fun q h => ?_⟩
    obtain ⟨conditions, p, hconditions, hp, rfl⟩ := s.exists_plan_of_compile h
    exact Plan.laid_of_ofConditions hconditions hp
  · intro l htext
    have hiff := @LooseQuery.compiles_iff l table strict htext
    refine ⟨hiff, fun hplanned => accepts_safe_iff hplanned hiff, fun q h => ?_⟩
    obtain ⟨conditions, limit, table', p, hconditions, -, htable, hp, rfl⟩ := l.exists_plan_of_compile h
    rw [htext] at htable
    obtain rfl := Except.ok.inj htable
    exact Plan.laid_of_ofConditions hconditions hp

theorem compiles_iff_named_dotted :
    let clauses : List Clause := [⟨"Colour", .equal, some (.int 1)⟩, ⟨"Age", .isNull, none⟩]
    ∃ q, Specification.compile "meets.2024-a" false { clauses, orderBy? := some "Date" } = .ok q ∧
      q.Laid ["FROM `meets.2024-a`"] clauses ∧
      ∃ q', LooseQuery.compile false ⟨clauses, .bool true, .text "meets.2024-a", .null, none⟩ = .ok q' := by
  intro clauses
  have hname : "meets.2024-a".toList = 'm' :: "eets.2024-a".toList := by decide
  have hsafe : IsSafeName "meets.2024-a" :=
    (Plan.isSafeName_iff hname).mpr ⟨by decide, List.all_eq_true.mp (by decide)⟩
  have hdigits : ∀ c ∈ clauses, c.WithinDigits := by
    intro c hc hp
    simp only [clauses, List.mem_cons, List.not_mem_nil, or_false] at hc
    rcases hc with rfl | rfl <;> cases hp
  have hplannable : ∀ orderBy?, (∀ name, orderBy? = some name → (Column.named? name).isSome = true) →
      Plannable false clauses orderBy? :=
    fun _ horder => ⟨by simp, fun c hc _ => hdigits c hc, horder⟩
  obtain ⟨hspecification, hloose⟩ := compiles_iff_named "meets.2024-a" false
  obtain ⟨hiff, -, hlaid⟩ := hspecification { clauses, orderBy? := some "Date" }
  obtain ⟨q, hq⟩ := hiff.mpr ⟨hplannable _ (by decide), _, _, hsafe, .whole⟩
  obtain ⟨hiff', -⟩ := hloose ⟨clauses, .bool true, .text "meets.2024-a", .null, none⟩ rfl
  refine ⟨q, hq, ?_, hiff'.mpr ⟨⟨hplannable _ (by simp [LooseQuery.orderName?]), rfl, 1, rfl⟩,
    _, _, hsafe, .whole⟩⟩
  obtain ⟨name, source, -, hnames, hlaid⟩ := hlaid q hq
  generalize htable : "meets.2024-a" = table at hnames
  cases hnames with
  | whole =>
    subst htable
    exact hlaid
  | fed =>
    have hlast := congrArg (fun s => s.toList.getLast?) htable
    simp [String.toList_append] at hlast

/-- A name with a line feed behind it is not safe, and is accepted: its second backtick stands on a line of
its own. -/
theorem compiles_fed : ¬IsSafeName "meets\n" ∧ ∃ q, Specification.compile "meets\n" true {} = .ok q ∧
    "FROM `meets".toList ∈ q.text.toList.splitOn '\n' ∧ "`".toList ∈ q.text.toList.splitOn '\n' := by
  have hname : "meets".toList = 'm' :: "eets".toList := by decide
  have hsafe : IsSafeName "meets" :=
    (Plan.isSafeName_iff hname).mpr ⟨by decide, List.all_eq_true.mp (by decide)⟩
  have hnames : NamesTable "meets" "meets\n" ["FROM `" ++ "meets", "`"] := by
    have htable : "meets\n" = "meets" ++ "\n" := by decide
    rw [htable]
    exact .fed
  have hlines := Plan.splitOn_compile (p := ⟨"meets\n", [], .standard, 20⟩) hnames hsafe
  have hsource : "FROM `meets" = "FROM `" ++ "meets" := by decide
  have hfed : IsFedName "meets\n" := ⟨"meets", hsafe, by decide⟩
  refine ⟨hfed.not_isSafeName, Plan.compile ⟨"meets\n", [], .standard, 20⟩, rfl, ?_, ?_⟩
  · rw [hlines, hsource]
    exact List.mem_map_of_mem (by simp)
  · rw [hlines]
    exact List.mem_map_of_mem (by simp)

end MeetDesk
