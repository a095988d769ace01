import MeetDesk.Proofs.Query.Kinds
import MeetDesk.Proofs.Query.Words

/-!
# Reading a compiled query back

Nothing of a specification is lost when it is compiled, apart from what has no effect.
`EffectiveQuery.decode?` reads a query's text with its parameters and gives the table, the effective
clauses, the order and the number of rows that were asked for (`decode_of_compile`), so queries that
ask for different things are different.
-/

namespace MeetDesk

/-- A clause that has an effect. -/
structure EffectiveClause where
  column : Column
  operator : Operator
  /-- The declared type and the value that is bound, if the operator takes one. -/
  bound? : Option (StoreType × Operand)

structure EffectiveQuery where
  table : String
  clauses : List EffectiveClause
  order : RowOrder
  limit : Nat

/-! ## What a specification asks for -/

/-- The text of an operand inside a pattern. -/
def Operand.plain : Operand → String
  | text s => s
  | int n => toString n
  | float x => Decimal.plain.render x

/-- What is bound for a value: the value itself, or the pattern that finds it. -/
def Operator.bind (o : Operator) (value : Operand) : Operand :=
  if o.isPattern then .text ("%" ++ value.plain ++ "%") else value

/-- The effect of a clause: none if the column is not known, or if a value is missing. -/
def Clause.effective? (c : Clause) : Option EffectiveClause :=
  match Column.named? c.column with
  | none => none
  | some column =>
    if c.operator.takesValue then
      c.operand?.map fun value =>
        ⟨column, c.operator, some ((c.operator.bind value).storeType, c.operator.bind value)⟩
    else some ⟨column, c.operator, none⟩

/-- The order that is asked for: from the top down, unless a direction is given. -/
def RowOrder.effective (orderBy? : Option String) (direction? : Option Direction) : RowOrder :=
  match orderBy?.bind Column.named? with
  | none => .standard
  | some column => .along column (direction?.getD .descending)

/-- What a specification asks of a table. -/
def Specification.effective (s : Specification) (table : String) : EffectiveQuery :=
  ⟨table, s.clauses.filterMap Clause.effective?, .effective s.orderBy? s.direction?,
    Plan.limitOf s.limit?⟩

/-- What a loose query asks for, if its table and its number of rows have a meaning. -/
def LooseQuery.effective? (q : LooseQuery) : Option EffectiveQuery :=
  match Plan.tableOfValue q.table, Plan.limitOfValue q.limit with
  | .ok table, .ok limit =>
    some ⟨table, q.clauses.filterMap Clause.effective?, .effective q.orderName? q.direction?, limit⟩
  | _, _ => none

/-! ## Reading a query -/

/-- The operator at the front of some words, and the words behind it. -/
def Operator.ofWords? (ws : List String) : Option (Operator × List String) :=
  (all.find? fun o => o.words.isPrefixOf ws).map fun o => (o, ws.drop o.words.length)

/-- The name in the placeholder that is written as the word. -/
def nameInPlaceholder (word : String) : String :=
  String.ofList ((word.toList.drop 1).takeWhile (· != ':'))

/-- The clause that is written as the words. -/
def EffectiveClause.ofWords? (parameters : List (String × Operand))
    (types : List (String × StoreType)) : List String → Option EffectiveClause
  | [] => none
  | label :: ws =>
    match Column.named? label, Operator.ofWords? ws with
    | some column, some (operator, []) => some ⟨column, operator, none⟩
    | some column, some (operator, word :: _) =>
      match types.lookup (nameInPlaceholder word), parameters.lookup (nameInPlaceholder word) with
      | some type, some value => some ⟨column, operator, some (type, value)⟩
      | _, _ => none
    | _, _ => none

/-- The clauses in the line of the conditions. -/
def EffectiveClause.ofLine? (parameters : List (String × Operand)) (types : List (String × StoreType))
    (line : List Char) : Option (List EffectiveClause) :=
  (((wordsOf line).drop 1).splitOn "AND").mapM (ofWords? parameters types)

/-- The order in the line of the order. -/
def RowOrder.ofLine? (line : List Char) : Option RowOrder :=
  match wordsOf line with
  | [_, _, label, direction] =>
    match Column.named? label, Direction.all.find? fun d => d.symbol == direction with
    | some column, some direction => some (.along column direction)
    | _, _ => none
  | _ => some .standard

/-- The number in the line of the limit. -/
def limitOfLine (line : List Char) : Nat := Decimal.digitsValue (line.drop 6)

namespace EffectiveQuery

/-- What the lines behind the table ask for. -/
def ofLines? (parameters : List (String × Operand)) (types : List (String × StoreType))
    (table : String) : List (List Char) → Option EffectiveQuery
  | [order, limit] =>
    match RowOrder.ofLine? order with
    | some order => some ⟨table, [], order, limitOfLine limit⟩
    | none => none
  | [conditions, order, limit] =>
    match EffectiveClause.ofLine? parameters types conditions, RowOrder.ofLine? order with
    | some clauses, some order => some ⟨table, clauses, order, limitOfLine limit⟩
    | _, _ => none
  | _ => none

/-- What a query asks for, read off its text, its parameters and their types. The table stands between
the backticks. -/
def decode? (text : String) (parameters : List (String × Operand))
    (types : List (String × StoreType)) : Option EffectiveQuery :=
  let behind := (text.toList.dropWhile (· != '\x60')).drop 1
  let table := String.ofList (behind.takeWhile (· != '\x60'))
  ofLines? parameters types table (((behind.dropWhile (· != '\x60')).drop 2).splitOn '\n')

end EffectiveQuery

/-! ## Effects of clauses -/

def Condition.effective (c : Condition) : EffectiveClause :=
  ⟨c.column, c.operator, c.bound?.map fun o => (o.storeType, o)⟩

/-- A pattern is the plain form of the operand between percent signs. -/
theorem Operand.eq_of_pattern? {o p : Operand} (h : o.pattern? = some p) :
    p = .text ("%" ++ o.plain ++ "%") := by
  unfold pattern? patternText? at h
  cases o with
  | text s | float x => exact (Option.some.inj h).symm
  | int n =>
    dsimp only at h
    split at h
    · cases h
    · exact (Option.some.inj h).symm

namespace Clause

variable {c : Clause} {column : Column} {effect? : Option Condition}

/-- A condition on a column comes to what its clause comes to. -/
theorem effective_of_conditionOn (h : c.conditionOn column = .ok effect?)
    (hcolumn : Column.named? c.column = some column) :
    effect?.map Condition.effective = c.effective? := by
  unfold effective?
  rw [hcolumn]
  dsimp only
  by_cases htakes : c.operator.takesValue = true
  · rw [if_pos htakes]
    cases ho : c.operand? with
    | none =>
      rw [conditionOn_of_absent htakes ho] at h
      obtain rfl := Except.ok.inj h
      rfl
    | some value =>
      rw [Option.map_some]
      by_cases hp : c.operator.isPattern = true
      · have hbind : c.operator.bind value = .text ("%" ++ value.plain ++ "%") := if_pos hp
        unfold conditionOn at h
        simp only [htakes, ho, hp, Bool.not_true, Bool.false_eq_true, if_false, if_true] at h
        split at h
        · rename_i pattern hpattern
          obtain rfl := Except.ok.inj h
          rw [Operand.eq_of_pattern? hpattern, hbind]
          rfl
        · cases h
      · have hp : c.operator.isPattern = false := by simpa using hp
        have hbind : c.operator.bind value = value := if_neg (by simp [hp])
        rw [conditionOn_of_not_isPattern htakes hp ho] at h
        obtain rfl := Except.ok.inj h
        rw [hbind]
        rfl
  · rw [if_neg htakes]
    rw [conditionOn_of_not_takesValue (by simpa using htakes)] at h
    obtain rfl := Except.ok.inj h
    rfl

/-- A condition comes to what its clause comes to, strictly or not. -/
theorem effective_of_condition? {strict : Bool} (h : c.condition? strict = .ok effect?) :
    effect?.map Condition.effective = c.effective? := by
  unfold condition? at h
  split at h
  · rename_i column hcolumn
    exact effective_of_conditionOn h hcolumn
  · rename_i hcolumn
    split at h
    · cases h
    · obtain rfl := Except.ok.inj h
      rw [effective?, hcolumn]
      rfl

/-- The conditions of clauses are the clauses that have an effect, in order. -/
theorem effective_of_conditions {strict : Bool} {clauses : List Clause}
    {conditions : List Condition} (h : Clause.conditions strict clauses = .ok conditions) :
    conditions.map Condition.effective = clauses.filterMap effective? := by
  induction clauses generalizing conditions with
  | nil =>
    obtain rfl := Except.ok.inj h
    rfl
  | cons c rest ih =>
    unfold Clause.conditions at h
    split at h
    · cases h
    · rename_i effect? hc
      split at h
      · cases h
      · rename_i more hmore
        obtain rfl := Except.ok.inj h
        rw [List.map_append, ih hmore, List.filterMap_cons, ← effective_of_condition? hc]
        cases effect? <;> rfl

end Clause

/-! ## Operators and placeholders -/

/-- The operator at the front of some words is told by them. -/
theorem Operator.ofWords?_append (o : Operator) (ws : List String) :
    Operator.ofWords? (o.words ++ ws) = some (o, ws) := by
  have hfree : ∀ o ∈ Operator.all, ∀ p ∈ Operator.all,
      o.words.isPrefixOf p.words = true → o = p := by
    decide
  have hfind : (all.find? fun p => p.words.isPrefixOf (o.words ++ ws)) = some o := by
    cases hfound : all.find? fun p => p.words.isPrefixOf (o.words ++ ws) with
    | none =>
      have hself := List.find?_eq_none.mp hfound o (mem_all o)
      exact absurd (List.isPrefixOf_iff_prefix.mpr (List.prefix_append _ _)) hself
    | some p =>
      have hmatch : p.words.isPrefixOf (o.words ++ ws) = true := by
        simpa using List.find?_some hfound
      have hp := List.isPrefixOf_iff_prefix.mp hmatch
      -- Two beginnings of one list: the shorter one is the beginning of the longer one.
      rcases List.prefix_or_prefix_of_prefix hp (List.prefix_append o.words ws) with h | h
      · rw [hfree p (mem_all p) o (mem_all o) (List.isPrefixOf_iff_prefix.mpr h)]
      · rw [hfree o (mem_all o) p (mem_all p) (List.isPrefixOf_iff_prefix.mpr h)]
  rw [ofWords?, hfind, Option.map_some, List.drop_left]

/-- A placeholder is read as the name that it was made with. -/
theorem nameInPlaceholder_placeholder (i : Nat) (type : StoreType) :
    nameInPlaceholder (placeholder i type) = placeholderName i := by
  have hcolon : ':' ∉ (placeholderName i).toList := by
    intro hin
    have halnum := isAlphanum_of_mem_placeholderName hin
    revert halnum
    decide
  rw [nameInPlaceholder, toList_placeholder, List.drop_one, List.tail_cons,
    List.takeWhile_append_of_pos (bne_of_not_mem hcolon), List.takeWhile_cons_of_neg (by decide),
    List.append_nil, String.ofList_toList]

/-- The parameter at a place is found under the name of the place. -/
theorem lookup_placeholderName {β : Type} (f : Operand → β) (os : List Operand) (next i : Nat) :
    ((os.zipIdx next).map fun (o, j) => (placeholderName j, f o)).lookup (placeholderName (next + i)) =
      os[i]?.map f := by
  induction os generalizing next i with
  | nil => rfl
  | cons o os ih =>
    rw [List.zipIdx_cons, List.map_cons]
    cases i with
    | zero => simp
    | succ i =>
      have hne : (placeholderName (next + (i + 1)) == placeholderName next) = false := by
        rw [beq_eq_false_iff_ne]
        intro heq
        have := placeholderName_injective heq
        omega
      rw [List.lookup_cons, hne]
      have hnext : next + (i + 1) = next + 1 + i := by omega
      rw [hnext, List.getElem?_cons_succ]
      exact ih (next + 1) i

/-! ## Lines -/

/-- The parameter under the number `i` is the operand `o`, and is declared with its type. -/
structure Binds (parameters : List (String × Operand)) (types : List (String × StoreType)) (i : Nat)
    (o : Operand) : Prop where
  value : parameters.lookup (placeholderName i) = some o
  type : types.lookup (placeholderName i) = some o.storeType

namespace Condition

variable {parameters : List (String × Operand)} {types : List (String × StoreType)}

/-- A condition is read back from its words, if its operand is bound. -/
theorem ofWords?_words {next : Nat} {c : Condition}
    (h : ∀ o, c.bound? = some o → Binds parameters types next o) :
    EffectiveClause.ofWords? parameters types (c.words next) = some c.effective := by
  unfold words EffectiveClause.ofWords? effective
  dsimp only
  rw [Column.named?_label, Operator.ofWords?_append]
  cases hbound : c.bound? with
  | none => rfl
  | some o =>
    obtain ⟨hvalue, htype⟩ := h o hbound
    simp [nameInPlaceholder_placeholder, hvalue, htype]

/-- Conditions are read back from their words, in order, if their placeholders are found. -/
theorem mapM_wordLists {next : Nat} {cs : List Condition}
    (h : ∀ i o, (operands cs)[i]? = some o → Binds parameters types (next + i) o) :
    (wordLists next cs).mapM (EffectiveClause.ofWords? parameters types) =
      some (cs.map effective) := by
  induction cs generalizing next with
  | nil => rfl
  | cons c rest ih =>
    unfold wordLists
    have hoperands : operands (c :: rest) = c.bound?.toList ++ operands rest := by
      unfold operands
      rw [List.filterMap_cons]
      cases c.bound? <;> rfl
    rw [hoperands] at h
    have hfirst : EffectiveClause.ofWords? parameters types (c.words next) = some c.effective := by
      refine ofWords?_words fun o ho => ?_
      rw [ho] at h
      exact h 0 o rfl
    have hrest : (wordLists (next + c.bound?.toList.length) rest).mapM
        (EffectiveClause.ofWords? parameters types) = some (rest.map effective) := by
      refine ih fun i o ho => ?_
      rw [Nat.add_assoc]
      refine h (c.bound?.toList.length + i) o ?_
      rw [List.getElem?_append_right (Nat.le_add_right _ _), Nat.add_sub_cancel_left]
      exact ho
    rw [List.mapM_cons, hfirst, hrest]
    rfl

end Condition

/-- The conditions are read back from their line. -/
theorem EffectiveClause.ofLine?_where {parameters : List (String × Operand)}
    {types : List (String × StoreType)} {cs : List Condition} (hne : cs ≠ [])
    (h : ∀ i o, (Condition.operands cs)[i]? = some o → Binds parameters types i o) :
    ofLine? parameters types
        ("WHERE " ++ String.intercalate " AND " (Condition.texts 0 cs)).toList =
      some (cs.map Condition.effective) := by
  have hand : ∀ ws ∈ Condition.wordLists 0 cs, "AND" ∉ ws := by
    intro ws hws hin
    obtain ⟨i, c, rfl⟩ := Condition.mem_wordLists hws
    exact (Condition.isWord_of_mem_words hin).ne_and rfl
  have hwords : wordsOf (String.intercalate " " (Condition.lineWords cs)).toList =
      Condition.lineWords cs :=
    wordsOf_intercalate (List.cons_ne_nil _ _) fun w hw => (Condition.blank_not_mem_lineWords hw).1
  rw [ofLine?, Condition.line_eq hne, hwords, Condition.lineWords, List.drop_one, List.tail_cons,
    List.splitOn_intercalate "AND" hand (Condition.wordLists_ne_nil hne)]
  refine Condition.mapM_wordLists fun i o ho => ?_
  rw [Nat.zero_add]
  exact h i o ho

/-- An order is read back from its line. -/
theorem RowOrder.ofLine?_text (o : RowOrder) : ofLine? o.text.toList = some o := by
  rw [ofLine?, text_eq, wordsOf_intercalate]
  · cases o with
    | standard => rfl
    | along column direction =>
      have hdirection : (Direction.all.find? fun d => d.symbol == direction.symbol) = some direction := by
        cases direction <;> decide
      simp [words, Column.named?_label, hdirection]
  · cases o <;> exact List.cons_ne_nil _ _
  · exact fun w hw => (isWord_of_mem_words hw).space

/-- The limit is read back from its line. -/
theorem limitOfLine_limit (n : Nat) : limitOfLine ("LIMIT " ++ toString n).toList = n := by
  have hdigits : (toString n).toList = Nat.toDigits 10 n := Nat.toList_repr
  have hlimit : "LIMIT ".toList.length = 6 := rfl
  rw [limitOfLine, String.toList_append, hdigits, ← hlimit, List.drop_left,
    Json.digitsValue_toDigits]

/-! ## Whole queries -/

namespace Plan

/-- A query binds the operands of its conditions. -/
theorem binds_compile {p : Plan} {i : Nat} {o : Operand}
    (h : (Condition.operands p.conditions)[i]? = some o) :
    Binds p.compile.parameters p.compile.types i o := by
  have hvalue := lookup_placeholderName id (Condition.operands p.conditions) 0 i
  have htype := lookup_placeholderName Operand.storeType (Condition.operands p.conditions) 0 i
  rw [h, Nat.zero_add] at hvalue htype
  refine ⟨hvalue, ?_⟩
  rw [← Option.map_some, ← htype, CompiledQuery.types, compile, parameters, List.map_map]
  rfl

/-- The lines behind the table are read back. -/
theorem ofLines?_linesBehind (p : Plan) :
    EffectiveQuery.ofLines? p.compile.parameters p.compile.types p.table
        (p.linesBehind.map String.toList) =
      some ⟨p.table, p.conditions.map Condition.effective, p.order, p.limit⟩ := by
  unfold linesBehind whereLine
  by_cases hne : p.conditions = []
  · rw [hne]
    simp only [List.isEmpty_nil, if_true, List.nil_append, List.map_cons, List.map_nil,
      EffectiveQuery.ofLines?, RowOrder.ofLine?_text, limitOfLine_limit]
  · have hclauses := EffectiveClause.ofLine?_where hne fun i o ho => binds_compile ho
    have hsome : p.conditions.isEmpty = false := by simpa using hne
    rw [hsome]
    simp only [Bool.false_eq_true, if_false, List.singleton_append, List.map_cons, List.map_nil,
      EffectiveQuery.ofLines?, hclauses, RowOrder.ofLine?_text, limitOfLine_limit]

/-- A query is decoded to the plan that it was compiled from. -/
theorem decode?_compile (p : Plan) (h : isTableName p.table.toList = true) :
    EffectiveQuery.decode? p.compile.text p.compile.parameters p.compile.types =
      some ⟨p.table, p.conditions.map Condition.effective, p.order, p.limit⟩ := by
  have hfront := bne_of_not_mem backtick_not_mem_front
  have htable := bne_of_not_mem (backtick_not_mem_of_isTableName h)
  have hsplit : (['\n'].intercalate (p.linesBehind.map String.toList)).splitOn '\n' =
      p.linesBehind.map String.toList := by
    refine List.splitOn_intercalate '\n' ?_ (by simp [linesBehind])
    intro cs hcs
    obtain ⟨line, hline, rfl⟩ := List.mem_map.mp hcs
    exact feed_not_mem_linesBehind hline
  unfold EffectiveQuery.decode?
  rw [toList_compile, List.dropWhile_append_of_pos hfront]
  simp [List.takeWhile_append_of_pos htable, List.dropWhile_append_of_pos htable, hsplit,
    ofLines?_linesBehind]

/-- A plan is only made for a table name, and it has the parts that it was made of. -/
theorem eq_of_ofConditions {table : String} {conditions : List Condition} {orderBy? : Option String}
    {direction? : Option Direction} {limit : Nat} {p : Plan}
    (h : ofConditions table conditions orderBy? direction? limit = .ok p) :
    isTableName table.toList = true ∧
      p = ⟨table, conditions, .effective orderBy? direction?, limit⟩ := by
  unfold ofConditions at h
  split at h
  · cases h
  · rename_i htable
    split at h
    · cases h
    · rename_i order horder
      obtain rfl := Except.ok.inj h
      have heffective : order = .effective orderBy? direction? := by
        unfold orderOf at horder
        unfold RowOrder.effective
        cases orderBy? with
        | none => exact (Except.ok.inj horder).symm
        | some name =>
          rw [Option.bind_some]
          cases hcolumn : Column.named? name with
          | none => simp [hcolumn] at horder
          | some column =>
            simp only [hcolumn] at horder
            exact (Except.ok.inj horder).symm
      exact ⟨by simpa using htable, by rw [heffective]⟩

/-- A query is decoded to what its clauses, table, order and limit come to. -/
theorem decode?_of_ofConditions {strict : Bool} {clauses : List Clause} {table : String}
    {conditions : List Condition} {orderBy? : Option String} {direction? : Option Direction}
    {limit : Nat} {p : Plan} (hclauses : Clause.conditions strict clauses = .ok conditions)
    (h : ofConditions table conditions orderBy? direction? limit = .ok p) :
    EffectiveQuery.decode? p.compile.text p.compile.parameters p.compile.types =
      some ⟨table, clauses.filterMap Clause.effective?, .effective orderBy? direction?, limit⟩ := by
  obtain ⟨htable, rfl⟩ := eq_of_ofConditions h
  rw [decode?_compile _ htable, Clause.effective_of_conditions hclauses]

end Plan

/-- A specification that compiles has a plan. -/
theorem Specification.exists_plan_of_compile {s : Specification} {table : String} {strict : Bool}
    {q : CompiledQuery} (h : s.compile table strict = .ok q) :
    ∃ conditions p, Clause.conditions strict s.clauses = .ok conditions ∧
      Plan.ofConditions table conditions s.orderBy? s.direction? (Plan.limitOf s.limit?) = .ok p ∧
      q = p.compile := by
  unfold compile Plan.ofSpecification at h
  split at h
  · rename_i p hp
    split at hp
    · cases hp
    · rename_i conditions hconditions
      exact ⟨conditions, p, hconditions, hp, (Except.ok.inj h).symm⟩
  · cases h

/-- A specification that compiles is decoded to what it comes to. -/
theorem Specification.decode?_of_compile {s : Specification} {table : String} {strict : Bool}
    {q : CompiledQuery} (h : s.compile table strict = .ok q) :
    EffectiveQuery.decode? q.text q.parameters q.types = some (s.effective table) := by
  obtain ⟨conditions, p, hconditions, hp, rfl⟩ := exists_plan_of_compile h
  exact Plan.decode?_of_ofConditions hconditions hp

/-- A loose query that compiles has a plan. -/
theorem LooseQuery.exists_plan_of_compile {l : LooseQuery} {strict : Bool} {q : CompiledQuery}
    (h : l.compile strict = .ok q) :
    ∃ conditions limit table p, Clause.conditions strict l.clauses = .ok conditions ∧
      Plan.limitOfValue l.limit = .ok limit ∧ Plan.tableOfValue l.table = .ok table ∧
      Plan.ofConditions table conditions l.orderName? l.direction? limit = .ok p ∧
      q = p.compile := by
  unfold compile at h
  dsimp only [bind, Except.bind] at h
  cases hconditions : Clause.conditions strict l.clauses with
  | error e => simp [hconditions, Except.mapError] at h
  | ok conditions =>
    cases hlimit : Plan.limitOfValue l.limit with
    | error f => simp [hconditions, hlimit, Except.mapError] at h
    | ok limit =>
      cases htable : Plan.tableOfValue l.table with
      | error f => simp [hconditions, hlimit, htable, Except.mapError] at h
      | ok table =>
        cases hplan : Plan.ofConditions table conditions l.orderName? l.direction? limit with
        | error e => simp [hconditions, hlimit, htable, hplan, Except.mapError] at h
        | ok p =>
          simp only [hconditions, hlimit, htable, hplan, Except.mapError] at h
          split at h
          · cases h
          · exact ⟨conditions, limit, table, p, rfl, rfl, rfl, hplan, (Except.ok.inj h).symm⟩

/-- A loose query that compiles is decoded to what it comes to. -/
theorem LooseQuery.decode?_of_compile {l : LooseQuery} {strict : Bool} {q : CompiledQuery}
    (h : l.compile strict = .ok q) : ∃ asked, l.effective? = some asked ∧
      EffectiveQuery.decode? q.text q.parameters q.types = some asked := by
  obtain ⟨conditions, limit, table, p, hconditions, hlimit, htable, hplan, rfl⟩ :=
    exists_plan_of_compile h
  refine ⟨_, ?_, Plan.decode?_of_ofConditions hconditions hplan⟩
  rw [effective?, htable, hlimit]

/-- A specification that compiles, or a loose query, is read back from its query, and specifications
that ask for different things never compile to the same query. -/
theorem decode_of_compile :
    (∀ (s : Specification) (table : String) (strict : Bool) (q : CompiledQuery),
      s.compile table strict = .ok q →
        EffectiveQuery.decode? q.text q.parameters q.types = some (s.effective table)) ∧
    (∀ (l : LooseQuery) (strict : Bool) (q : CompiledQuery), l.compile strict = .ok q →
      ∃ asked, l.effective? = some asked ∧
        EffectiveQuery.decode? q.text q.parameters q.types = some asked) ∧
    ∀ (s s' : Specification) (table table' : String) (strict strict' : Bool) (q q' : CompiledQuery),
      s.compile table strict = .ok q → s'.compile table' strict' = .ok q' →
        s.effective table ≠ s'.effective table' → q ≠ q' := by
  refine ⟨fun _ _ _ _ h => Specification.decode?_of_compile h,
    fun _ _ _ h => LooseQuery.decode?_of_compile h, ?_⟩
  intro s s' table table' strict strict' q q' h h' hne heq
  have hdecode := Specification.decode?_of_compile h
  have hdecode' := Specification.decode?_of_compile h'
  rw [heq, hdecode'] at hdecode
  exact hne (Option.some.inj hdecode).symm

theorem decode_of_compile_unplaced :
    ∃ q q', Specification.compile "meets\n" false
        { clauses := [⟨"Place", .isNull, some (.int 1)⟩, ⟨"Colour", .equal, some (.int 2)⟩,
            ⟨"Name", .matchesNoPattern, some (.text " AND ")⟩, ⟨"Age", .less, some (.int 30)⟩]
          orderBy? := some "Date" } = .ok q ∧
      EffectiveQuery.decode? q.text q.parameters q.types =
        some ⟨"meets\n", [⟨.place, .isNull, none⟩,
          ⟨.name, .matchesNoPattern, some (.string, .text "% AND %")⟩,
          ⟨.age, .less, some (.int64, .int 30)⟩], .along .date .descending, 20⟩ ∧
      Specification.compile "meets\n" true { limit? := some 5 } = .ok q' ∧ q ≠ q' := by
  obtain ⟨q, hq⟩ : ∃ q, Specification.compile "meets\n" false
      { clauses := [⟨"Place", .isNull, some (.int 1)⟩, ⟨"Colour", .equal, some (.int 2)⟩,
          ⟨"Name", .matchesNoPattern, some (.text " AND ")⟩, ⟨"Age", .less, some (.int 30)⟩]
        orderBy? := some "Date" } = .ok q :=
    ⟨_, rfl⟩
  obtain ⟨q', hq'⟩ : ∃ q, Specification.compile "meets\n" true { limit? := some 5 } = .ok q :=
    ⟨_, rfl⟩
  obtain ⟨decoded, -, differ⟩ := decode_of_compile
  refine ⟨q, q', hq, decoded _ _ _ _ hq, hq', differ _ _ _ _ _ _ _ _ hq hq' fun h => ?_⟩
  exact absurd (congrArg EffectiveQuery.limit h) (by decide)

end MeetDesk
