import Mathlib.Data.List.Forall2
import MeetDesk.Query.Loose

/-!
# What the values of a query decide

The values of a specification are bound to placeholders. Of a value, the text of the query tells at most
the kind, so two lists of clauses whose values are of the same kinds compile alike, or fail alike
(`compile_of_matching`). A null check tells nothing of its value, and a pattern tells only that there
is one.
-/

namespace MeetDesk

/-- Two values are of one kind. -/
inductive Operand.SameKind : Operand → Operand → Prop
  | text (s t : String) : SameKind (.text s) (.text t)
  | int (m n : Int) : SameKind (.int m) (.int n)
  | float (x y : Float) : SameKind (.float x) (.float y)

/-- Two values, or their absence, make no difference in a clause with the operator `o`. -/
inductive Operator.Alike (o : Operator) : Option Operand → Option Operand → Prop
  | unused (a b : Option Operand) (h : o.takesValue = false) : Alike o a b
  | absent : Alike o none none
  | pattern (a b : Operand) (h : o.isPattern = true) : Alike o (some a) (some b)
  | kind {a b : Operand} (h : Operand.SameKind a b) : Alike o (some a) (some b)

/-- Two clauses agree in all but their values, and these make no difference. -/
structure Clause.Matches (c d : Clause) : Prop where
  column : c.column = d.column
  operator : c.operator = d.operator
  operand : c.operator.Alike c.operand? d.operand?

/-- A pattern does not hold an integer with too many digits. -/
def Clause.WithinDigits (c : Clause) : Prop :=
  c.operator.isPattern = true → ∀ n, c.operand? = some (.int n) → n.natAbs < Nat.pow 10 Json.maxDigits

/-- Two compilations fail with the same error, or succeed with the same text and with the same names
and types of placeholders. -/
inductive SameQuery {ε : Type} : Except ε CompiledQuery → Except ε CompiledQuery → Prop
  | failed (e : ε) : SameQuery (.error e) (.error e)
  | compiled {q q' : CompiledQuery} (text : q.text = q'.text) (types : q.types = q'.types)
      (names : q.parameters.map Prod.fst = q'.parameters.map Prod.fst) (limit : q.limit = q'.limit) :
      SameQuery (.ok q) (.ok q')

/-- Two conditions agree in all but what is bound to their placeholders. -/
structure Condition.Matches (c d : Condition) : Prop where
  head : c.head = d.head
  bound : c.bound?.map Operand.storeType = d.bound?.map Operand.storeType

/-! ## Clauses -/

/-- Operands of one kind have one type. -/
theorem Operand.SameKind.storeType {a b : Operand} (h : a.SameKind b) :
    a.storeType = b.storeType := by
  cases h <;> rfl

/-- An operand makes a pattern, which is a text, unless it has too many digits. -/
theorem Operand.pattern?_eq {o : Operand} (h : ∀ n, o = .int n → n.natAbs < Nat.pow 10 Json.maxDigits) :
    ∃ s, o.pattern? = some (.text s) := by
  cases o with
  | text s => exact ⟨_, rfl⟩
  | float x => exact ⟨_, rfl⟩
  | int n =>
    have hsmall := Nat.not_le_of_lt (h n rfl)
    refine ⟨"%" ++ toString n ++ "%", ?_⟩
    rw [pattern?, patternText?, if_neg hsmall]
    rfl

namespace Clause

variable {c d : Clause} {column : Column}

/-- An operator that takes no value makes a condition without one. -/
theorem conditionOn_of_not_takesValue (h : c.operator.takesValue = false) :
    c.conditionOn column = .ok (some ⟨column, c.operator, none⟩) := by
  unfold conditionOn
  rw [h]
  rfl

/-- An operator that takes a value makes no condition if there is none. -/
theorem conditionOn_of_absent (h : c.operator.takesValue = true) (ho : c.operand? = none) :
    c.conditionOn column = .ok none := by
  unfold conditionOn
  rw [h, ho]
  rfl

/-- A pattern operator makes a condition on a text. -/
theorem conditionOn_of_isPattern (column : Column) {o : Operand} (h : c.operator.isPattern = true)
    (ho : c.operand? = some o) (hc : c.WithinDigits) :
    ∃ s, c.conditionOn column = .ok (some ⟨column, c.operator, some (.text s)⟩) := by
  obtain ⟨s, hs⟩ := Operand.pattern?_eq (o := o) fun n hn => hc h n (hn ▸ ho)
  have htakes : c.operator.takesValue = true := by
    revert h
    cases c.operator <;> decide
  refine ⟨s, ?_⟩
  unfold conditionOn
  rw [htakes, ho]
  simp [h, hs]

/-- Any other operator makes a condition on the operand as it is. -/
theorem conditionOn_of_not_isPattern {o : Operand} (h : c.operator.takesValue = true)
    (hp : c.operator.isPattern = false) (ho : c.operand? = some o) :
    c.conditionOn column = .ok (some ⟨column, c.operator, some o⟩) := by
  unfold conditionOn
  rw [h, ho]
  simp [hp]

/-- Clauses that match have no effect together, or put conditions on their columns that match. -/
theorem conditionOn_of_matches (h : c.Matches d) (hc : c.WithinDigits) (hd : d.WithinDigits) :
    (c.conditionOn column = .ok none ∧ d.conditionOn column = .ok none) ∨
    ∃ a b, c.conditionOn column = .ok (some a) ∧ d.conditionOn column = .ok (some b) ∧
      a.Matches b := by
  obtain ⟨-, hop, halike⟩ := h
  by_cases htakes : c.operator.takesValue = true
  · -- The operator compares with a value: the two values are both there, or both missing.
    have htakes' : d.operator.takesValue = true := hop ▸ htakes
    generalize hco : c.operand? = a?, hdo : d.operand? = b? at halike
    by_cases hp : c.operator.isPattern = true
    · have hp' : d.operator.isPattern = true := hop ▸ hp
      cases halike with
      | unused _ _ hno => cases hno.symm.trans htakes
      | absent => exact Or.inl ⟨conditionOn_of_absent htakes hco, conditionOn_of_absent htakes' hdo⟩
      | pattern | kind =>
        obtain ⟨s, hs⟩ := conditionOn_of_isPattern column hp hco hc
        obtain ⟨t, ht⟩ := conditionOn_of_isPattern column hp' hdo hd
        refine Or.inr ⟨_, _, hs, ht, ?_, rfl⟩
        rw [Condition.head, Condition.head, hop]
    · have hp : c.operator.isPattern = false := by simpa using hp
      have hp' : d.operator.isPattern = false := hop ▸ hp
      cases halike with
      | unused _ _ hno => cases hno.symm.trans htakes
      | absent => exact Or.inl ⟨conditionOn_of_absent htakes hco, conditionOn_of_absent htakes' hdo⟩
      | pattern _ _ hyes => cases hyes.symm.trans hp
      | kind hkind =>
        refine Or.inr ⟨_, _, conditionOn_of_not_isPattern htakes hp hco,
          conditionOn_of_not_isPattern htakes' hp' hdo, ?_, congrArg some hkind.storeType⟩
        rw [Condition.head, Condition.head, hop]
  · have htakes : c.operator.takesValue = false := by simpa using htakes
    have htakes' : d.operator.takesValue = false := hop ▸ htakes
    refine Or.inr ⟨_, _, conditionOn_of_not_takesValue htakes, conditionOn_of_not_takesValue htakes',
      ?_, rfl⟩
    rw [Condition.head, Condition.head, hop]

/-- Clauses that match make the same error, no condition, or conditions that match. -/
theorem condition?_of_matches (strict : Bool) (h : c.Matches d) (hc : c.WithinDigits) (hd : d.WithinDigits) :
    (∃ e, c.condition? strict = .error e ∧ d.condition? strict = .error e) ∨
    (c.condition? strict = .ok none ∧ d.condition? strict = .ok none) ∨
    ∃ a b, c.condition? strict = .ok (some a) ∧ d.condition? strict = .ok (some b) ∧
      a.Matches b := by
  unfold condition?
  rw [← h.column]
  cases Column.named? c.column with
  | some column => exact Or.inr (conditionOn_of_matches h hc hd)
  | none =>
    cases strict with
    | true => exact Or.inl ⟨_, rfl, rfl⟩
    | false => exact Or.inr (Or.inl ⟨rfl, rfl⟩)

/-- Lists of clauses that match make the same error or conditions that match. -/
theorem conditions_of_matching (strict : Bool) {cs ds : List Clause} (h : List.Forall₂ Matches cs ds)
    (hcs : ∀ c ∈ cs, c.WithinDigits) (hds : ∀ d ∈ ds, d.WithinDigits) :
    (∃ e, conditions strict cs = .error e ∧ conditions strict ds = .error e) ∨
    ∃ as bs, conditions strict cs = .ok as ∧ conditions strict ds = .ok bs ∧
      List.Forall₂ Condition.Matches as bs := by
  induction h with
  | nil => exact Or.inr ⟨[], [], rfl, rfl, .nil⟩
  | @cons c d cs ds hcd _ ih =>
    obtain ⟨hc, hcs⟩ := List.forall_mem_cons.mp hcs
    obtain ⟨hd, hds⟩ := List.forall_mem_cons.mp hds
    unfold conditions
    rcases condition?_of_matches strict hcd hc hd with
      ⟨e, hce, hde⟩ | ⟨hcn, hdn⟩ | ⟨a, b, hca, hdb, hab⟩
    · rw [hce, hde]
      exact Or.inl ⟨e, rfl, rfl⟩
    · rw [hcn, hdn]
      rcases ih hcs hds with ⟨e, hce, hde⟩ | ⟨as, bs, has, hbs, hall⟩
      · rw [hce, hde]
        exact Or.inl ⟨e, rfl, rfl⟩
      · rw [has, hbs]
        exact Or.inr ⟨as, bs, rfl, rfl, hall⟩
    · rw [hca, hdb]
      rcases ih hcs hds with ⟨e, hce, hde⟩ | ⟨as, bs, has, hbs, hall⟩
      · rw [hce, hde]
        exact Or.inl ⟨e, rfl, rfl⟩
      · rw [has, hbs]
        exact Or.inr ⟨a :: as, b :: bs, rfl, rfl, .cons hab hall⟩

end Clause

/-! ## Texts and types -/

namespace Condition

variable {as bs : List Condition}

/-- The text of a condition is made of its head and of the type of what is bound. -/
theorem texts_of_matching (h : List.Forall₂ Matches as bs) (next : Nat) :
    texts next as = texts next bs := by
  induction h generalizing next with
  | nil => rfl
  | @cons a b as bs hab _ ih =>
    have hbound := hab.bound
    unfold texts
    cases ha : a.bound? with
    | none =>
      cases hb : b.bound? with
      | none =>
        dsimp only
        rw [hab.head, ih]
      | some o => simp [ha, hb] at hbound
    | some o =>
      cases hb : b.bound? with
      | none => simp [ha, hb] at hbound
      | some o' =>
        rw [ha, hb] at hbound
        dsimp only
        rw [hab.head, ih, Option.some.inj hbound]

/-- The operands of conditions that match have the same types, in order. -/
theorem storeTypes_of_matching (h : List.Forall₂ Matches as bs) :
    (operands as).map Operand.storeType = (operands bs).map Operand.storeType := by
  have hmap : ∀ cs, (operands cs).map Operand.storeType =
      cs.filterMap fun c => c.bound?.map Operand.storeType := by
    intro cs
    rw [operands, List.map_filterMap]
  rw [hmap, hmap]
  induction h with
  | nil => rfl
  | cons hab _ ih => rw [List.filterMap_cons, List.filterMap_cons, hab.bound, ih]

end Condition

/-- The types of a query are those of its operands, under the names of their places. -/
theorem Plan.types_compile (p : Plan) : p.compile.types =
    ((Condition.operands p.conditions).map Operand.storeType).zipIdx.map
      fun (type, i) => (placeholderName i, type) := by
  simp only [compile, CompiledQuery.types, parameters, List.map_map, List.zipIdx_map]
  rfl

/-- The types of a query are named as its parameters are. -/
theorem CompiledQuery.map_fst_types (q : CompiledQuery) :
    q.types.map Prod.fst = q.parameters.map Prod.fst := by
  rw [types, List.map_map]
  rfl

/-- Plans that differ in what is bound, but not in its types, compile alike. -/
theorem Plan.sameQuery_of_matching {ε : Type} {as bs : List Condition} {table : String}
    {order : RowOrder} {limit : Nat} (h : List.Forall₂ Condition.Matches as bs) :
    SameQuery (ε := ε) (.ok (Plan.mk table as order limit).compile)
      (.ok (Plan.mk table bs order limit).compile) := by
  have hempty : as.isEmpty = bs.isEmpty := by cases h <;> rfl
  have htypes : (Plan.mk table as order limit).compile.types =
      (Plan.mk table bs order limit).compile.types := by
    rw [types_compile, types_compile, Condition.storeTypes_of_matching h]
  refine .compiled ?_ htypes ?_ rfl
  · simp only [compile, lines, whereLine, hempty, Condition.texts_of_matching h]
  · rw [← CompiledQuery.map_fst_types, ← CompiledQuery.map_fst_types, htypes]

/-- Whether conditions have a plan does not depend on them. -/
theorem Plan.ofConditions_cases (as bs : List Condition) (table : String) (orderBy? : Option String)
    (direction? : Option Direction) (limit : Nat) :
    (∃ e, ofConditions table as orderBy? direction? limit = .error e ∧
      ofConditions table bs orderBy? direction? limit = .error e) ∨
    ∃ order, ofConditions table as orderBy? direction? limit = .ok ⟨table, as, order, limit⟩ ∧
      ofConditions table bs orderBy? direction? limit = .ok ⟨table, bs, order, limit⟩ := by
  unfold ofConditions
  split
  · exact Or.inl ⟨_, rfl, rfl⟩
  · cases orderOf orderBy? direction? with
    | error e => exact Or.inl ⟨e, rfl, rfl⟩
    | ok order => exact Or.inr ⟨order, rfl, rfl⟩

/-! ## Whole queries -/

/-- Clauses that match, position by position, compile alike or fail alike, with the same table, order,
number of rows and strictness: as a specification, and as a loose query. -/
theorem compile_of_matching {cs ds : List Clause} (h : List.Forall₂ Clause.Matches cs ds)
    (hcs : ∀ c ∈ cs, c.WithinDigits) (hds : ∀ d ∈ ds, d.WithinDigits) :
    (∀ (table : String) (strict : Bool) (s : Specification),
      SameQuery ({ s with clauses := cs }.compile table strict)
        ({ s with clauses := ds }.compile table strict)) ∧
    ∀ (strict : Bool) (q : LooseQuery),
      SameQuery ({ q with clauses := cs }.compile strict) ({ q with clauses := ds }.compile strict) := by
  constructor
  · intro table strict s
    unfold Specification.compile Plan.ofSpecification
    dsimp only
    rcases Clause.conditions_of_matching strict h hcs hds with
      ⟨e, hce, hde⟩ | ⟨as, bs, has, hbs, hall⟩
    · rw [hce, hde]
      exact .failed e
    · rw [has, hbs]
      dsimp only
      rcases Plan.ofConditions_cases as bs table s.orderBy? s.direction? (Plan.limitOf s.limit?) with
        ⟨e, hae, hbe⟩ | ⟨order, hao, hbo⟩
      · rw [hae, hbe]
        exact .failed e
      · rw [hao, hbo]
        exact Plan.sameQuery_of_matching hall
  · intro strict q
    unfold LooseQuery.compile
    dsimp only [bind, Except.bind]
    rcases Clause.conditions_of_matching strict h hcs hds with
      ⟨e, hce, hde⟩ | ⟨as, bs, has, hbs, hall⟩
    · rw [hce, hde]
      exact .failed e.fault
    · rw [has, hbs]
      dsimp only [Except.mapError]
      cases Plan.limitOfValue q.limit with
      | error f => exact .failed f
      | ok limit =>
        cases Plan.tableOfValue q.table with
        | error f => exact .failed f
        | ok table =>
          dsimp only [LooseQuery.orderName?, LooseQuery.orderFault?]
          rcases Plan.ofConditions_cases as bs table q.orderName? q.direction? limit with
            ⟨e, hae, hbe⟩ | ⟨order, hao, hbo⟩
          · rw [LooseQuery.orderName?] at hae hbe
            rw [hae, hbe]
            exact .failed e.fault
          · rw [LooseQuery.orderName?] at hao hbo
            rw [hao, hbo]
            dsimp only
            split
            · exact .failed _
            · exact Plan.sameQuery_of_matching hall

theorem compile_of_matching_pattern :
    SameQuery
      (Specification.compile "records" true
        { clauses := [⟨"Name", .matchesPattern, some (.text "\x60; --")⟩,
          ⟨"Age", .less, some (.int 1)⟩, ⟨"Place", .isNull, none⟩] })
      (Specification.compile "records" true
        { clauses := [⟨"Name", .matchesPattern, some (.int 7)⟩, ⟨"Age", .less, some (.int 99)⟩,
          ⟨"Place", .isNull, some (.text "1")⟩] }) ∧
    (Specification.compile "records" true
        { clauses := [⟨"Name", .matchesPattern, some (.int 7)⟩, ⟨"Age", .less, some (.int 99)⟩,
          ⟨"Place", .isNull, some (.text "1")⟩] }).isOk = true := by
  have hmatch : List.Forall₂ Clause.Matches
      [⟨"Name", .matchesPattern, some (.text "\x60; --")⟩, ⟨"Age", .less, some (.int 1)⟩,
        ⟨"Place", .isNull, none⟩]
      [⟨"Name", .matchesPattern, some (.int 7)⟩, ⟨"Age", .less, some (.int 99)⟩,
        ⟨"Place", .isNull, some (.text "1")⟩] :=
    .cons ⟨rfl, rfl, .pattern _ _ rfl⟩ (.cons ⟨rfl, rfl, .kind (.int 1 99)⟩
      (.cons ⟨rfl, rfl, .unused _ _ rfl⟩ .nil))
  have hpow : ∀ d, 2 ≤ d → 100 ≤ Nat.pow 10 d := fun d hd =>
    Nat.pow_le_pow_right (show 0 < 10 by decide) hd
  have hwithin : ∀ cs : List Clause,
      (∀ c ∈ cs, ∀ n, c.operand? = some (.int n) → n.natAbs < 100) → ∀ c ∈ cs, c.WithinDigits :=
    fun cs h c hc _ n hn => Nat.lt_of_lt_of_le (h c hc n hn) (hpow Json.maxDigits (by decide))
  refine ⟨(compile_of_matching hmatch (hwithin _ ?_) (hwithin _ ?_)).1 "records" true {},
    by decide +kernel⟩
  · simp
  · simp

end MeetDesk
