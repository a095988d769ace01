import MeetDesk.Proofs.Query.Kinds

/-!
# Strict and lenient compilation

Unknown columns are either an error or dropped. Dropping them is what a strict compilation of the
other clauses does, so the two modes differ in one error only, and this error comes before all others
(`compile_accords`). A clause that lacks its value has no effect in either mode.
-/

namespace MeetDesk

/-- The clause is on a column of the table. -/
def Clause.isKnown (c : Clause) : Bool := (Column.named? c.column).isSome

/-- The clause is on a known column and compares with a value, but has none. -/
structure Clause.Valueless (c : Clause) : Prop where
  known : c.isKnown = true
  takes : c.operator.takesValue = true
  absent : c.operand? = none

/-- The modes of a compilation (`true` is the strict one) agree on the clauses `cs`, and its errors are
the unknown column, the rejected table and the unknown order, in this order of precedence. -/
structure Accords {ε : Type} (fail : PlanError → ε) (table : String) (orderBy? : Option String)
    (compile : Bool → List Clause → Except ε CompiledQuery) (cs : List Clause) : Prop where
  lenient : compile false cs = compile true (cs.filter Clause.isKnown)
  valueless : ∀ front c back, cs = front ++ c :: back → c.Valueless →
    ∀ strict, compile strict cs = compile strict (front ++ back)
  /-- The first unknown column is the error of the strict mode, whatever the table and the order. -/
  unknownColumn : ∀ front c back, cs = front ++ c :: back → (∀ d ∈ front, d.isKnown = true) →
    c.isKnown = false → compile true cs = .error (fail (.unknownColumn c.column))
  rejectedTable : ∀ strict, (strict = true → ∀ c ∈ cs, c.isKnown = true) →
    Plan.isTableName table.toList = false → compile strict cs = .error (fail (.invalidTable table))
  unknownOrder : ∀ strict, (strict = true → ∀ c ∈ cs, c.isKnown = true) →
    Plan.isTableName table.toList = true → ∀ name, orderBy? = some name → Column.named? name = none →
      compile strict cs = .error (fail (.unknownColumn name))
  compiled : ∀ strict, (strict = true → ∀ c ∈ cs, c.isKnown = true) →
    Plan.isTableName table.toList = true →
    (∀ name, orderBy? = some name → (Column.named? name).isSome = true) →
      ∃ q, compile strict cs = .ok q

namespace Clause

variable {c : Clause} {cs : List Clause}

/-! ## One clause -/

/-- On a known column it makes no difference whether columns are taken strictly. -/
theorem condition?_of_isKnown (h : c.isKnown = true) (strict strict' : Bool) :
    c.condition? strict = c.condition? strict' := by
  obtain ⟨column, hcolumn⟩ := Option.isSome_iff_exists.mp h
  unfold condition?
  rw [hcolumn]

/-- A clause on an unknown column is an error or dropped. -/
theorem condition?_of_not_isKnown (h : c.isKnown = false) (strict : Bool) :
    c.condition? strict = if strict then .error (.unknownColumn c.column) else .ok none := by
  have hnone : Column.named? c.column = none := by simpa [isKnown] using h
  unfold condition?
  rw [hnone]

/-- A clause that lacks the value it needs is dropped. -/
theorem condition?_of_valueless (h : c.Valueless) (strict : Bool) :
    c.condition? strict = .ok none := by
  obtain ⟨column, hcolumn⟩ := Option.isSome_iff_exists.mp h.known
  unfold condition?
  rw [hcolumn]
  exact conditionOn_of_absent h.takes h.absent

/-- A clause on a known column is no error, unless a pattern would have too many digits. -/
theorem exists_condition?_of_isKnown (h : c.isKnown = true) (hc : c.WithinDigits) (strict : Bool) :
    ∃ effect?, c.condition? strict = .ok effect? := by
  obtain ⟨column, hcolumn⟩ := Option.isSome_iff_exists.mp h
  unfold condition?
  rw [hcolumn]
  dsimp only
  by_cases htakes : c.operator.takesValue = true
  · cases ho : c.operand? with
    | none => exact ⟨none, conditionOn_of_absent htakes ho⟩
    | some o =>
      by_cases hp : c.operator.isPattern = true
      · obtain ⟨s, hs⟩ := conditionOn_of_isPattern column hp ho hc
        exact ⟨_, hs⟩
      · exact ⟨_, conditionOn_of_not_isPattern htakes (by simpa using hp) ho⟩
  · exact ⟨_, conditionOn_of_not_takesValue (by simpa using htakes)⟩

/-! ## Lists of clauses -/

theorem conditions_cons_of_none {strict : Bool} (h : c.condition? strict = .ok none)
    (rest : List Clause) : conditions strict (c :: rest) = conditions strict rest := by
  rw [conditions, h]
  dsimp only
  cases conditions strict rest <;> rfl

theorem conditions_cons_congr {strict strict' : Bool} {rest rest' : List Clause}
    (hc : c.condition? strict = c.condition? strict')
    (hrest : conditions strict rest = conditions strict' rest') :
    conditions strict (c :: rest) = conditions strict' (c :: rest') := by
  rw [conditions, conditions, hc, hrest]

/-- Clauses on unknown columns that are no error might as well not be there. -/
theorem conditions_lenient (cs : List Clause) :
    conditions false cs = conditions true (cs.filter isKnown) := by
  induction cs with
  | nil => rfl
  | cons c rest ih =>
    by_cases hc : c.isKnown = true
    · rw [List.filter_cons_of_pos hc]
      exact conditions_cons_congr (condition?_of_isKnown hc _ _) ih
    · have hc : c.isKnown = false := by simpa using hc
      have hnone : c.condition? false = .ok none := condition?_of_not_isKnown hc false
      rw [List.filter_cons_of_neg (by simp [hc]), conditions_cons_of_none hnone, ih]

/-- A clause that lacks its value might as well not be there. -/
theorem conditions_of_valueless (h : c.Valueless) (strict : Bool) (front back : List Clause) :
    conditions strict (front ++ c :: back) = conditions strict (front ++ back) := by
  induction front with
  | nil => exact conditions_cons_of_none (condition?_of_valueless h strict) back
  | cons d front ih => exact conditions_cons_congr rfl ih

/-- Clauses that are no error pass the error of what follows them. -/
theorem conditions_append_error {strict : Bool} {front rest : List Clause} {e : PlanError}
    (hfront : ∀ d ∈ front, ∃ effect?, d.condition? strict = .ok effect?)
    (hrest : conditions strict rest = .error e) : conditions strict (front ++ rest) = .error e := by
  induction front with
  | nil => exact hrest
  | cons d front ih =>
    obtain ⟨⟨effect?, hd⟩, hfront⟩ := List.forall_mem_cons.mp hfront
    rw [List.cons_append, conditions, hd, ih hfront]

/-- The first clause on an unknown column is the error. -/
theorem conditions_of_unknown {front : List Clause} (hfront : ∀ d ∈ front, d.isKnown = true)
    (hdigits : ∀ d ∈ front, d.WithinDigits) (hc : c.isKnown = false) (back : List Clause) :
    conditions true (front ++ c :: back) = .error (.unknownColumn c.column) := by
  refine conditions_append_error (fun d hd => ?_) ?_
  · exact exists_condition?_of_isKnown (hfront d hd) (hdigits d hd) true
  · have herror : c.condition? true = .error (.unknownColumn c.column) :=
      condition?_of_not_isKnown hc true
    rw [conditions, herror]

/-- Clauses on known columns make conditions, if no pattern has too many digits. -/
theorem exists_conditions {strict : Bool} (hdigits : ∀ c ∈ cs, c.WithinDigits)
    (hknown : strict = true → ∀ c ∈ cs, c.isKnown = true) :
    ∃ conditions, Clause.conditions strict cs = .ok conditions := by
  induction cs with
  | nil => exact ⟨[], rfl⟩
  | cons c rest ih =>
    obtain ⟨hc, hdigits⟩ := List.forall_mem_cons.mp hdigits
    obtain ⟨more, hmore⟩ := ih hdigits fun hs d hd => hknown hs d (List.mem_cons_of_mem _ hd)
    obtain ⟨effect?, heffect⟩ : ∃ effect?, c.condition? strict = .ok effect? := by
      by_cases hk : c.isKnown = true
      · exact exists_condition?_of_isKnown hk hc strict
      · -- Only the lenient mode gets here, and it drops the clause.
        have hstrict : strict = false := by
          by_contra hs
          exact hk (hknown (by simpa using hs) c List.mem_cons_self)
        subst hstrict
        exact ⟨none, condition?_of_not_isKnown (by simpa using hk) false⟩
    exact ⟨effect?.toList ++ more, by rw [conditions, heffect, hmore]⟩

end Clause

/-! ## Whole queries -/

/-- A specification compiles alike with clauses that make the same conditions. -/
theorem Specification.compile_congr {s : Specification} {table : String} {strict strict' : Bool}
    {cs ds : List Clause} (h : Clause.conditions strict cs = Clause.conditions strict' ds) :
    { s with clauses := cs }.compile table strict = { s with clauses := ds }.compile table strict' := by
  unfold compile Plan.ofSpecification
  dsimp only
  rw [h]

theorem Specification.compile_of_conditions {s : Specification} {table : String} {strict : Bool}
    {cs : List Clause} {conditions : List Condition}
    (h : Clause.conditions strict cs = .ok conditions) :
    { s with clauses := cs }.compile table strict =
      (Plan.ofConditions table conditions s.orderBy? s.direction? (Plan.limitOf s.limit?)).map
        Plan.compile := by
  unfold compile Plan.ofSpecification
  dsimp only
  rw [h]
  dsimp only
  cases Plan.ofConditions table conditions s.orderBy? s.direction? (Plan.limitOf s.limit?) <;> rfl

/-- A known column can be ordered by. -/
theorem Plan.orderOf_of_known {orderBy? : Option String} (direction? : Option Direction)
    (h : ∀ name, orderBy? = some name → (Column.named? name).isSome = true) :
    ∃ order, orderOf orderBy? direction? = .ok order := by
  unfold orderOf
  cases orderBy? with
  | none => exact ⟨_, rfl⟩
  | some name =>
    obtain ⟨column, hcolumn⟩ := Option.isSome_iff_exists.mp (h name rfl)
    dsimp only
    rw [hcolumn]
    exact ⟨_, rfl⟩

theorem Specification.accords {cs : List Clause} (hdigits : ∀ c ∈ cs, c.WithinDigits)
    (table : String) (s : Specification) :
    Accords id table s.orderBy? (fun strict cs => { s with clauses := cs }.compile table strict)
      cs where
  lenient := compile_congr (Clause.conditions_lenient cs)
  valueless := by
    rintro front c back rfl hc strict
    exact compile_congr (Clause.conditions_of_valueless hc strict front back)
  unknownColumn := by
    rintro front c back rfl hfront hc
    have herror := Clause.conditions_of_unknown hfront
      (fun d hd => hdigits d (List.mem_append_left _ hd)) hc back
    unfold compile Plan.ofSpecification
    dsimp only
    rw [herror]
    rfl
  rejectedTable := by
    intro strict hknown htable
    obtain ⟨conditions, hconditions⟩ := Clause.exists_conditions hdigits hknown
    rw [compile_of_conditions hconditions, Plan.ofConditions, htable]
    rfl
  unknownOrder := by
    intro strict hknown htable name hname hunknown
    obtain ⟨conditions, hconditions⟩ := Clause.exists_conditions hdigits hknown
    have horder : Plan.orderOf (some name) s.direction? = .error (.unknownColumn name) := by
      unfold Plan.orderOf
      dsimp only
      rw [hunknown]
    rw [compile_of_conditions hconditions, Plan.ofConditions, htable, hname, horder]
    rfl
  compiled := by
    intro strict hknown htable horder
    obtain ⟨conditions, hconditions⟩ := Clause.exists_conditions hdigits hknown
    obtain ⟨order, horder⟩ := Plan.orderOf_of_known s.direction? horder
    rw [compile_of_conditions hconditions, Plan.ofConditions, htable, horder]
    exact ⟨_, rfl⟩

/-- What is made of the errors of a compilation does not matter. -/
theorem Accords.mapError {ε δ : Type} {fail : PlanError → ε} {table : String}
    {orderBy? : Option String} {compile : Bool → List Clause → Except ε CompiledQuery}
    {cs : List Clause} (h : Accords fail table orderBy? compile cs) (f : ε → δ) :
    Accords (fun e => f (fail e)) table orderBy? (fun strict cs => (compile strict cs).mapError f)
      cs where
  lenient := congrArg (Except.mapError f) h.lenient
  valueless front c back hcs hc strict :=
    congrArg (Except.mapError f) (h.valueless front c back hcs hc strict)
  unknownColumn front c back hcs hfront hc :=
    congrArg (Except.mapError f) (h.unknownColumn front c back hcs hfront hc)
  rejectedTable strict hknown htable :=
    congrArg (Except.mapError f) (h.rejectedTable strict hknown htable)
  unknownOrder strict hknown htable name hname hunknown :=
    congrArg (Except.mapError f) (h.unknownOrder strict hknown htable name hname hunknown)
  compiled strict hknown htable horder := by
    obtain ⟨q, hq⟩ := h.compiled strict hknown htable horder
    exact ⟨q, congrArg (Except.mapError f) hq⟩

/-- The modes agree on clauses whose patterns do not have too many digits, for every table and every
order and number of rows: of a specification, and of the loose query that it makes. -/
theorem compile_accords {cs : List Clause} (h : ∀ c ∈ cs, c.WithinDigits) (table : String)
    (s : Specification) :
    Accords id table s.orderBy? (fun strict cs => { s with clauses := cs }.compile table strict) cs ∧
      Accords PlanError.fault table s.orderBy?
        (fun strict cs => ({ s with clauses := cs }.toLoose (.text table)).compile strict) cs := by
  have hspecification := Specification.accords h table s
  refine ⟨hspecification, ?_⟩
  have hloose := hspecification.mapError PlanError.fault
  simp only [compile_toLoose]
  exact hloose

/-- A clause that is both unknown and without a value is an error of the strict mode, even if the table and
the order are wrong as well; the lenient mode drops it. -/
theorem compile_accords_unknownValueless :
    let clauses : List Clause := [⟨"Name", .matchesPattern, some (.int 7)⟩, ⟨"Age", .less, none⟩,
      ⟨"Colour", .equal, none⟩, ⟨"Shade", .isNull, none⟩]
    Specification.compile "no table!" true { clauses, orderBy? := some "" } =
        .error (.unknownColumn "Colour") ∧
      Specification.compile "no table!" false { clauses, orderBy? := some "" } =
        .error (.invalidTable "no table!") ∧
      Specification.compile "meets" false { clauses, orderBy? := some "" } =
        .error (.unknownColumn "") ∧
      ∃ q, Specification.compile "meets" false { clauses } = .ok q := by
  intro clauses
  have hpow : ∀ d, 1 ≤ d → 7 < Nat.pow 10 d := fun d hd =>
    Nat.lt_of_lt_of_le (by decide : 7 < 10 ^ 1) (Nat.pow_le_pow_right (by decide) hd)
  have hdigits : ∀ c ∈ clauses, c.WithinDigits := by
    intro c hc _ n hn
    simp only [clauses, List.mem_cons, List.not_mem_nil, or_false] at hc
    rcases hc with rfl | rfl | rfl | rfl
    · obtain rfl : (7 : Int) = n := by simpa using hn
      exact hpow Json.maxDigits (by decide)
    all_goals cases hn
  have hordered := fun table => (compile_accords hdigits table { orderBy? := some "" }).1
  have hplain := (compile_accords hdigits "meets" {}).1
  refine ⟨?_, ?_, ?_, ?_⟩
  · exact (hordered "no table!").unknownColumn (clauses.take 2) ⟨"Colour", .equal, none⟩
      (clauses.drop 3) rfl (by decide) (by decide)
  · exact (hordered "no table!").rejectedTable false (by simp) (by decide)
  · exact (hordered "meets").unknownOrder false (by simp) (by decide) "" rfl (by decide)
  · exact hplain.compiled false (by simp) (by decide) (by simp)

end MeetDesk
