import MeetDesk.Proofs.Query.Placeholders

/-!
# The range of bound values

A placeholder declares a type of the store, and the store's integers have sixty-four bits. A text is
declared as a text and a float as a float, but an integer is declared as an integer whatever its size. So
the values fit the declared types exactly if the integers that the clauses bind do
(`parameters_fit_iff`).
-/

namespace MeetDesk

/-- The integers of sixty-four bits. -/
def IsInt64 (n : Int) : Prop := -Int.pow 2 63 ≤ n ∧ n ≤ Int.pow 2 63 - 1

instance (n : Int) : Decidable (IsInt64 n) := inferInstanceAs (Decidable (_ ∧ _))

/-- A value is of the declared type, where only some integers count. -/
inductive StoreType.Admits (integers : Int → Prop) : StoreType → Operand → Prop
  | string (s : String) : Admits integers .string (.text s)
  | int64 {n : Int} (h : integers n) : Admits integers .int64 (.int n)
  | float64 (x : Float) : Admits integers .float64 (.float x)

/-- Every declared parameter has a value, which is of the declared type. -/
def CompiledQuery.Admitted (integers : Int → Prop) (q : CompiledQuery) : Prop :=
  ∀ name type, q.types.lookup name = some type →
    ∃ o, q.parameters.lookup name = some o ∧ type.Admits integers o

/-- The clause binds the integer as it is, not as a part of a pattern. -/
def Clause.BindsInt (c : Clause) (n : Int) : Prop :=
  c.isBinding = true ∧ c.operator.isPattern = false ∧ c.operand? = some (.int n)

/-! ## Types and values -/

theorem StoreType.admits_storeType {integers : Int → Prop} {o : Operand}
    (h : ∀ n, o = .int n → integers n) : o.storeType.Admits integers o := by
  cases o with
  | text s => exact .string s
  | int n => exact .int64 (h n rfl)
  | float x => exact .float64 x

/-- The type that is declared under a name is the type of the value under this name. -/
theorem CompiledQuery.lookup_types (q : CompiledQuery) (name : String) :
    q.types.lookup name = (q.parameters.lookup name).map Operand.storeType := by
  unfold types
  induction q.parameters with
  | nil => rfl
  | cons parameter rest ih =>
    obtain ⟨other, o⟩ := parameter
    rw [List.map_cons, List.lookup_cons, List.lookup_cons, ih]
    cases name == other <;> rfl

/-- What a clause binds is an integer only if it is the integer of the clause. -/
theorem Clause.bound?_int_iff {c : Clause} {n : Int} : c.bound? = some (.int n) ↔ c.BindsInt n := by
  rcases c.bound?_cases with ⟨hbinding, o, ho, value, hvalue, hbind⟩ | ⟨hbinding, ho⟩
  · rw [ho, hbind, BindsInt, hvalue]
    by_cases hp : c.operator.isPattern = true
    · simp [Operator.bind, hp]
    · have hp : c.operator.isPattern = false := by simpa using hp
      simp [Operator.bind, hp, hbinding]
  · simp [ho, BindsInt, hbinding]

/-! ## Whole queries -/

/-- The values of a plan's query are of the declared types exactly if its integers count. -/
theorem Plan.admitted_compile_iff {integers : Int → Prop} (p : Plan) :
    p.compile.Admitted integers ↔ ∀ n, .int n ∈ Condition.operands p.conditions → integers n := by
  constructor
  · intro h n hn
    obtain ⟨i, hi⟩ := List.mem_iff_getElem?.mp hn
    obtain ⟨hvalue, htype⟩ := binds_compile hi
    obtain ⟨o, ho, hadmits⟩ := h _ _ htype
    rw [hvalue] at ho
    obtain rfl := Option.some.inj ho
    cases hadmits with
    | int64 hcounts => exact hcounts
  · intro h name type htype
    rw [CompiledQuery.lookup_types] at htype
    obtain ⟨o, ho, rfl⟩ := Option.map_eq_some_iff.mp htype
    refine ⟨o, ho, StoreType.admits_storeType ?_⟩
    rintro n rfl
    refine h n ?_
    rw [← operands_compile]
    obtain ⟨front, back, hsplit, -⟩ := List.lookup_eq_some_iff.mp ho
    rw [hsplit]
    simp

/-- The values of a compiled specification are of the declared types exactly if the integers count that its
clauses bind. -/
theorem Specification.admitted_compile_iff {integers : Int → Prop} {s : Specification} {table : String}
    {strict : Bool} {q : CompiledQuery} (h : s.compile table strict = .ok q) :
    q.Admitted integers ↔ ∀ c ∈ s.clauses, ∀ n, c.BindsInt n → integers n := by
  obtain ⟨conditions, p, hconditions, hp, rfl⟩ := s.exists_plan_of_compile h
  obtain ⟨-, rfl⟩ := Plan.eq_of_ofConditions hp
  rw [Plan.admitted_compile_iff, Clause.operands_of_conditions hconditions]
  simp only [List.mem_filterMap, Clause.bound?_int_iff]
  constructor
  · intro hall c hc n hn
    exact hall n ⟨c, hc, hn⟩
  · rintro hall n ⟨c, hc, hn⟩
    exact hall c hc n hn

/-- In a compiled specification every parameter that is declared as a text is a text, every one that is
declared as a float is a float, and every one that is declared as an integer is an integer that a clause
binds. The integers are in the range of their type exactly if those that the clauses bind are. -/
theorem parameters_fit_iff {s : Specification} {table : String} {strict : Bool} {q : CompiledQuery}
    (h : s.compile table strict = .ok q) :
    q.Admitted (fun n => ∃ c ∈ s.clauses, c.BindsInt n) ∧
      (q.Admitted IsInt64 ↔ ∀ c ∈ s.clauses, ∀ n, c.BindsInt n → IsInt64 n) := by
  refine ⟨(Specification.admitted_compile_iff h).mpr ?_, Specification.admitted_compile_iff h⟩
  intro c hc n hn
  exact ⟨c, hc, hn⟩

/-- Clauses at both ends of the range, and beyond it where no integer is bound. -/
def edgeClauses : List Clause :=
  [⟨"Age", .less, some (.int 9223372036854775807)⟩, ⟨"Dots", .isNull, some (.int 9223372036854775808)⟩,
    ⟨"Dots", .greater, some (.int (-9223372036854775808))⟩, ⟨"Name", .equal, some (.text "A")⟩,
    ⟨"Name", .matchesPattern, some (.int 9223372036854775808)⟩]

theorem parameters_fit_iff_edge : ∃ q,
    Specification.compile "meets" true { clauses := edgeClauses } = .ok q ∧ q.Admitted IsInt64 := by
  have hok : (Specification.compile "meets" true { clauses := edgeClauses }).isOk = true := by
    decide +kernel
  rcases hq : Specification.compile "meets" true { clauses := edgeClauses } with e | q
  · rw [hq] at hok
    cases hok
  · refine ⟨q, rfl, (parameters_fit_iff hq).2.mpr ?_⟩
    rintro c hc n ⟨hbinding, hp, hn⟩
    simp only [edgeClauses, List.mem_cons, List.not_mem_nil, or_false] at hc
    rcases hc with rfl | rfl | rfl | rfl | rfl
    · obtain rfl : 9223372036854775807 = n := by simpa using hn
      decide
    · cases hbinding
    · obtain rfl : -9223372036854775808 = n := by simpa using hn
      decide
    · cases hn
    · cases hp

/-- An integer just beyond the range is read, and declared as an integer of sixty-four bits. -/
theorem parameter_beyond : ∃ s q,
    Specification.read (.object [("filters", .list [.object [("column", .text "Age"),
      ("operator", .text "="), ("value", .int 9223372036854775808)]])]) = .valid s ∧
    s.compile Plan.defaultTable true = .ok q ∧ q.types.lookup "param0" = some .int64 ∧
    q.parameters.lookup "param0" = some (.int 9223372036854775808) ∧ ¬ IsInt64 9223372036854775808 ∧
    ¬ q.Admitted IsInt64 := by
  refine ⟨_, _, rfl, rfl, rfl, rfl, by decide, fun h => ?_⟩
  obtain ⟨o, ho, hadmits⟩ := h "param0" .int64 rfl
  obtain rfl := Option.some.inj ho
  cases hadmits with
  | int64 hrange =>
    revert hrange
    decide

end MeetDesk
