import Mathlib.Data.List.Nodup
import MeetDesk.Proofs.Query.Decoding

/-!
# The placeholders in a query's text

A query's text is scanned from left to right for placeholders. What is found are the names of the
parameters with their declared types, in order, and no brace stands anywhere else
(`placeholders_of_compile`). So whoever fills in the parameters by name fills in every value that was
asked for, once and in its place, and nothing else.

`Holds` says what a text holds by how it is put together; `scan_of_holds` says that the scanner finds it.
-/

namespace MeetDesk

/-! ## Scanning -/

/-- A piece of a text that was scanned for placeholders. -/
inductive Piece where
  | placeholder (name : String) (type : StoreType)
  | char (c : Char)
  deriving DecidableEq

namespace Piece

/-- The name and the type of a placeholder. -/
def found? : Piece → Option (String × StoreType)
  | placeholder name type => some (name, type)
  | char _ => none

end Piece

/-- The type that a text begins with, if a closing brace follows it, and what stands behind them. -/
def StoreType.front? (s : List Char) : Option (StoreType × List Char) :=
  ([string, int64, float64].find? fun t => (t.label.toList ++ ['\x7d']).isPrefixOf s).map
    fun t => (t, s.drop (t.label.toList.length + 1))

/-- The placeholder that a text begins with, and what stands behind it: a name that ends in digits, and
a type, in braces. -/
def placeholderFront? : List Char → Option ((String × StoreType) × List Char)
  | '\x7b' :: 'p' :: 'a' :: 'r' :: 'a' :: 'm' :: rest =>
    let digits := rest.takeWhile Char.isDigit
    match rest.dropWhile Char.isDigit with
    | ':' :: behind =>
      if digits.isEmpty then none
      else (StoreType.front? behind).map fun (type, behind) =>
        (("param" ++ String.ofList digits, type), behind)
    | _ => none
  | _ => none

theorem length_of_placeholderFront? {s behind : List Char} {found : String × StoreType}
    (h : placeholderFront? s = some (found, behind)) : behind.length < s.length := by
  unfold placeholderFront? at h
  split at h
  · rename_i rest
    have hdrop := (List.dropWhile_sublist (l := rest) Char.isDigit).length_le
    dsimp only at h
    split at h
    · rename_i after heq
      split at h
      · cases h
      · obtain ⟨⟨type, after'⟩, hfront, hpair⟩ := Option.map_eq_some_iff.mp h
        obtain ⟨t, -, ht⟩ := Option.map_eq_some_iff.mp hfront
        obtain rfl : after.drop (t.label.toList.length + 1) = after' := congrArg Prod.snd ht
        obtain rfl : after.drop (t.label.toList.length + 1) = behind := congrArg Prod.snd hpair
        rw [heq, List.length_cons] at hdrop
        simp only [List.length_cons, List.length_drop]
        omega
    · cases h
  · cases h

/-- Cuts a text into placeholders and the characters between them, from left to right. -/
def scan (s : List Char) : List Piece :=
  match s with
  | [] => []
  | c :: rest =>
    match _h : placeholderFront? (c :: rest) with
    | none => .char c :: scan rest
    | some ((name, type), behind) => .placeholder name type :: scan behind
termination_by s.length
decreasing_by
  · simp
  · exact length_of_placeholderFront? _h

/-- The placeholders in a text, in order. -/
def placeholdersIn (text : String) : List (String × StoreType) :=
  (scan text.toList).filterMap Piece.found?

/-! ## What a text holds -/

/-- A character that is no brace. -/
def isBare (c : Char) : Bool := c != '\x7b' && c != '\x7d'

/-- A text is made of placeholders, which are these, and of other characters, which are no braces. -/
inductive Holds : List Char → List (String × StoreType) → Prop
  | nil : Holds [] []
  | char {c : Char} {s : List Char} {found : List (String × StoreType)} (bare : isBare c = true)
      (rest : Holds s found) : Holds (c :: s) found
  | placeholder (i : Nat) (type : StoreType) {s : List Char} {found : List (String × StoreType)}
      (rest : Holds s found) :
      Holds ((placeholder i type).toList ++ s) ((placeholderName i, type) :: found)

namespace Holds

variable {s t : List Char} {found more : List (String × StoreType)}

/-- What two texts hold, the two together hold one after the other. -/
theorem append (h : Holds s found) (h' : Holds t more) : Holds (s ++ t) (found ++ more) := by
  induction h with
  | nil => exact h'
  | char hbare _ ih => exact .char hbare ih
  | placeholder i type _ ih =>
    rw [List.append_assoc]
    exact .placeholder i type ih

/-- A text of bare characters holds no placeholder. -/
theorem of_bare (h : s.all isBare = true) : Holds s [] := by
  induction s with
  | nil => exact .nil
  | cons c s ih =>
    obtain ⟨hc, hs⟩ := (Bool.and_eq_true _ _).mp h
    exact .char hc (ih hs)

/-- A placeholder holds itself. -/
theorem single (i : Nat) (type : StoreType) :
    Holds (MeetDesk.placeholder i type).toList [(placeholderName i, type)] := by
  have h : Holds ((MeetDesk.placeholder i type).toList ++ []) _ := .placeholder i type .nil
  rwa [List.append_nil] at h

/-- Parts with something bare between them hold what the parts hold. -/
theorem intercalate {sep : List Char} {parts : List (List Char)}
    {founds : List (List (String × StoreType))} (hsep : sep.all isBare = true)
    (h : List.Forall₂ Holds parts founds) : Holds (sep.intercalate parts) founds.flatten := by
  induction h with
  | nil => exact .nil
  | @cons part found parts founds hpart hparts ih =>
    cases hparts with
    | nil =>
      rw [List.intercalate_singleton, List.flatten_singleton]
      exact hpart
    | cons =>
      rw [List.intercalate_cons_cons, List.flatten_cons]
      have hfront := hpart.append (of_bare hsep)
      rw [List.append_nil] at hfront
      exact hfront.append ih

end Holds

/-! ## The scanner finds what a text holds -/

theorem StoreType.front?_label (type : StoreType) (s : List Char) :
    front? (type.label.toList ++ '\x7d' :: s) = some (type, s) := by
  cases type <;> rfl

/-- No placeholder starts with a bare character. -/
theorem placeholderFront?_of_bare {c : Char} (h : isBare c = true) (s : List Char) :
    placeholderFront? (c :: s) = none := by
  unfold placeholderFront?
  split
  · rename_i hcons
    obtain ⟨rfl, -⟩ := List.cons.inj hcons
    cases h
  · rfl

/-- A placeholder is found where it stands, whatever is behind it. -/
theorem placeholderFront?_placeholder (i : Nat) (type : StoreType) (s : List Char) :
    placeholderFront? ((placeholder i type).toList ++ s) =
      some ((placeholderName i, type), s) := by
  have hparam : "param".toList = ['p', 'a', 'r', 'a', 'm'] := rfl
  have hdigits : ∀ c ∈ Nat.toDigits 10 i, c.isDigit = true := fun c hc =>
    Nat.isDigit_of_mem_toDigits (by decide) (by decide) hc
  have hne : (Nat.toDigits 10 i).isEmpty = false := by
    rw [List.isEmpty_eq_false_iff]
    exact Nat.toDigits_ne_nil
  have hname : "param" ++ String.ofList (Nat.toDigits 10 i) = placeholderName i := by
    rw [← String.toList_inj, toList_placeholderName, String.toList_append]
    exact congrArg _ String.toList_ofList
  have htext : (placeholder i type).toList ++ s = '\x7b' :: 'p' :: 'a' :: 'r' :: 'a' :: 'm' ::
      (Nat.toDigits 10 i ++ ':' :: (type.label.toList ++ '\x7d' :: s)) := by
    rw [toList_placeholder, toList_placeholderName, hparam]
    simp
  rw [htext]
  unfold placeholderFront?
  simp only [List.takeWhile_append_of_pos hdigits, List.dropWhile_append_of_pos hdigits]
  simp [hne, hname, StoreType.front?_label]

/-- The scan of a text finds what it holds, in order, and nothing else but bare characters. -/
theorem scan_of_holds {s : List Char} {found : List (String × StoreType)} (h : Holds s found) :
    (scan s).filterMap Piece.found? = found ∧ ∀ c, .char c ∈ scan s → isBare c = true := by
  induction h with
  | nil =>
    rw [scan]
    exact ⟨rfl, fun c hc => absurd hc List.not_mem_nil⟩
  | @char c s found hbare _ ih =>
    obtain ⟨hfound, hchars⟩ := ih
    have hscan : scan (c :: s) = .char c :: scan s := by
      rw [scan]
      split
      · rfl
      · rename_i hfront
        cases hfront.symm.trans (placeholderFront?_of_bare hbare s)
    rw [hscan]
    refine ⟨hfound, fun d hd => ?_⟩
    rcases List.mem_cons.mp hd with heq | hd
    · cases heq
      exact hbare
    · exact hchars d hd
  | @placeholder i type s found _ ih =>
    obtain ⟨hfound, hchars⟩ := ih
    have hfront := placeholderFront?_placeholder i type s
    have hscan : scan ((placeholder i type).toList ++ s) =
        .placeholder (placeholderName i) type :: scan s := by
      have hcons := toList_placeholder i type
      generalize (placeholder i type).toList = front at hcons hfront
      subst hcons
      rw [List.cons_append] at hfront ⊢
      rw [scan]
      split
      · rename_i hnone
        cases hnone.symm.trans hfront
      · rename_i hsome
        cases hsome.symm.trans hfront
        rfl
    rw [hscan]
    refine ⟨?_, fun d hd => ?_⟩
    · rw [List.filterMap_cons, hfound]
      rfl
    · rcases List.mem_cons.mp hd with heq | hd
      · cases heq
      · exact hchars d hd

/-! ## The text of a query -/

theorem isBare_of_isAlphanum {c : Char} (h : c.isAlphanum = true) : isBare c = true := by
  have hopen : c ≠ '\x7b' := by
    rintro rfl
    cases h
  have hclose : c ≠ '\x7d' := by
    rintro rfl
    cases h
  simp [isBare, hopen, hclose]

theorem Column.bare_label (c : Column) : c.label.toList.all isBare = true := by
  have hall : ∀ c ∈ all, c.label.toList.all isBare = true := by decide
  exact hall c (mem_all c)

theorem Operator.bare_symbol (o : Operator) : o.symbol.toList.all isBare = true := by
  cases o <;> decide

theorem RowOrder.bare_text (o : RowOrder) : o.text.toList.all isBare = true := by
  cases o with
  | standard => decide
  | along column direction =>
    have hdirection : direction.symbol.toList.all isBare = true := by cases direction <;> decide
    have horder : "ORDER BY ".toList.all isBare = true := by decide
    have hspace : " ".toList.all isBare = true := by decide
    unfold text
    simp only [String.toList_append, List.all_append, horder, hspace, hdirection, column.bare_label,
      Bool.and_self]

namespace Condition

/-- What conditions declare, with placeholders numbered from `next` on. -/
def declared (next : Nat) (cs : List Condition) : List (String × StoreType) :=
  (((operands cs).map Operand.storeType).zipIdx next).map fun (type, i) => (placeholderName i, type)

theorem bare_head (c : Condition) : c.head.toList.all isBare = true := by
  have hspace : " ".toList.all isBare = true := by decide
  unfold head
  simp only [String.toList_append, List.all_append, hspace, c.column.bare_label,
    c.operator.bare_symbol, Bool.and_self]

/-- Each condition holds its own placeholder, or none; all of them together hold what they declare. -/
theorem holds_texts (next : Nat) (cs : List Condition) :
    ∃ founds, List.Forall₂ Holds ((texts next cs).map String.toList) founds ∧
      founds.flatten = declared next cs := by
  induction cs generalizing next with
  | nil => exact ⟨[], .nil, rfl⟩
  | cons c rest ih =>
    unfold texts declared operands
    cases hbound : c.bound? with
    | none =>
      obtain ⟨founds, hrest, hflatten⟩ := ih next
      refine ⟨[] :: founds, .cons (.of_bare c.bare_head) hrest, ?_⟩
      rw [List.flatten_cons, List.nil_append, hflatten, List.filterMap_cons_none hbound]
      rfl
    | some operand =>
      obtain ⟨founds, hrest, hflatten⟩ := ih (next + 1)
      refine ⟨[(placeholderName next, operand.storeType)] :: founds, .cons ?_ hrest, ?_⟩
      · have hspace : " ".toList.all isBare = true := by decide
        have hfront : Holds (c.head ++ " ").toList [] := by
          refine .of_bare ?_
          rw [String.toList_append, List.all_append, c.bare_head, hspace]
          rfl
        rw [String.toList_append]
        exact hfront.append (.single next operand.storeType)
      · rw [List.flatten_cons, hflatten, List.filterMap_cons_some hbound]
        rfl

end Condition

namespace Plan

theorem bare_limit (n : Nat) : ("LIMIT " ++ toString n).toList.all isBare = true := by
  have hlimit : "LIMIT ".toList.all isBare = true := by decide
  have hdigits : (toString n).toList = Nat.toDigits 10 n := Nat.toList_repr
  have hbare : (Nat.toDigits 10 n).all isBare = true := by
    refine List.all_eq_true.mpr fun c hc => isBare_of_isAlphanum ?_
    have hdigit := Nat.isDigit_of_mem_toDigits (b := 10) (by decide) (by decide) hc
    simp [Char.isAlphanum, hdigit]
  rw [String.toList_append, List.all_append, hlimit, hdigits, hbare]
  rfl

theorem bare_front : front.toList.all isBare = true := by
  refine List.all_eq_true.mpr fun c hc => ?_
  rcases mem_front hc with halnum | rfl | rfl | rfl
  · exact isBare_of_isAlphanum halnum
  · rfl
  · rfl
  · rfl

theorem bare_of_isTableName {s : List Char} (h : isTableName s = true) : s.all isBare = true := by
  refine List.all_eq_true.mpr fun c hc => ?_
  rcases mem_of_isTableName h hc with hchar | rfl
  · unfold isTableChar isTableHead at hchar
    simp only [Bool.or_eq_true, beq_iff_eq] at hchar
    rcases hchar with ((halnum | rfl) | rfl) | rfl
    · exact isBare_of_isAlphanum halnum
    · rfl
    · rfl
    · rfl
  · rfl

/-- The lines behind the table hold the placeholders of the query, in order. -/
theorem holds_linesBehind (p : Plan) :
    ∃ founds, List.Forall₂ Holds (p.linesBehind.map String.toList) founds ∧
      founds.flatten = p.compile.types := by
  have hlast : List.Forall₂ Holds [p.order.text.toList, ("LIMIT " ++ toString p.limit).toList]
      [[], []] :=
    .cons (.of_bare p.order.bare_text) (.cons (.of_bare (bare_limit p.limit)) .nil)
  have htypes : p.compile.types = Condition.declared 0 p.conditions := types_compile p
  unfold linesBehind whereLine
  by_cases hne : p.conditions = []
  · rw [htypes, hne]
    exact ⟨[[], []], hlast, rfl⟩
  · obtain ⟨founds, htexts, hflatten⟩ := Condition.holds_texts 0 p.conditions
    have hand : " AND ".toList.all isBare = true := by decide
    have hwhere : "WHERE ".toList.all isBare = true := by decide
    have hline : Holds
        ("WHERE " ++ String.intercalate " AND " (Condition.texts 0 p.conditions)).toList
        (Condition.declared 0 p.conditions) := by
      rw [String.toList_append, String.toList_intercalate, ← hflatten]
      exact (Holds.of_bare hwhere).append (.intercalate hand htexts)
    have hsome : p.conditions.isEmpty = false := by simpa using hne
    rw [hsome, htypes]
    exact ⟨_, .cons hline hlast, by simp⟩

/-- The text of a query holds its parameters. -/
theorem holds_compile (p : Plan) (h : isTableName p.table.toList = true) :
    Holds p.compile.text.toList p.compile.types := by
  obtain ⟨founds, hlines, hflatten⟩ := holds_linesBehind p
  have hbehind : Holds (['\n'].intercalate (p.linesBehind.map String.toList)) p.compile.types := by
    rw [← hflatten]
    exact .intercalate rfl hlines
  have htable : Holds p.table.toList [] := .of_bare (bare_of_isTableName h)
  rw [toList_compile]
  exact (Holds.of_bare bare_front).append
    (.char rfl (htable.append (.char rfl (.char rfl hbehind))))

end Plan

/-! ## Clauses and parameters -/

/-- Whether a clause binds a value: its column is known, its operator takes a value, and it has one. -/
def Clause.isBinding (c : Clause) : Bool :=
  (Column.named? c.column).isSome && c.operator.takesValue && c.operand?.isSome

/-- The operand is what the clause binds: its value, or the pattern that finds it. -/
def Clause.Binds (c : Clause) (o : Operand) : Prop :=
  ∃ value, c.operand? = some value ∧ o = c.operator.bind value

/-- The placeholders in the text of a query are its parameters, and its parameters are what the clauses
bind. -/
structure CompiledQuery.Matched (clauses : List Clause) (q : CompiledQuery) : Prop where
  written : placeholdersIn q.text = q.types
  bare : ∀ c, .char c ∈ scan q.text.toList → c ≠ '\x7b' ∧ c ≠ '\x7d'
  /-- The names are numbered from zero, one for each clause that binds a value. -/
  names : q.types.map Prod.fst =
    (List.range (clauses.filter Clause.isBinding).length).map placeholderName
  distinct : (q.types.map Prod.fst).Nodup
  keys : q.parameters.map Prod.fst = q.types.map Prod.fst
  values : List.Forall₂ Clause.Binds (clauses.filter Clause.isBinding) (q.parameters.map Prod.snd)
  typed : ∀ name o, (name, o) ∈ q.parameters → ∃ type, q.types.lookup name = some type ∧
    (type = .string ↔ ∃ s, o = .text s) ∧ (type = .int64 ↔ ∃ n, o = .int n) ∧
    (type = .float64 ↔ ∃ x, o = .float x)
  kind : ∀ name, (q.kind? name = some .string ↔ ∃ s, (name, .text s) ∈ q.parameters) ∧
    (q.kind? name = none ↔ name ∉ q.parameters.map Prod.fst)

namespace Clause

/-- The operand of a clause's effect. -/
def bound? (c : Clause) : Option Operand := c.effective?.bind fun e => e.bound?.map Prod.snd

/-- A clause that binds has its operand in the query, and one that does not has none there. -/
theorem bound?_cases (c : Clause) :
    (c.isBinding = true ∧ ∃ o, c.bound? = some o ∧ c.Binds o) ∨
    (c.isBinding = false ∧ c.bound? = none) := by
  unfold isBinding bound? effective? Binds
  cases Column.named? c.column with
  | none => exact Or.inr ⟨rfl, rfl⟩
  | some column =>
    by_cases htakes : c.operator.takesValue = true
    · cases c.operand? with
      | none => simp [htakes]
      | some value => simp [htakes]
    · simp [htakes]

/-- The operands in a query are those of the clauses that bind, one by one. -/
theorem bindings_of_clauses (clauses : List Clause) :
    List.Forall₂ Binds (clauses.filter isBinding) (clauses.filterMap bound?) := by
  induction clauses with
  | nil => exact .nil
  | cons c rest ih =>
    rcases c.bound?_cases with ⟨hbinding, o, ho, hc⟩ | ⟨hbinding, ho⟩
    · rw [List.filter_cons_of_pos hbinding, List.filterMap_cons_some ho]
      exact .cons hc ih
    · rw [List.filter_cons_of_neg (by simp [hbinding]), List.filterMap_cons_none ho]
      exact ih

/-- The operands of conditions are what the clauses bind, in order. -/
theorem operands_of_conditions {strict : Bool} {clauses : List Clause} {cs : List Condition}
    (h : conditions strict clauses = .ok cs) :
    Condition.operands cs = clauses.filterMap bound? := by
  have heffective : (cs.map Condition.effective).filterMap (fun e => e.bound?.map Prod.snd) =
      clauses.filterMap bound? := by
    rw [effective_of_conditions h, List.filterMap_filterMap]
    rfl
  rw [← heffective, List.filterMap_map, Condition.operands]
  refine List.filterMap_congr fun condition _ => ?_
  show condition.bound? = (condition.bound?.map fun o => (o.storeType, o)).map Prod.snd
  cases condition.bound? <;> rfl

end Clause

namespace Plan

/-- The parameters of a query are named in order. -/
theorem names_compile (p : Plan) : p.compile.parameters.map Prod.fst =
    (List.range (Condition.operands p.conditions).length).map placeholderName := by
  have hrange := List.zipIdx_map_snd 0 (Condition.operands p.conditions)
  rw [List.range_eq_range', ← hrange, List.map_map, compile, parameters, List.map_map]
  rfl

/-- The parameters of a query are the operands of its conditions, in order. -/
theorem operands_compile (p : Plan) :
    p.compile.parameters.map Prod.snd = Condition.operands p.conditions := by
  have hvalues := List.zipIdx_map_fst 0 (Condition.operands p.conditions)
  rw [compile, parameters, List.map_map]
  exact hvalues

/-- A parameter is found under its own name, with its type. -/
theorem lookup_compile {p : Plan} {name : String} {o : Operand}
    (h : (name, o) ∈ p.compile.parameters) : p.compile.types.lookup name = some o.storeType := by
  obtain ⟨⟨o', i⟩, hmem, heq⟩ := List.mem_map.mp h
  obtain ⟨rfl, rfl⟩ := Prod.mk.inj heq
  have hget : (Condition.operands p.conditions)[i]? = some o' := List.mem_zipIdx_iff_getElem?.mp hmem
  exact (binds_compile hget).type

/-- The kind of a parameter is that of its operand. -/
theorem kind?_compile (p : Plan) (name : String) :
    (p.compile.kind? name = some .string ↔ ∃ s, (name, .text s) ∈ p.compile.parameters) ∧
    (p.compile.kind? name = none ↔ name ∉ p.compile.parameters.map Prod.fst) := by
  by_cases hname : name ∈ p.compile.parameters.map Prod.fst
  · obtain ⟨⟨name', o⟩, hmem, rfl⟩ := List.mem_map.mp hname
    have hlookup := lookup_compile hmem
    have hkind : p.compile.kind? name' = some o.storeType.kind := by
      rw [CompiledQuery.kind?, hlookup]
      rfl
    refine ⟨⟨fun hstring => ?_, ?_⟩, fun hnone => ?_, fun hnot => absurd hname hnot⟩
    · cases o with
      | text s => exact ⟨s, hmem⟩
      | int n => cases hstring.symm.trans hkind
      | float x => cases hstring.symm.trans hkind
    · rintro ⟨s, hs⟩
      rw [CompiledQuery.kind?, lookup_compile hs]
      rfl
    · cases hnone.symm.trans hkind
  · have hlookup : p.compile.types.lookup name = none := by
      rw [List.lookup_eq_none_iff]
      intro entry hentry
      have hne : name ≠ entry.1 := by
        rintro rfl
        refine hname ?_
        rw [← CompiledQuery.map_fst_types]
        exact List.mem_map_of_mem hentry
      simpa using hne
    have hkind : p.compile.kind? name = none := by
      rw [CompiledQuery.kind?, hlookup]
      rfl
    refine ⟨⟨fun hstring => ?_, ?_⟩, fun _ => hname, fun _ => hkind⟩
    · cases hstring.symm.trans hkind
    · rintro ⟨s, hs⟩
      exact absurd (List.mem_map_of_mem hs) hname

/-- A plan that is made of the conditions of clauses compiles to a query that matches them. -/
theorem matched_of_ofConditions {strict : Bool} {clauses : List Clause} {table : String}
    {conditions : List Condition} {orderBy? : Option String} {direction? : Option Direction}
    {limit : Nat} {p : Plan} (hclauses : Clause.conditions strict clauses = .ok conditions)
    (h : ofConditions table conditions orderBy? direction? limit = .ok p) :
    p.compile.Matched clauses := by
  obtain ⟨htable, rfl⟩ := eq_of_ofConditions h
  have hvalues := Clause.bindings_of_clauses clauses
  rw [← Clause.operands_of_conditions hclauses] at hvalues
  generalize hp : (⟨table, conditions, .effective orderBy? direction?, limit⟩ : Plan) = p
  have hconditions : conditions = p.conditions := by rw [← hp]
  have htable : isTableName p.table.toList = true := by
    rw [← hp]
    exact htable
  rw [hconditions] at hvalues
  obtain ⟨hwritten, hbare⟩ := scan_of_holds (holds_compile p htable)
  have hkeys := CompiledQuery.map_fst_types p.compile
  have hnames := names_compile p
  refine ⟨hwritten, fun c hc => ?_, ?_, ?_, hkeys.symm, ?_, fun name o hmem => ?_, kind?_compile p⟩
  · have hchar := hbare c hc
    simpa [isBare] using hchar
  · rw [hkeys, hnames, hvalues.length_eq]
  · rw [hkeys, hnames]
    exact List.Nodup.map (fun _ _ => placeholderName_injective) List.nodup_range
  · rw [operands_compile]
    exact hvalues
  · refine ⟨o.storeType, lookup_compile hmem, ?_⟩
    cases o <;> simp [Operand.storeType]

end Plan

/-- The text of a query holds its parameters as placeholders, in order and with their types, and no
other brace; and its parameters are what the clauses bind. -/
theorem placeholders_of_compile :
    (∀ (s : Specification) (table : String) (strict : Bool) (q : CompiledQuery),
      s.compile table strict = .ok q → q.Matched s.clauses) ∧
    ∀ (l : LooseQuery) (strict : Bool) (q : CompiledQuery),
      l.compile strict = .ok q → q.Matched l.clauses := by
  constructor
  · intro s table strict q h
    obtain ⟨conditions, p, hconditions, hp, rfl⟩ := s.exists_plan_of_compile h
    exact Plan.matched_of_ofConditions hconditions hp
  · intro l strict q h
    obtain ⟨conditions, limit, table, p, hconditions, -, -, hp, rfl⟩ := l.exists_plan_of_compile h
    exact Plan.matched_of_ofConditions hconditions hp

theorem placeholders_of_compile_lookAlike :
    ∃ q, Specification.compile "meets" false
        { clauses := [⟨"Name", .matchesPattern, some (.text "\x7bparam9:String\x7d")⟩,
            ⟨"Colour", .equal, some (.int 1)⟩, ⟨"Place", .isNull, some (.text "1")⟩,
            ⟨"Age", .less, none⟩, ⟨"Age", .less, some (.int 30)⟩] } = .ok q ∧
      placeholdersIn q.text = [("param0", .string), ("param1", .int64)] ∧
      q.parameters.map Prod.fst = ["param0", "param1"] ∧ q.kind? "param9" = none := by
  obtain ⟨q, hq, htypes⟩ : ∃ q, Specification.compile "meets" false
      { clauses := [⟨"Name", .matchesPattern, some (.text "\x7bparam9:String\x7d")⟩,
          ⟨"Colour", .equal, some (.int 1)⟩, ⟨"Place", .isNull, some (.text "1")⟩,
          ⟨"Age", .less, none⟩, ⟨"Age", .less, some (.int 30)⟩] } = .ok q ∧
      q.types = [("param0", .string), ("param1", .int64)] :=
    ⟨_, rfl, by decide⟩
  have hmatched := placeholders_of_compile.1 _ _ _ _ hq
  have hkeys : q.parameters.map Prod.fst = ["param0", "param1"] := by
    rw [hmatched.keys, htypes]
    rfl
  refine ⟨q, hq, hmatched.written.trans htypes, hkeys, (hmatched.kind "param9").2.mpr ?_⟩
  rw [hkeys]
  decide

end MeetDesk
