import MeetDesk.Proofs.Form.Dumps
import MeetDesk.Proofs.Text.Spelling

/-!
# Spellings of operators and directions

An operator is read from every spelling of its symbol, and a direction too. In ASCII there are no other
texts that they are read from. A query whose operators and directions are spelled in another way is read
as the same specification, or complains of the same problems at the same places, so that it compiles to
the same text with the same parameters.
-/

namespace MeetDesk

/-! ## Symbols -/

theorem Operator.isAscii_symbol (o : Operator) : Text.isAscii o.symbol.toList = true := by
  cases o <;> decide

/-- An operator is read from every spelling of its symbol. -/
theorem Operator.read?_of_spelling {o : Operator} {s : String}
    (h : Text.Spelling o.symbol.toList s.toList) : read? s = some o := by
  have hnormal : normalize s = normalize o.symbol := by
    rw [normalize, normalize, h.words_upper o.isAscii_symbol]
  rw [read?, hnormal]
  exact o.read?_symbol

/-- A text in ASCII is a spelling of the operator that is read from it. -/
theorem Operator.spelling_of_read? {o : Operator} {s : String} (hs : Text.isAscii s.toList = true)
    (h : read? s = some o) : Text.Spelling o.symbol.toList s.toList := by
  have hsymbol : o.symbol = normalize s := by simpa using List.find?_some h
  have hwords : (normalize s).toList = Text.joined s.toList := by
    have hself : ∀ ws : List (List Char), (ws.map String.ofList).map String.toList = ws := by
      intro ws
      rw [List.map_map]
      exact (List.map_congr_left fun w _ => String.toList_ofList).trans (List.map_id ws)
    rw [normalize, String.toList_intercalate, hself]
    rfl
  rw [hsymbol, hwords]
  exact Text.spelling_joined hs

theorem Direction.isAscii_symbol (d : Direction) : Text.isAscii d.symbol.toList = true := by
  cases d <;> decide

theorem Direction.not_isBlank_symbol (d : Direction) : ∀ c ∈ d.symbol.toList, Text.isBlank c = false := by
  have hall : d.symbol.toList.all (fun c => !Text.isBlank c) = true := by cases d <;> decide
  simpa using hall

theorem Direction.symbol_ne_nil (d : Direction) : d.symbol.toList ≠ [] := by
  cases d <;> decide

/-- A direction is read from every spelling of its symbol. -/
theorem Direction.read?_of_spelling {d : Direction} {s : String}
    (h : Text.Spelling d.symbol.toList s.toList) : read? s = some d := by
  have htrim : ∀ {t : String}, Text.Spelling d.symbol.toList t.toList →
      Text.upper (Text.trim t.toList) = Text.upper d.symbol.toList := fun h =>
    h.upper_trim d.isAscii_symbol d.symbol_ne_nil d.not_isBlank_symbol
  have hnormal : normalize s = normalize d.symbol := by
    rw [normalize, normalize, htrim h, htrim (.refl _)]
  rw [read?, hnormal]
  exact d.read?_symbol

/-- A text in ASCII is a spelling of the direction that is read from it. -/
theorem Direction.spelling_of_read? {d : Direction} {s : String} (hs : Text.isAscii s.toList = true)
    (h : read? s = some d) : Text.Spelling d.symbol.toList s.toList := by
  have hsymbol : d.symbol = normalize s := by simpa using List.find?_some h
  have htrimmed : d.symbol.toList = Text.upper (Text.trim s.toList) := by
    rw [hsymbol, normalize, String.toList_ofList]
  have hspace : ' ' ∉ Text.upper (Text.trim s.toList) := by
    rw [← htrimmed]
    intro hmem
    have hblank := d.not_isBlank_symbol ' ' hmem
    cases hblank
  rw [htrimmed]
  exact Text.spelling_upper_trim hs hspace

/-! ## Slots -/

/-- What is read as a choice from a text is read by its interpretation. -/
theorem Coercion.read?_of_choice {α : Type} {choices : List String} {read? : String → Option α}
    {s : String} {a : α} (h : choice choices read? (.text s) = .valid a) : read? s = some a := by
  have htext : (Value.text s).text? = some s := rfl
  unfold choice written at h
  rw [htext] at h
  dsimp only at h
  split at h
  · cases h
  · cases hread : read? s with
    | none =>
      rw [hread] at h
      cases h
    | some b =>
      rw [hread] at h
      cases h
      rfl

/-- The slot of the operator takes every spelling of a symbol. -/
theorem Clause.readOperator_of_spelling {o : Operator} {s : String}
    (h : Text.Spelling o.symbol.toList s.toList) : operatorSlot.read (.text s) = .valid o :=
  Coercion.choice_text (h.isWhole o.isAscii_symbol) (Operator.read?_of_spelling h)

/-- The slot of the direction takes every spelling of a symbol. -/
theorem Specification.readDirection_of_spelling {d : Direction} {s : String}
    (h : Text.Spelling d.symbol.toList s.toList) : directionSlot.read (.text s) = .valid (some d) := by
  have hread : Coercion.choice (Direction.all.map Direction.symbol) Direction.read? (.text s) =
      .valid d :=
    Coercion.choice_text (h.isWhole d.isAscii_symbol) (Direction.read?_of_spelling h)
  show some <$> Coercion.choice (Direction.all.map Direction.symbol) Direction.read? (.text s) = _
  rw [hread]
  rfl

/-- A text that is read as a direction, or as none, is read as a direction. -/
theorem Specification.read?_of_readDirection {s : String} {direction? : Option Direction}
    (h : directionSlot.read (.text s) = .valid direction?) :
    ∃ d, direction? = some d ∧ Direction.read? s = some d := by
  obtain ⟨d, hd, rfl⟩ := Checked.map_eq_valid
    (a := Coercion.choice (Direction.all.map Direction.symbol) Direction.read? (.text s)) h
  exact ⟨d, rfl, Coercion.read?_of_choice hd⟩

/-! ## Forms with another spelling -/

/-- What is filled in is what was read. -/
theorem Slot.read_of_fill {α : Type} {slot : Slot α} {fields : Fields} {name : String} {v : Value} {a : α}
    (hfill : slot.fill fields = .valid a) (hfind : slot.label.find? fields = some (name, v)) :
    slot.read v = .valid a := by
  unfold Slot.fill at hfill
  rw [hfind] at hfill
  exact Checked.under_eq_valid hfill

/-- A clause that is read has what its slots were filled with. -/
theorem Clause.slots_of_read {fields : Fields} {c : Clause} (h : read (.object fields) = .valid c) :
    columnSlot.fill fields = .valid c.column ∧ operatorSlot.fill fields = .valid c.operator ∧
      operandSlot.fill fields = .valid c.operand? := by
  unfold read Coercion.form at h
  dsimp only at h
  obtain ⟨_, operand?, htwo, hoperand, rfl⟩ := Checked.seq_eq_valid h
  obtain ⟨_, operator, hone, hoperator, rfl⟩ := Checked.seq_eq_valid htwo
  obtain ⟨column, hcolumn, rfl⟩ := Checked.map_eq_valid hone
  exact ⟨hcolumn, hoperator, hoperand⟩

/-- A specification that is read has what its slots were filled with. -/
theorem Specification.slots_of_read {fields : Fields} {s : Specification}
    (h : read (.object fields) = .valid s) :
    clausesSlot.fill fields = .valid s.clauses ∧ orderSlot.fill fields = .valid s.orderBy? ∧
      directionSlot.fill fields = .valid s.direction? ∧ limitSlot.fill fields = .valid s.limit? := by
  unfold read Coercion.form at h
  dsimp only at h
  obtain ⟨_, limit?, hthree, hlimit, rfl⟩ := Checked.seq_eq_valid h
  obtain ⟨_, direction?, htwo, hdirection, rfl⟩ := Checked.seq_eq_valid hthree
  obtain ⟨_, orderBy?, hone, horder, rfl⟩ := Checked.seq_eq_valid htwo
  obtain ⟨clauses, hclauses, rfl⟩ := Checked.map_eq_valid hone
  exact ⟨hclauses, horder, hdirection, hlimit⟩

/-- A value, or another spelling of the choice that is read from it. -/
inductive Respelled {α : Type} (reads : Value → α → Prop) (symbol : α → String) : Value → Value → Prop
  | same (v : Value) : Respelled reads symbol v v
  | spelled {v : Value} {a : α} {s : String} (h : reads v a)
      (hs : Text.Spelling (symbol a).toList s.toList) : Respelled reads symbol v (.text s)

/-- The same names in the same order, with related values. -/
def Fields.Related (R : String → Value → Value → Prop) : Fields → Fields → Prop :=
  List.Forall₂ fun f f' => f'.1 = f.1 ∧ R f.1 f.2 f'.2

/-- The same value, or an object with related fields. -/
inductive Refilled (R : String → Value → Value → Prop) : Value → Value → Prop
  | same (v : Value) : Refilled R v v
  | object {fields fields' : Fields} (h : Fields.Related R fields fields') :
      Refilled R (.object fields) (.object fields')

/-- A field of a clause, with its operator spelled in any way. -/
inductive ClauseField : String → Value → Value → Prop
  | operator {v v' : Value} (h : Respelled (fun v o => Clause.operatorSlot.read v = .valid o)
      Operator.symbol v v') : ClauseField "operator" v v'
  | other (name : String) (v : Value) : ClauseField name v v

/-- The clauses of a query, with their operators spelled in any way. -/
inductive ClausesRespelled : Value → Value → Prop
  | same (v : Value) : ClausesRespelled v v
  | list {vs vs' : List Value} (h : List.Forall₂ (Refilled ClauseField) vs vs') :
      ClausesRespelled (.list vs) (.list vs')
  | tuple {vs vs' : List Value} (h : List.Forall₂ (Refilled ClauseField) vs vs') :
      ClausesRespelled (.tuple vs) (.tuple vs')

/-- A field of a query, with its operators and directions spelled in any way. -/
inductive QueryField : String → Value → Value → Prop
  | filters {v v' : Value} (h : ClausesRespelled v v') : QueryField "filters" v v'
  | direction {name : String} (hname : name ∈ ["sortDirection", "sort_direction"]) {v v' : Value}
      (h : Respelled (fun v d => Specification.directionSlot.read v = .valid (some d))
        Direction.symbol v v') : QueryField name v v'
  | other (name : String) (v : Value) : QueryField name v v

/-- The same problem at the same place. -/
structure SameComplaint (issue issue' : Issue) : Prop where
  problem : issue.problem = issue'.problem
  path : issue.path = issue'.path

/-- Complaints that are the same stay so when they are seen from a step further out. -/
theorem SameComplaint.under (step : Step) {issue issue' : Issue} (h : SameComplaint issue issue') :
    SameComplaint (issue.under step) (issue'.under step) :=
  ⟨h.problem, congrArg (step :: ·) h.path⟩

/-- Two outcomes are the same value, or complain of the same problems at the same places. -/
abbrev Checked.Agree {α : Type} (a a' : Checked α) : Prop := a.Alike SameComplaint a'

namespace Checked.Agree

variable {α : Type}

/-- An outcome agrees with itself. -/
theorem refl (a : Checked α) : a.Agree a := by
  cases a with
  | valid a => exact .valid a
  | invalid issues => exact .invalid (List.forall₂_same.mpr fun issue _ => ⟨rfl, rfl⟩)

/-- Outcomes that agree still do when they are seen from a step further out. -/
theorem under (step : Step) {a a' : Checked α} (h : a.Agree a') :
    (a.under step).Agree (a'.under step) := by
  cases h with
  | valid a => exact .valid a
  | invalid h =>
    refine .invalid ?_
    rw [List.forall₂_map_left_iff, List.forall₂_map_right_iff]
    exact h.imp fun _ _ hsame => hsame.under step

/-- Outcomes that agree have the same value, if they have one. -/
theorem toOption_eq {a a' : Checked α} (h : a.Agree a') : a.toOption = a'.toOption := by
  cases h with
  | valid a => rfl
  | invalid h => rfl

end Checked.Agree

/-! ## Reading other spellings -/

section Fill

variable {R : String → Value → Value → Prop} {fields fields' : Fields}

/-- Fields that are related lack the same names, and have related values under the others. -/
theorem Fields.Related.get? (h : Fields.Related R fields fields') (name : String) :
    (fields.get? name = none ∧ fields'.get? name = none) ∨
      ∃ v v', fields.get? name = some v ∧ fields'.get? name = some v' ∧ R name v v' := by
  induction h with
  | nil => exact .inl ⟨rfl, rfl⟩
  | @cons f f' fields fields' hfield _ ih =>
    obtain ⟨other, v⟩ := f
    obtain ⟨other', v'⟩ := f'
    obtain ⟨rfl, hR⟩ := hfield
    by_cases hname : name = other'
    · subst hname
      exact .inr ⟨v, v', by simp [Fields.get?], by simp [Fields.get?], hR⟩
    · have hskip : (name == other') = false := by simpa using hname
      simpa [Fields.get?, List.lookup_cons, hskip] using ih

/-- A slot is filled alike if it reads the related values alike that are given under its names. -/
theorem Slot.fill_agree {α : Type} (slot : Slot α) (h : Fields.Related R fields fields')
    (hread : ∀ name ∈ slot.label.names, ∀ v v', R name v v' → (slot.read v).Agree (slot.read v')) :
    (slot.fill fields).Agree (slot.fill fields') := by
  have houter : slot.label.outer ∈ slot.label.names := by simp [Label.names]
  have hplain : slot.label.plain ∈ slot.label.names := by simp [Label.names]
  unfold Slot.fill Label.find?
  rcases h.get? slot.label.outer with ⟨hnone, hnone'⟩ | ⟨v, v', hv, hv', hR⟩
  · rw [hnone, hnone']
    rcases h.get? slot.label.plain with ⟨hnone, hnone'⟩ | ⟨v, v', hv, hv', hR⟩
    · rw [hnone, hnone']
      dsimp only [Option.map_none]
      cases slot.absent? with
      | some a => exact .valid a
      | none => exact .invalid (.cons ⟨rfl, rfl⟩ .nil)
    · rw [hv, hv']
      exact (hread _ hplain v v' hR).under _
  · rw [hv, hv']
    exact (hread _ houter v v' hR).under _

/-- A slot is filled alike from fields that are related by equality under its names. -/
theorem Slot.fill_agree_of_eq {α : Type} (slot : Slot α) (h : Fields.Related R fields fields')
    (hsame : ∀ name ∈ slot.label.names, ∀ v v', R name v v' → v = v') :
    (slot.fill fields).Agree (slot.fill fields') := by
  refine slot.fill_agree h fun name hname v v' hR => ?_
  rw [hsame name hname v v' hR]
  exact .refl _

end Fill

/-- A reader that takes every spelling reads a value and its respelling alike. -/
theorem Respelled.read_agree {α β : Type} {reads : Value → α → Prop} {symbol : α → String}
    {read : Coercion.Reader β} (make : α → β) (hreads : ∀ v a, reads v a → read v = .valid (make a))
    (hspelled : ∀ a s, Text.Spelling (symbol a).toList s.toList → read (.text s) = .valid (make a))
    {v v' : Value} (h : Respelled reads symbol v v') : (read v).Agree (read v') := by
  cases h with
  | same => exact .refl _
  | @spelled a s h hs =>
    rw [hreads v a h, hspelled a s hs]
    exact .valid _

/-- An operator and its respelling are read alike. -/
theorem Clause.readOperator_agree {v v' : Value} (h : ClauseField "operator" v v') :
    (operatorSlot.read v).Agree (operatorSlot.read v') := by
  cases h with
  | operator h => exact h.read_agree id (fun _ _ h => h) fun _ _ hs => readOperator_of_spelling hs
  | other => exact .refl _

theorem ClauseField.eq_of_ne {name : String} {v v' : Value} (h : ClauseField name v v')
    (hname : name ≠ "operator") : v = v' := by
  cases h with
  | operator => exact absurd rfl hname
  | other => rfl

/-- A clause is read alike when its operator is respelled. -/
theorem Clause.read_agree {v v' : Value} (h : Refilled ClauseField v v') : (read v).Agree (read v') := by
  cases h with
  | same => exact .refl _
  | @object fields fields' h =>
    have hothers : ∀ label : Label, "operator" ∉ label.names →
        ∀ name ∈ label.names, ∀ v v', ClauseField name v v' → v = v' := by
      intro label hlabel name hname v v' hfield
      refine hfield.eq_of_ne ?_
      rintro rfl
      exact hlabel hname
    have hcolumn := columnSlot.fill_agree_of_eq h (hothers _ (by decide))
    have hoperand := operandSlot.fill_agree_of_eq h (hothers _ (by decide))
    have hoperator : (operatorSlot.fill fields).Agree (operatorSlot.fill fields') := by
      refine operatorSlot.fill_agree h fun name hname v v' hfield => ?_
      obtain rfl : name = "operator" := by
        simpa [operatorSlot, Slot.required, Label.single, Label.names] using hname
      exact readOperator_agree hfield
    exact ((hcolumn.map _).seq hoperator).seq hoperand

/-! ## Whole queries -/

/-- Lists of values that are read alike one by one are read alike. -/
theorem Coercion.items_agree {α : Type} {read : Coercion.Reader α} {R : Value → Value → Prop}
    {vs vs' : List Value} (h : List.Forall₂ R vs vs')
    (hread : ∀ v v', R v v' → (read v).Agree (read v')) (index : Nat) :
    (items read index vs).Agree (items read index vs') := by
  induction h generalizing index with
  | nil => exact .refl _
  | cons hv _ ih => exact (((hread _ _ hv).under _).map _).seq (ih (index + 1))

/-- Clauses are read alike when their operators are respelled. -/
theorem Specification.readClauses_agree {v v' : Value} (h : ClausesRespelled v v') :
    (clausesSlot.read v).Agree (clausesSlot.read v') := by
  cases h with
  | same => exact .refl _
  | list h => exact Coercion.items_agree h (fun _ _ => Clause.read_agree) 0
  | tuple h => exact Coercion.items_agree h (fun _ _ => Clause.read_agree) 0

/-- A specification is read alike when its operators and its direction are respelled. -/
theorem Specification.read_agree {v v' : Value} (h : Refilled QueryField v v') :
    (read v).Agree (read v') := by
  cases h with
  | same => exact .refl _
  | @object fields fields' h =>
    have hothers : ∀ label : Label,
        (∀ name ∈ label.names, name ∉ ["filters", "sortDirection", "sort_direction"]) →
        ∀ name ∈ label.names, ∀ v v', QueryField name v v' → v = v' := by
      intro label hlabel name hname v v' hfield
      have hnone := hlabel name hname
      cases hfield with
      | filters => exact absurd List.mem_cons_self hnone
      | direction hdirection => exact absurd (List.mem_cons_of_mem _ hdirection) hnone
      | other => rfl
    have horder := orderSlot.fill_agree_of_eq h (hothers _ (by decide))
    have hlimit := limitSlot.fill_agree_of_eq h (hothers _ (by decide))
    have hclauses : (clausesSlot.fill fields).Agree (clausesSlot.fill fields') := by
      refine clausesSlot.fill_agree h fun name hname v v' hfield => ?_
      obtain rfl : name = "filters" := by
        simpa [clausesSlot, Slot.optional, Label.single, Label.names] using hname
      cases hfield with
      | filters h => exact readClauses_agree h
      | direction hname => exact absurd hname (by decide)
      | other => exact .refl _
    have hdirection : (directionSlot.fill fields).Agree (directionSlot.fill fields') := by
      refine directionSlot.fill_agree h fun name hname v v' hfield => ?_
      cases hfield with
      | filters => exact absurd hname (by decide)
      | direction _ h =>
        exact h.read_agree some (fun _ _ h => h) fun _ _ hs => readDirection_of_spelling hs
      | other => exact .refl _
    exact (((hclauses.map _).seq horder).seq hdirection).seq hlimit

/-- A clause has the operator whose symbol is spelled in it, and in ASCII no other text gives it one. The
same holds of a query and its direction. A query whose operators and directions are spelled in another
way is read as the same specification, or complains of the same problems at the same places, and it
compiles to the same text with the same parameters, or to the same error. -/
theorem spellings_read :
    (∀ (fields : Fields) (column : String) (operand? : Option Operand) (s : String),
      fields.get? "operator" = some (.text s) → Clause.columnSlot.fill fields = .valid column →
      Clause.operandSlot.fill fields = .valid operand? →
        (∀ o : Operator, Text.Spelling o.symbol.toList s.toList →
          Clause.read (.object fields) = .valid ⟨column, o, operand?⟩) ∧
        (Text.isAscii s.toList = true → ∀ c, Clause.read (.object fields) = .valid c →
          Text.Spelling c.operator.symbol.toList s.toList)) ∧
    (∀ (fields : Fields) (name : String) (clauses : List Clause) (orderBy? : Option String)
      (limit? : Option Int) (s : String),
      Specification.directionSlot.label.find? fields = some (name, .text s) →
      Specification.clausesSlot.fill fields = .valid clauses →
      Specification.orderSlot.fill fields = .valid orderBy? →
      Specification.limitSlot.fill fields = .valid limit? →
        (∀ d : Direction, Text.Spelling d.symbol.toList s.toList →
          Specification.read (.object fields) = .valid ⟨clauses, orderBy?, some d, limit?⟩) ∧
        (Text.isAscii s.toList = true → ∀ q, Specification.read (.object fields) = .valid q →
          ∃ d, q.direction? = some d ∧ Text.Spelling d.symbol.toList s.toList)) ∧
    ∀ v v', Refilled QueryField v v' → (Specification.read v).Agree (Specification.read v') ∧
      ∀ (table : String) (strict : Bool),
        (Specification.read v').toOption.map (Specification.compile table strict) =
          (Specification.read v).toOption.map (Specification.compile table strict) := by
  refine ⟨?_, ?_, ?_⟩
  · intro fields column operand? s hget hcolumn hoperand
    have hfind : Clause.operatorSlot.label.find? fields = some ("operator", .text s) := by
      have houter : Fields.get? fields Clause.operatorSlot.label.outer = some (.text s) := hget
      rw [Label.find?, houter]
      rfl
    refine ⟨fun o hs => ?_, fun hascii c hc => ?_⟩
    · unfold Clause.read Coercion.form
      dsimp only
      rw [hcolumn, Slot.fill_of_read (Clause.readOperator_of_spelling hs) hfind, hoperand]
      rfl
    · obtain ⟨-, hoperator, -⟩ := Clause.slots_of_read hc
      have hread := Coercion.read?_of_choice (Slot.read_of_fill hoperator hfind)
      exact Operator.spelling_of_read? hascii hread
  · intro fields name clauses orderBy? limit? s hfind hclauses horder hlimit
    refine ⟨fun d hs => ?_, fun hascii q hq => ?_⟩
    · unfold Specification.read Coercion.form
      dsimp only
      rw [hclauses, horder, Slot.fill_of_read (Specification.readDirection_of_spelling hs) hfind, hlimit]
      rfl
    · obtain ⟨-, -, hdirection, -⟩ := Specification.slots_of_read hq
      obtain ⟨d, hd, hread⟩ :=
        Specification.read?_of_readDirection (Slot.read_of_fill hdirection hfind)
      exact ⟨d, hd, Direction.spelling_of_read? hascii hread⟩
  · intro v v' h
    have hagree := Specification.read_agree h
    exact ⟨hagree, fun table strict => by rw [hagree.toOption_eq]⟩

/-- A spelling with a tab, a line feed and a separator among its blanks. -/
def tabbed : String := "\t is\nNot \x1fnull\n"

theorem spelling_tabbed : Text.Spelling Operator.isNotNull.symbol.toList tabbed.toList := by
  have hjoined : Text.joined tabbed.toList = Operator.isNotNull.symbol.toList := by decide +kernel
  rw [← hjoined]
  exact Text.spelling_joined (by decide)

theorem spellings_read_tabbed :
    Clause.read (.object [("column", .text "Name"), ("operator", .text tabbed)]) =
        .valid ⟨"Name", .isNotNull, none⟩ ∧
      ∀ table strict,
        (Specification.read (.object [("filters", .list [.object [("column", .text "Name"),
          ("operator", .text tabbed)]]), ("sortDirection", .text " desc")])).toOption.map
            (Specification.compile table strict) =
          some (Specification.compile table strict
            ⟨[⟨"Name", .isNotNull, none⟩], none, some .descending, none⟩) := by
  obtain ⟨hclause, -, hquery⟩ := spellings_read
  refine ⟨(hclause _ "Name" none tabbed rfl rfl rfl).1 .isNotNull spelling_tabbed, fun table strict => ?_⟩
  have hdirection : Text.Spelling Direction.descending.symbol.toList " desc".toList := by
    have htrimmed : Text.upper (Text.trim " desc".toList) = Direction.descending.symbol.toList := by
      decide +kernel
    rw [← htrimmed]
    exact Text.spelling_upper_trim (by decide) (by decide +kernel)
  have hplain : Refilled QueryField
      (.object [("filters", .list [.object [("column", .text "Name"),
        ("operator", .text "IS NOT NULL")]]), ("sortDirection", .text "DESC")])
      (.object [("filters", .list [.object [("column", .text "Name"),
        ("operator", .text tabbed)]]), ("sortDirection", .text " desc")]) := by
    refine .object (.cons ⟨rfl, .filters (.list (.cons (.object ?_) .nil))⟩ (.cons ⟨rfl, ?_⟩ .nil))
    · exact .cons ⟨rfl, .other _ _⟩ (.cons ⟨rfl, .operator (.spelled rfl spelling_tabbed)⟩ .nil)
    · exact .direction List.mem_cons_self (.spelled rfl hdirection)
  rw [(hquery _ _ hplain).2 table strict]
  rfl

end MeetDesk
