import MeetDesk.Desk.Request
import MeetDesk.Http.Report
import MeetDesk.Proofs.Form.Naming
import MeetDesk.Query.Specification
import MeetDesk.Routing.Choice

/-!
# Forms that were read and written again

What was read leniently is written strictly, so it is read as itself again, under either naming. The
forms are read alike under either name of their fields.
-/

namespace MeetDesk

open Coercion (Reader)

/-- A form that was read keeps its values when it is written and read again, and does not depend on the
names under which its fields are given. -/
structure Settled {α : Type} (labels : List Label) (read : Reader α) (toValue : Naming → α → Value) :
    Prop where
  survives : ∀ v a naming, read v = .valid a → read (toValue naming a) = .valid a
  blind : NameBlind labels read

/-! ## Values that are read as themselves -/

namespace Coercion

variable {α : Type}

theorem orNull_ofText? (text? : Option String) : orNull text (.ofText? text?) = .valid text? := by
  cases text? <;> rfl

theorem orNull_ofBool? (b? : Option Bool) : orNull boolean (.ofBool? b?) = .valid b? := by
  cases b? <;> rfl

theorem orNull_int? (n? : Option Int) :
    orNull integer ((n?.map Value.int).getD .null) = .valid n? := by
  cases n? <;> rfl

/-- Items that are read as themselves are read as themselves in a list. -/
theorem items_map {read : Reader α} {toValue : α → Value}
    (h : ∀ a, read (toValue a) = .valid a) (index : Nat) (as : List α) :
    items read index (as.map toValue) = .valid as := by
  induction as generalizing index with
  | nil => rfl
  | cons a as ih =>
    rw [List.map_cons, items, h a, ih]
    rfl

/-- A list is read back if each of its items is. -/
theorem list_map {read : Reader α} {toValue : α → Value} (h : ∀ a, read (toValue a) = .valid a)
    (as : List α) : list read (.list (as.map toValue)) = .valid as :=
  items_map h 0 as

theorem list_object (objects : List Fields) :
    list object (.list (objects.map Value.object)) = .valid objects :=
  @items_map Fields object Value.object (fun _ => rfl) 0 objects

/-- A text that one choice has for its symbol is read as this choice. -/
theorem choice_text {choices : List String} {read? : String → Option α} {s : String} {a : α}
    (hwhole : Text.isWhole s = true) (hread : read? s = some a) :
    choice choices read? (.text s) = .valid a := by
  have htext : (Value.text s).text? = some s := rfl
  unfold choice written
  rw [htext]
  dsimp only
  rw [hwhole, hread]
  rfl

/-- What is read where a text must not be empty is not empty and made of characters. -/
theorem nonEmptyText_eq_valid {v : Value} {s : String} (h : nonEmptyText v = .valid s) :
    Text.isWhole s = true ∧ s.isEmpty = false := by
  unfold nonEmptyText written at h
  split at h
  · cases h
  · rename_i s' _
    split at h
    · cases h
    · rename_i hwhole
      by_cases hempty : s'.isEmpty = true
      · simp only [hempty] at h
        cases h
      · simp only [hempty] at h
        cases h
        exact ⟨by simpa using hwhole, by simpa using hempty⟩

theorem nonEmptyText_text {s : String} (hwhole : Text.isWhole s = true) (hempty : s.isEmpty = false) :
    nonEmptyText (.text s) = .valid s := by
  have htext : (Value.text s).text? = some s := rfl
  unfold nonEmptyText written
  rw [htext]
  dsimp only
  rw [hwhole, hempty]
  rfl

end Coercion

/-- An operator is read back from its symbol. -/
theorem Operator.read?_symbol (o : Operator) : read? o.symbol = some o := by
  cases o <;> decide +kernel

theorem Operator.isWhole_symbol (o : Operator) : Text.isWhole o.symbol = true := by
  cases o <;> decide

/-- A direction is read back from its symbol. -/
theorem Direction.read?_symbol (d : Direction) : read? d.symbol = some d := by
  cases d <;> decide +kernel

theorem Direction.isWhole_symbol (d : Direction) : Text.isWhole d.symbol = true := by
  cases d <;> decide

/-- A slot is filled with what is read under its label. -/
theorem Slot.fill_of_read {α : Type} {slot : Slot α} {fields : Fields} {name : String} {v : Value}
    {a : α} (hread : slot.read v = .valid a) (hfind : slot.label.find? fields = some (name, v)) :
    slot.fill fields = .valid a := by
  unfold Slot.fill
  rw [hfind]
  dsimp only
  rw [hread]
  rfl

/-! ## Forms that are read as themselves -/

namespace Clause

/-- The labels of the fields. -/
def labels : List Label :=
  [columnSlot.label, operatorSlot.label, operandSlot.label]

theorem read_toValue (c : Clause) : read c.toValue = .valid c := by
  have hcolumn : columnSlot.read (.text c.column) = .valid c.column := rfl
  have hoperator : operatorSlot.read (.text c.operator.symbol) = .valid c.operator :=
    Coercion.choice_text c.operator.isWhole_symbol c.operator.read?_symbol
  have hoperand : operandSlot.read ((c.operand?.map Operand.toValue).getD .null) =
      .valid c.operand? := by
    rcases c.operand? with _ | s | n | x <;> rfl
  unfold read toValue Coercion.form
  dsimp only
  rw [Slot.fill_of_read hcolumn rfl, Slot.fill_of_read hoperator rfl, Slot.fill_of_read hoperand rfl]
  rfl

theorem settled : Settled labels read fun _ => toValue := by
  refine ⟨fun _ c _ _ => read_toValue c, fun fields fields' h => ?_⟩
  have hapart : Apart labels := by decide
  exact (h.fill hapart columnSlot (by simp [labels])).map _
    |>.seq (h.fill hapart operatorSlot (by simp [labels]))
    |>.seq (h.fill hapart operandSlot (by simp [labels]))

end Clause

namespace Specification

/-- The labels of the fields. -/
def labels : List Label :=
  [clausesSlot.label, orderSlot.label, directionSlot.label, limitSlot.label]

theorem read_toValue (naming : Naming) (s : Specification) :
    read (s.toValue naming) = .valid s := by
  have hclauses : clausesSlot.read (.list (s.clauses.map Clause.toValue)) = .valid s.clauses :=
    Coercion.list_map Clause.read_toValue s.clauses
  have horder : orderSlot.read (.ofText? s.orderBy?) = .valid s.orderBy? :=
    Coercion.orNull_ofText? s.orderBy?
  have hdirection : directionSlot.read (.ofText? (s.direction?.map Direction.symbol)) =
      .valid s.direction? := by
    cases s.direction? with
    | none => rfl
    | some d =>
      show some <$> Coercion.choice _ _ (.text d.symbol) = _
      rw [Coercion.choice_text d.isWhole_symbol d.read?_symbol]
      rfl
  have hlimit : limitSlot.read ((s.limit?.map Value.int).getD .null) = .valid s.limit? :=
    Coercion.orNull_int? s.limit?
  unfold read toValue Coercion.form
  cases naming <;>
    (dsimp only
     rw [Slot.fill_of_read hclauses rfl, Slot.fill_of_read horder rfl,
       Slot.fill_of_read hdirection rfl, Slot.fill_of_read hlimit rfl]
     rfl)

theorem settled : Settled labels read toValue := by
  refine ⟨fun _ a naming _ => read_toValue naming a, fun fields fields' h => ?_⟩
  have hapart : Apart labels := by decide
  exact (h.fill hapart clausesSlot (by simp [labels])).map _
    |>.seq (h.fill hapart orderSlot (by simp [labels]))
    |>.seq (h.fill hapart directionSlot (by simp [labels]))
    |>.seq (h.fill hapart limitSlot (by simp [labels]))

end Specification

namespace RouteChoice

/-- The labels of the fields. -/
def labels : List Label :=
  [agentSlot.label, inDomainSlot.label, reasoningSlot.label]

theorem read_toValue (naming : Naming) (c : RouteChoice) : read (c.toValue naming) = .valid c := by
  have hagent : agentSlot.read (.text c.agent) = .valid c.agent := rfl
  have hdomain : inDomainSlot.read (.ofBool? c.inDomain?) = .valid c.inDomain? :=
    Coercion.orNull_ofBool? c.inDomain?
  have hreasoning : reasoningSlot.read (.ofText? c.reasoning?) = .valid c.reasoning? :=
    Coercion.orNull_ofText? c.reasoning?
  unfold read toValue Coercion.form
  cases naming <;>
    (dsimp only
     rw [Slot.fill_of_read hagent rfl, Slot.fill_of_read hdomain rfl,
       Slot.fill_of_read hreasoning rfl]
     rfl)

theorem settled : Settled labels read toValue := by
  refine ⟨fun _ a naming _ => read_toValue naming a, fun fields fields' h => ?_⟩
  have hapart : Apart labels := by decide
  exact (h.fill hapart agentSlot (by simp [labels])).map _
    |>.seq (h.fill hapart inDomainSlot (by simp [labels]))
    |>.seq (h.fill hapart reasoningSlot (by simp [labels]))

end RouteChoice

namespace RunRequest

/-- The labels of the fields. -/
def labels : List Label :=
  [inputSlot.label, threadSlot.label, userSlot.label, messageSlot.label]

/-- Only a question that is not empty and made of characters is read again. -/
theorem read_toValue (naming : Naming) {r : RunRequest} (hwhole : Text.isWhole r.input = true)
    (hempty : r.input.isEmpty = false) : read (r.toValue naming) = .valid r := by
  have hinput : inputSlot.read (.text r.input) = .valid r.input :=
    Coercion.nonEmptyText_text hwhole hempty
  have hthread : threadSlot.read (.text r.threadId) = .valid r.threadId := rfl
  have huser : userSlot.read (.ofText? r.userId?) = .valid r.userId? :=
    Coercion.orNull_ofText? r.userId?
  have hmessage : messageSlot.read (.ofText? r.messageId?) = .valid r.messageId? :=
    Coercion.orNull_ofText? r.messageId?
  unfold read toValue Coercion.form ofFields
  cases naming <;>
    (dsimp only
     rw [Slot.fill_of_read hinput rfl, Slot.fill_of_read hthread rfl, Slot.fill_of_read huser rfl,
       Slot.fill_of_read hmessage rfl]
     rfl)

/-- The question of a request that was read is not empty and made of characters. -/
theorem input_of_ofFields {fields : Fields} {r : RunRequest} (h : ofFields fields = .valid r) :
    Text.isWhole r.input = true ∧ r.input.isEmpty = false := by
  unfold ofFields at h
  obtain ⟨named, messageId?, hnamed, -, rfl⟩ := Checked.seq_eq_valid h
  obtain ⟨placed, userId?, hplaced, -, rfl⟩ := Checked.seq_eq_valid hnamed
  obtain ⟨asked, threadId, hasked, -, rfl⟩ := Checked.seq_eq_valid hplaced
  obtain ⟨input, hinput, rfl⟩ := Checked.map_eq_valid hasked
  unfold Slot.fill at hinput
  split at hinput
  · exact Coercion.nonEmptyText_eq_valid (Checked.under_eq_valid hinput)
  · cases hinput

theorem settled : Settled labels read toValue := by
  constructor
  · intro v r naming h
    unfold read Coercion.form at h
    split at h
    · obtain ⟨hwhole, hempty⟩ := input_of_ofFields h
      exact read_toValue naming hwhole hempty
    · cases h
  intro fields fields' h
  have hapart : Apart labels := by decide
  exact (h.fill hapart inputSlot (by simp [labels])).map _
    |>.seq (h.fill hapart threadSlot (by simp [labels]))
    |>.seq (h.fill hapart userSlot (by simp [labels]))
    |>.seq (h.fill hapart messageSlot (by simp [labels]))

end RunRequest

namespace RunReport

/-- The labels of the fields. -/
def labels : List Label :=
  [statusSlot.label, answerSlot.label, threadSlot.label, turnsSlot.label, countSlot.label]

theorem read_toValue (naming : Naming) (r : RunReport) : read (r.toValue naming) = .valid r := by
  have hstatus : statusSlot.read (.text r.status) = .valid r.status := rfl
  have hanswer : answerSlot.read (.text r.answer) = .valid r.answer := rfl
  have hthread : threadSlot.read (.ofText? r.threadId?) = .valid r.threadId? :=
    Coercion.orNull_ofText? r.threadId?
  have hturns : turnsSlot.read (.list (r.turns.map Value.object)) = .valid r.turns :=
    Coercion.list_object r.turns
  have hcount : countSlot.read (.int r.resultCount) = .valid r.resultCount := rfl
  unfold read toValue Coercion.form
  cases naming <;>
    (dsimp only
     rw [Slot.fill_of_read hstatus rfl, Slot.fill_of_read hanswer rfl, Slot.fill_of_read hthread rfl,
       Slot.fill_of_read hturns rfl, Slot.fill_of_read hcount rfl]
     rfl)

theorem settled : Settled labels read toValue := by
  refine ⟨fun _ a naming _ => read_toValue naming a, fun fields fields' h => ?_⟩
  have hapart : Apart labels := by decide
  exact (h.fill hapart statusSlot (by simp [labels])).map _
    |>.seq (h.fill hapart answerSlot (by simp [labels]))
    |>.seq (h.fill hapart threadSlot (by simp [labels]))
    |>.seq (h.fill hapart turnsSlot (by simp [labels]))
    |>.seq (h.fill hapart countSlot (by simp [labels]))

end RunReport

namespace ThreadReport

/-- The labels of the fields. -/
def labels : List Label :=
  [threadSlot.label, entriesSlot.label]

theorem read_toValue (naming : Naming) (r : ThreadReport) : read (r.toValue naming) = .valid r := by
  have hthread : threadSlot.read (.text r.threadId) = .valid r.threadId := rfl
  have hentries : entriesSlot.read (.list (r.entries.map Value.object)) = .valid r.entries :=
    Coercion.list_object r.entries
  unfold read toValue Coercion.form
  cases naming <;>
    (dsimp only
     rw [Slot.fill_of_read hthread rfl, Slot.fill_of_read hentries rfl]
     rfl)

theorem settled : Settled labels read toValue := by
  refine ⟨fun _ a naming _ => read_toValue naming a, fun fields fields' h => ?_⟩
  have hapart : Apart labels := by decide
  exact (h.fill hapart threadSlot (by simp [labels])).map _
    |>.seq (h.fill hapart entriesSlot (by simp [labels]))

end ThreadReport

/-- Every form keeps its values when it is written and read again, under either naming, and is read alike
under either name of its fields. -/
theorem forms_settled :
    Settled Specification.labels Specification.read Specification.toValue ∧
      (Settled Clause.labels Clause.read fun _ => Clause.toValue) ∧
      Settled RouteChoice.labels RouteChoice.read RouteChoice.toValue ∧
      Settled RunRequest.labels RunRequest.read RunRequest.toValue ∧
      Settled RunReport.labels RunReport.read RunReport.toValue ∧
      Settled ThreadReport.labels ThreadReport.read ThreadReport.toValue :=
  ⟨Specification.settled, Clause.settled, RouteChoice.settled, RunRequest.settled, RunReport.settled,
    ThreadReport.settled⟩

/-- Fields of a specification: names from outside, a direction with blanks around it, and a number of rows
as a text. -/
def looseFields : Fields :=
  [("orderBy", .text "Name"), ("limit", .text "07.0"), ("sortDirection", .text " desc ")]

/-- The same fields under their plain names. -/
def plainFields : Fields :=
  [("order_by", .text "Name"), ("limit", .text "07.0"), ("sort_direction", .text " desc ")]

/-- What both stand for. -/
def looseSpecification : Specification := ⟨[], some "Name", some .descending, some 7⟩

theorem forms_settled_loose :
    Specification.read (.object looseFields) = .valid looseSpecification ∧
      Specification.read (looseSpecification.toValue .outer) = .valid looseSpecification ∧
      (Specification.read (.object looseFields)).Alike
        (SameIssue Specification.labels looseFields plainFields)
        (Specification.read (.object plainFields)) ∧
      (RunRequest.read (.object [("userId", .int 3)])).Alike
        (SameIssue RunRequest.labels [("userId", .int 3)] [("user_id", .int 3)])
        (RunRequest.read (.object [("user_id", .int 3)])) := by
  have hread : Specification.read (.object looseFields) = .valid looseSpecification := rfl
  have hloose : Respelling Specification.labels looseFields plainFields := by
    refine ⟨by decide, by decide, ?_⟩
    exact .cons ⟨Or.inr ⟨Specification.orderSlot.label, by decide, by decide⟩, rfl⟩ <|
      .cons ⟨Or.inl rfl, rfl⟩ <|
      .cons ⟨Or.inr ⟨Specification.directionSlot.label, by decide, by decide⟩, rfl⟩ .nil
  have huser : Respelling RunRequest.labels [("userId", .int 3)] [("user_id", .int 3)] := by
    refine ⟨by decide, by decide, ?_⟩
    exact .cons ⟨Or.inr ⟨RunRequest.userSlot.label, by decide, by decide⟩, rfl⟩ .nil
  obtain ⟨hspecification, -, -, hrequest, -, -⟩ := forms_settled
  exact ⟨hread, hspecification.survives _ _ .outer hread, hspecification.blind _ _ hloose,
    hrequest.blind _ _ huser⟩

end MeetDesk
