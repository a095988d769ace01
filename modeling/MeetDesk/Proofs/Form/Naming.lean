import Mathlib.Data.List.Forall2
import MeetDesk.Form.Slot

/-!
# Fields under either name

A field may be given under its plain name or under its outer one. An object whose fields are given under
other names of theirs is read alike: as the same value, or with the same issues, which tell of a field by
the name that was given for it.
-/

namespace MeetDesk

/-- The names that a field may be given under. -/
def Label.names (label : Label) : List String := [label.outer, label.plain]

/-- Two names are the same, or two names of one field. -/
def SameField (labels : List Label) (name name' : String) : Prop :=
  name = name' ∨ ∃ label ∈ labels, name ∈ label.names ∧ name' ∈ label.names

/-- An object gives no field under both its names, and another one gives the same values in the same
order, each under a name of the same field. -/
structure Respelling (labels : List Label) (fields fields' : Fields) : Prop where
  distinct : fields.names.Nodup
  once : ∀ label ∈ labels, label.plain ≠ label.outer →
    ¬(label.plain ∈ fields.names ∧ label.outer ∈ fields.names)
  fieldwise : List.Forall₂ (fun f f' => SameField labels f.1 f'.1 ∧ f.2 = f'.2) fields fields'

/-- The same issue of two objects, except for the name of the field that it is about. Where a field is
missing, it is the object that has the issue. -/
structure SameIssue (labels : List Label) (fields fields' : Fields) (issue issue' : Issue) : Prop where
  problem : issue.problem = issue'.problem
  path : ∃ name name' rest, issue.path = .field name :: rest ∧ issue'.path = .field name' :: rest ∧
    SameField labels name name'
  offender : issue.offender = issue'.offender ∨
    issue.offender = .object fields ∧ issue'.offender = .object fields'

/-- Two outcomes are the same value, or have pairwise related issues. -/
inductive Checked.Alike {α : Type} (R : Issue → Issue → Prop) : Checked α → Checked α → Prop
  | valid (a : α) : Alike R (.valid a) (.valid a)
  | invalid {issues issues' : List Issue} (h : List.Forall₂ R issues issues') :
      Alike R (.invalid issues) (.invalid issues')

/-- A form does not depend on the names under which its fields are given. -/
def NameBlind {α : Type} (labels : List Label) (read : Coercion.Reader α) : Prop :=
  ∀ fields fields', Respelling labels fields fields' →
    (read (.object fields)).Alike (SameIssue labels fields fields') (read (.object fields'))

/-- No name belongs to two fields. -/
def Apart (labels : List Label) : Prop :=
  ∀ a ∈ labels, ∀ b ∈ labels, ∀ name ∈ a.names, name ∈ b.names → a = b

instance (labels : List Label) : Decidable (Apart labels) :=
  inferInstanceAs (Decidable (∀ a ∈ labels, ∀ b ∈ labels, ∀ name ∈ a.names, name ∈ b.names → a = b))

/-! ## Outcomes that are put together -/

namespace Checked.Alike

variable {α β : Type} {R : Issue → Issue → Prop}

theorem map (f : α → β) {a a' : Checked α} (h : a.Alike R a') : (f <$> a).Alike R (f <$> a') := by
  cases h with
  | valid a => exact .valid (f a)
  | invalid h => exact .invalid h

/-- Issues that are alike on both sides are alike in the order in which they are kept. -/
theorem seq {f f' : Checked (α → β)} {a a' : Checked α} (hf : f.Alike R f') (ha : a.Alike R a') :
    (f <*> a).Alike R (f' <*> a') := by
  cases hf with
  | valid f =>
    cases ha with
    | valid a => exact .valid (f a)
    | invalid ha => exact .invalid ha
  | invalid hf =>
    cases ha with
    | valid a => exact .invalid hf
    | invalid ha => exact .invalid (List.rel_append hf ha)

end Checked.Alike

/-! ## What is given for a field -/

/-- The fields of an object that bear a name of the label. -/
def Label.given (label : Label) (fields : Fields) : Fields :=
  fields.filter fun f => decide (f.1 ∈ label.names)

/-- Where a field is given at most once, the name that is looked for first does not matter. -/
theorem Label.find?_eq_head?_given {label : Label} {fields : Fields}
    (h : (label.given fields).length ≤ 1) : label.find? fields = (label.given fields).head? := by
  induction fields with
  | nil => rfl
  | cons field fields ih =>
    obtain ⟨name, v⟩ := field
    by_cases hname : name ∈ label.names
    · have hgiven : label.given ((name, v) :: fields) = (name, v) :: label.given fields :=
        List.filter_cons_of_pos (by simpa using hname)
      rw [hgiven] at h ⊢
      have hempty : label.given fields = [] := by
        rw [List.length_cons] at h
        exact List.length_eq_zero_iff.mp (by omega)
      rw [hempty] at ih
      have hnone : label.find? fields = none := ih (Nat.zero_le 1)
      have houter : Fields.get? fields label.outer = none := by
        unfold Label.find? at hnone
        split at hnone
        · cases hnone
        · assumption
      simp only [Label.names, List.mem_cons, List.not_mem_nil, or_false] at hname
      by_cases hfirst : name = label.outer
      · subst hfirst
        simp [Label.find?, Fields.get?]
      · obtain rfl : name = label.plain := hname.resolve_left hfirst
        have hskip : (label.outer == label.plain) = false := by
          simpa using fun heq => hfirst (Eq.symm heq)
        have hlater : List.lookup label.outer fields = none := houter
        simp [Label.find?, Fields.get?, List.lookup_cons, hskip, hlater]
    · have hgiven : label.given ((name, v) :: fields) = label.given fields :=
        List.filter_cons_of_neg (by simpa using hname)
      rw [hgiven] at h ⊢
      rw [← ih h]
      simp only [Label.names, List.mem_cons, List.not_mem_nil, or_false, not_or] at hname
      have houter : (label.outer == name) = false := by simpa using fun heq => hname.1 (Eq.symm heq)
      have hplain : (label.plain == name) = false := by simpa using fun heq => hname.2 (Eq.symm heq)
      simp [Label.find?, Fields.get?, List.lookup_cons, houter, hplain]

namespace Respelling

variable {labels : List Label} {fields fields' : Fields}

theorem length_given_le_one (h : Respelling labels fields fields') {label : Label}
    (hlabel : label ∈ labels) : (label.given fields).length ≤ 1 := by
  have hsub : (label.given fields).Sublist fields := List.filter_sublist
  have hdistinct : ((label.given fields).map Prod.fst).Nodup := (hsub.map Prod.fst).nodup h.distinct
  have hnames : ∀ f ∈ label.given fields, f.1 ∈ label.names ∧ f.1 ∈ fields.names := by
    intro f hf
    obtain ⟨hmem, hname⟩ := List.mem_filter.mp hf
    exact ⟨by simpa using hname, List.mem_map_of_mem hmem⟩
  rcases hgiven : label.given fields with _ | ⟨f, _ | ⟨g, more⟩⟩
  · exact Nat.zero_le 1
  · exact Nat.le_refl 1
  · -- Two fields have different names, so they bear both names of the label.
    rw [hgiven] at hdistinct hnames
    obtain ⟨hf, hfMem⟩ := hnames f (by simp)
    obtain ⟨hg, hgMem⟩ := hnames g (by simp)
    have hne : f.1 ≠ g.1 := by
      intro heq
      simp [heq] at hdistinct
    simp only [Label.names, List.mem_cons, List.not_mem_nil, or_false] at hf hg
    exfalso
    rcases hf with hf | hf <;> rcases hg with hg | hg
    · exact hne (hf.trans hg.symm)
    · rw [hf] at hfMem hne
      rw [hg] at hgMem hne
      exact h.once label hlabel hne.symm ⟨hgMem, hfMem⟩
    · rw [hf] at hfMem hne
      rw [hg] at hgMem hne
      exact h.once label hlabel hne ⟨hfMem, hgMem⟩
    · exact hne (hf.trans hg.symm)

/-- What is given for a field is given for it under the other spelling. -/
theorem given (h : Respelling labels fields fields') (hapart : Apart labels) {label : Label}
    (hlabel : label ∈ labels) :
    List.Forall₂ (fun f f' => SameField labels f.1 f'.1 ∧ f.2 = f'.2) (label.given fields)
      (label.given fields') := by
  refine List.rel_filter ?_ h.fieldwise
  rintro f f' ⟨hsame, -⟩
  have hmem : f.1 ∈ label.names ↔ f'.1 ∈ label.names := by
    rcases hsame with heq | ⟨other, hother, hname, hname'⟩
    · rw [heq]
    · constructor
      · intro hf
        rw [hapart label hlabel other hother f.1 hf hname]
        exact hname'
      · intro hf'
        rw [hapart label hlabel other hother f'.1 hf' hname']
        exact hname
  simpa using hmem

/-- A slot is filled alike under either spelling. -/
theorem fill {α : Type} (h : Respelling labels fields fields') (hapart : Apart labels) (slot : Slot α)
    (hlabel : slot.label ∈ labels) :
    (slot.fill fields).Alike (SameIssue labels fields fields') (slot.fill fields') := by
  have hone := h.length_given_le_one hlabel
  have hgiven := h.given hapart hlabel
  have hone' : (slot.label.given fields').length ≤ 1 := by
    rw [← hgiven.length_eq]
    exact hone
  unfold Slot.fill
  rw [Label.find?_eq_head?_given hone, Label.find?_eq_head?_given hone']
  generalize slot.label.given fields = found, slot.label.given fields' = found' at hgiven
  cases hgiven with
  | nil =>
    simp only [List.head?_nil]
    cases slot.absent? with
    | some a => exact .valid a
    | none =>
      refine .invalid (.cons ⟨rfl, ?_, Or.inr ⟨rfl, rfl⟩⟩ .nil)
      exact ⟨slot.label.outer, slot.label.outer, [], rfl, rfl, Or.inl rfl⟩
  | @cons f f' _ _ hfield _ =>
    obtain ⟨name, v⟩ := f
    obtain ⟨name', v'⟩ := f'
    obtain ⟨hsame, rfl⟩ := hfield
    simp only [List.head?_cons]
    cases slot.read v with
    | valid a => exact .valid a
    | invalid issues =>
      refine .invalid ?_
      rw [List.forall₂_map_left_iff, List.forall₂_map_right_iff]
      exact List.forall₂_same.mpr fun issue _ =>
        ⟨rfl, ⟨name, name', issue.path, rfl, rfl, hsame⟩, Or.inl rfl⟩

end Respelling

end MeetDesk
