import MeetDesk.Form.Checked
import MeetDesk.Fault
import MeetDesk.Json.Error
import MeetDesk.Value.Extent

/-!
# Room on the stack

A walk through a value takes a frame of the stack for every level that it goes down, and it fails if there
is none left. How many levels there is room for depends on the frames that are taken where the walk starts,
so every place that starts one has a bound of its own. In a run the bounds stay what they are, as each of
its turns starts from the same frame.
-/

namespace MeetDesk

/-- Whether a value can be written down by whoever goes so many levels down: it is no higher, and no integer
in it is too long. -/
def Value.Fits (levels : Nat) (v : Value) : Prop := v.height ≤ levels ∧ v.digits ≤ Json.maxDigits

instance (levels : Nat) (v : Value) : Decidable (v.Fits levels) := inferInstanceAs (Decidable (_ ∧ _))

namespace Value

variable {levels : Nat}

/-- There is room for nothing where no level is left. -/
theorem Fits.exists_succ {v : Value} (h : v.Fits levels) : ∃ n, levels = n + 1 :=
  Nat.exists_eq_add_one.mpr (Nat.lt_of_lt_of_le v.height_pos h.1)

@[simp] theorem fits_text (s : String) : (text s).Fits (levels + 1) := by
  simp [Fits, height, digits, peak, digitsOf]

@[simp] theorem fits_list_iff {items : List Value} :
    (list items).Fits (levels + 1) ↔ ∀ item ∈ items, item.Fits levels := by
  unfold Fits
  rw [height_list_le_iff, digits_list_le_iff]
  simp only [imp_and, forall_and]

@[simp] theorem fits_object_iff {fields : Fields} :
    (object fields).Fits (levels + 1) ↔ ∀ field ∈ fields, field.2.Fits levels := by
  unfold Fits
  rw [height_object_le_iff, digits_object_le_iff]
  simp only [imp_and, forall_and]

end Value

/-- The levels that there is room for, by the place where a value is walked through. The defaults are those
of a desk that is run by a program itself, and not by a function of it, on a stack of a thousand. -/
structure Room where
  /-- The lists and objects, one inside of the other, of a document that is read: of a whole text, of a
  fenced block, or of arguments that come as a text. -/
  document : Nat := 982
  /-- The lists and objects, one inside of the other, of what is read off prose. -/
  prose : Nat := 984
  /-- The height of a value that the log shows because it was refused. -/
  log : Nat := 976
  /-- The height of a row that is copied and written into a prompt. -/
  rows : Nat := 492

/-- The failure of a walk for which there is no room. -/
def Fault.tooDeep : Fault := ⟨.ordinary, "RecursionError", none⟩

namespace Room

/-- Whether the log can show the values that were refused. -/
def Shows (room : Room) (issues : List Issue) : Prop :=
  ∀ issue ∈ issues, issue.offender.height ≤ room.log

instance (room : Room) (issues : List Issue) : Decidable (room.Shows issues) :=
  inferInstanceAs (Decidable (∀ issue ∈ issues, _))

/-- Whether the log can show what was refused, if anything was. -/
def ShowsRefused {α : Type} (room : Room) : Checked α → Prop
  | .valid _ => True
  | .invalid issues => room.Shows issues

/-- Whether a row can be copied, and written into a prompt. -/
def Writes (room : Room) (row : Row) : Prop := (Value.object row).Fits room.rows

instance (room : Room) (row : Row) : Decidable (room.Writes row) :=
  inferInstanceAs (Decidable (Value.Fits ..))

end Room

end MeetDesk
