import MeetDesk.Form.Coercion

/-!
# Slots of a form

A form is filled from an object. A slot says under which names its field may be given, what stands
for it when it is absent, and how its value is read. Fields that no slot asks for are passed over.
-/

namespace MeetDesk

/-- The two names of a field: the plain one and the one used in messages to and from outside. A
field that is given under both counts with the outer name. -/
structure Label where
  /-- The plain name. -/
  plain : String
  /-- The name used outside. -/
  outer : String
  deriving DecidableEq, Repr

/-- A field with one name. -/
def Label.single (name : String) : Label := ⟨name, name⟩

/-- Which of its two names a field goes by. -/
inductive Naming where
  /-- The plain names. -/
  | plain
  /-- The names used outside. -/
  | outer
  deriving DecidableEq, Repr

/-- The name of a field under a naming. -/
def Label.under (label : Label) : Naming → String
  | .plain => label.plain
  | .outer => label.outer

/-- The value given for a field, with the name under which it was found. -/
def Label.find? (label : Label) (fields : Fields) : Option (String × Value) :=
  match Fields.get? fields label.outer with
  | some v => some (label.outer, v)
  | none => (Fields.get? fields label.plain).map fun v => (label.plain, v)

/-- A field of a form. -/
structure Slot (α : Type) where
  /-- Its names. -/
  label : Label
  /-- What stands for it when it is absent; a slot without such a value is required. -/
  absent? : Option α
  /-- How its value is read. -/
  read : Coercion.Reader α

namespace Slot

variable {α : Type}

/-- A slot that must be filled. -/
def required (label : Label) (read : Coercion.Reader α) : Slot α := ⟨label, none, read⟩

/-- A slot that may be left empty. -/
def optional (label : Label) (absent : α) (read : Coercion.Reader α) : Slot α :=
  ⟨label, some absent, read⟩

/-- Fills a slot from the fields of an object. -/
def fill (slot : Slot α) (fields : Fields) : Checked α :=
  match slot.label.find? fields with
  | some (name, v) => (slot.read v).under (.field name)
  | none =>
    match slot.absent? with
    | some a => .valid a
    | none => .invalid [⟨.missing, [.field slot.label.outer], .object fields⟩]

end Slot

end MeetDesk
