import MeetDesk.Value

/-!
# The extent of a value

Whoever walks through a value goes a level down for every list and every object on the way, and whoever
writes it down writes out its integers. `Value.height` counts the values on the longest way down,
`Value.digits` the digits of the longest integer.
-/

namespace MeetDesk

namespace Value

mutual

/-- The greatest measure that is found on the way down into a value. What holds no other values is measured
by `leaf`, and a list or an object adds `step`. -/
def peak (leaf : Value → Nat) (step : Nat) : Value → Nat
  | .list items => peakItems leaf step items + step
  | .tuple items => peakItems leaf step items + step
  | .object fields => peakFields leaf step fields + step
  | v => leaf v

/-- The greatest measure that is found among items. -/
def peakItems (leaf : Value → Nat) (step : Nat) : List Value → Nat
  | [] => 0
  | item :: rest => max (peak leaf step item) (peakItems leaf step rest)

/-- The greatest measure that is found among the values of fields. -/
def peakFields (leaf : Value → Nat) (step : Nat) : List (String × Value) → Nat
  | [] => 0
  | (_, value) :: rest => max (peak leaf step value) (peakFields leaf step rest)

end

/-- The number of values on the longest way down into a value. -/
def height (v : Value) : Nat := v.peak (fun _ => 1) 1

/-- The digits of an integer; anything else has none. -/
def digitsOf : Value → Nat
  | .int n => (Nat.toDigits 10 n.natAbs).length
  | _ => 0

/-- The digits of the longest integer in a value. -/
def digits (v : Value) : Nat := v.peak digitsOf 0

variable {leaf : Value → Nat} {step n : Nat}

/-- A bound for items is a bound for each of them. -/
theorem peakItems_le_iff {items : List Value} :
    peakItems leaf step items ≤ n ↔ ∀ item ∈ items, item.peak leaf step ≤ n := by
  induction items with
  | nil => simp [peakItems]
  | cons item rest ih => rw [peakItems, Nat.max_le, ih, List.forall_mem_cons]

/-- A bound for fields is a bound for each of their values. -/
theorem peakFields_le_iff {fields : Fields} :
    peakFields leaf step fields ≤ n ↔ ∀ field ∈ fields, field.2.peak leaf step ≤ n := by
  induction fields with
  | nil => simp [peakFields]
  | cons field rest ih =>
    obtain ⟨name, value⟩ := field
    rw [peakFields, Nat.max_le, ih, List.forall_mem_cons]

/-! ## Height -/

/-- Every value has a height. -/
theorem height_pos (v : Value) : 0 < v.height := by
  unfold height
  cases v <;> simp only [peak] <;> omega

/-- A list is higher than its items by one. -/
theorem height_list_le_iff {items : List Value} :
    (list items).height ≤ n + 1 ↔ ∀ item ∈ items, item.height ≤ n := by
  unfold height
  rw [peak, Nat.add_le_add_iff_right, peakItems_le_iff]

/-- An object is higher than its values by one. -/
theorem height_object_le_iff {fields : Fields} :
    (object fields).height ≤ n + 1 ↔ ∀ field ∈ fields, field.2.height ≤ n := by
  unfold height
  rw [peak, Nat.add_le_add_iff_right, peakFields_le_iff]

/-! ## Digits -/

theorem digits_list_le_iff {items : List Value} :
    (list items).digits ≤ n ↔ ∀ item ∈ items, item.digits ≤ n := by
  unfold digits
  rw [peak, Nat.add_zero, peakItems_le_iff]

theorem digits_object_le_iff {fields : Fields} :
    (object fields).digits ≤ n ↔ ∀ field ∈ fields, field.2.digits ≤ n := by
  unfold digits
  rw [peak, Nat.add_zero, peakFields_le_iff]

/-! ## Lists in lists -/

/-- The empty list in so many lists, one inside of the other. -/
def nested : Nat → Value
  | 0 => .list []
  | n + 1 => .list [nested n]

@[simp] theorem height_nested (n : Nat) : (nested n).height = n + 1 := by
  induction n with
  | zero => rfl
  | succ n ih =>
    have hstep : (nested (n + 1)).height = (nested n).height + 1 := by
      unfold height
      rw [nested, peak, peakItems, peakItems, Nat.max_zero]
    rw [hstep, ih]

end Value

end MeetDesk
