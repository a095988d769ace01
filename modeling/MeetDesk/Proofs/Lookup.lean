import Mathlib.Data.List.Basic

/-!
# Looking up in a list of pairs

What taking out the pairs with one key does to the look-up of another.
-/

namespace MeetDesk

variable {α β : Type} [BEq α] [LawfulBEq α] {l : List (α × β)} {key other : α}

theorem lookup_filter_ne (l : List (α × β)) (hne : other ≠ key) :
    (l.filter fun entry => entry.1 != key).lookup other = l.lookup other := by
  induction l with
  | nil => rfl
  | cons entry rest ih =>
    by_cases hkey : entry.1 = key
    · have hother : (other == entry.1) = false := by
        rw [hkey]
        simpa using hne
      rw [List.filter_cons_of_neg (by simpa using hkey), List.lookup_cons, hother, ih]
    · rw [List.filter_cons_of_pos (by simpa using hkey), List.lookup_cons, List.lookup_cons, ih]

theorem lookup_eq_none (h : ∀ entry ∈ l, entry.1 ≠ key) : l.lookup key = none := by
  rw [List.lookup_eq_none_iff]
  intro entry hentry
  rw [bne_iff_ne]
  exact (h entry hentry).symm

theorem ne_of_mem_filter {entry : α × β} (h : entry ∈ l.filter fun entry => entry.1 != key) :
    entry.1 ≠ key :=
  bne_iff_ne.mp (List.mem_filter.mp h).2

end MeetDesk
