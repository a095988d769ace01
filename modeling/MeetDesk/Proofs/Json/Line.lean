import MeetDesk.Proofs.Json.RoundTrip

/-!
# JSON texts stay on one line

Whatever a value holds, its JSON text is printable ASCII. It cannot end the line that it stands on.
-/

namespace MeetDesk

namespace Text

/-- Printable ASCII only, with nothing that ends a line. -/
def IsLine (s : List Char) : Prop := ∀ c ∈ s, 0x20 ≤ c.toNat ∧ c.toNat < 0x7F

instance (s : List Char) : Decidable (IsLine s) := List.decidableBAll _ s

variable {s t : List Char}

@[simp] theorem isLine_append_iff : IsLine (s ++ t) ↔ IsLine s ∧ IsLine t := List.forall_mem_append

@[simp] theorem isLine_cons_iff {c : Char} :
    IsLine (c :: s) ↔ (0x20 ≤ c.toNat ∧ c.toNat < 0x7F) ∧ IsLine s := List.forall_mem_cons

@[simp] theorem isLine_nil : IsLine [] := by
  intro c hc
  cases hc

theorem IsLine.of_subset (h : IsLine t) (hsub : s ⊆ t) : IsLine s := fun c hc => h c (hsub hc)

/-- A line has no line feed in it. -/
theorem IsLine.feed_not_mem (h : IsLine s) : '\n' ∉ s := by
  intro hmem
  have hfeed := h '\n' hmem
  exact absurd hfeed.1 (by decide)

theorem isLine_digits (n : Nat) : IsLine (Nat.toDigits 10 n) := by
  intro c hc
  have hdigit := Nat.isDigit_of_mem_toDigits (by decide) (by decide) hc
  simp only [Char.isDigit, Bool.and_eq_true, decide_eq_true_eq] at hdigit
  have hlow : 48 ≤ c.val.toNat := hdigit.1
  have hhigh : c.val.toNat ≤ 57 := hdigit.2
  show 0x20 ≤ c.val.toNat ∧ c.val.toNat < 0x7F
  omega

end Text

open Text

/-! ## Numbers -/

namespace Decimal

theorem isLine_zeros (n : Nat) : IsLine (zeros n).toList := by
  rw [zeros, String.toList_ofList]
  intro c hc
  obtain rfl := List.eq_of_mem_replicate hc
  decide

theorem isLine_padded (width n : Nat) : IsLine (padded width n).toList := by
  have hdigits : IsLine (toString n).toList := by
    show IsLine (Nat.repr n).toList
    rw [Nat.toList_repr]
    exact isLine_digits n
  unfold padded
  rw [String.toList_append]
  exact isLine_append_iff.mpr ⟨isLine_zeros _, hdigits⟩

theorem isLine_positional (d : Digits) : IsLine (json.positional d).toList := by
  have hdigits := isLine_digits d.digits
  have htake := fun n => hdigits.of_subset (List.take_subset n _)
  have hdrop := fun n => hdigits.of_subset (List.drop_subset n _)
  have hmark : IsLine json.wholeMark.toList := by decide
  unfold Layout.positional
  dsimp only
  split
  · simp only [String.toList_append, String.toList_ofList, isLine_append_iff]
    exact ⟨⟨hdigits, isLine_zeros _⟩, hmark⟩
  · split
    · simp only [String.toList_append, String.toList_ofList, isLine_append_iff]
      exact ⟨⟨htake _, by decide⟩, hdrop _⟩
    · simp only [String.toList_append, String.toList_ofList, isLine_append_iff]
      exact ⟨⟨by decide, isLine_zeros _⟩, hdigits⟩

theorem isLine_scientific (d : Digits) : IsLine (json.scientific d).toList := by
  have hdigits := isLine_digits d.digits
  have htake := fun n => hdigits.of_subset (List.take_subset n _)
  have hdrop := fun n => hdigits.of_subset (List.drop_subset n _)
  have hmark : IsLine json.exponentMark.toList := by decide
  unfold Layout.scientific
  dsimp only
  simp only [String.toList_append, String.toList_ofList, isLine_append_iff]
  refine ⟨⟨⟨⟨htake 1, ?_⟩, hmark⟩, ?_⟩, isLine_padded _ _⟩
  · split
    · exact isLine_nil
    · simp only [String.toList_append, String.toList_ofList, isLine_append_iff]
      exact ⟨by decide, hdrop 1⟩
  · split <;> decide

/-- A float is written on one line. -/
theorem isLine_float (x : Float) : IsLine (json.render x).toList := by
  have hsign : ∀ (negative : Bool) {body : String}, IsLine body.toList →
      IsLine (if negative then "-" ++ body else body).toList := by
    intro negative body hbody
    cases negative with
    | false => exact hbody
    | true =>
      show IsLine ("-" ++ body).toList
      rw [String.toList_append]
      exact isLine_append_iff.mpr ⟨by decide, hbody⟩
  unfold Layout.render
  split
  · decide
  · exact hsign _ (by decide)
  · refine hsign _ ?_
    split
    · decide
    · unfold Layout.number
      dsimp only
      split
      · exact isLine_positional _
      · exact isLine_scientific _

end Decimal

namespace Json

/-- An integer is written on one line. -/
theorem isLine_int (n : Int) : IsLine (toString n).toList := by
  cases n with
  | ofNat n =>
    rw [toList_ofNat]
    exact isLine_digits n
  | negSucc n =>
    rw [toList_negSucc]
    exact isLine_cons_iff.mpr ⟨by decide, isLine_digits _⟩

/-! ## Strings -/

theorem isLine_unitEscape (n : Nat) : IsLine (unitEscape n) := by
  have hdigit : ∀ d < 16, 0x20 ≤ (hexDigit d).toNat ∧ (hexDigit d).toNat < 0x7F := by decide
  have hlast : ∀ m, 0x20 ≤ (hexDigit (m % 16)).toNat ∧ (hexDigit (m % 16)).toNat < 0x7F :=
    fun m => hdigit _ (Nat.mod_lt _ (by decide))
  rw [unitEscape, hex_four]
  simp only [isLine_cons_iff]
  exact ⟨by decide, by decide, hlast _, hlast _, hlast _, hlast _, isLine_nil⟩

/-- An escape is written on one line. -/
theorem isLine_escape {n : Nat} {form : List Char} (h : EscapeForm n form) : IsLine form := by
  cases h with
  | @letter e c hescaped =>
    have he : 0x20 ≤ e.toNat ∧ e.toNat < 0x7F := by
      unfold escaped? at hescaped
      split at hescaped <;> first | decide | cases hescaped
    simp only [isLine_cons_iff]
    exact ⟨by decide, he, isLine_nil⟩
  | char _ _ hlow hhigh => exact isLine_cons_iff.mpr ⟨⟨hlow, hhigh⟩, isLine_nil⟩
  | unit => exact isLine_unitEscape n
  | pair => exact isLine_append_iff.mpr ⟨isLine_unitEscape _, isLine_unitEscape _⟩

/-- A string is written on one line, whatever it holds. -/
theorem isLine_string (s : String) : IsLine (string s) := by
  have hcodes : IsLine ((codes s.toList).flatMap escapeCode) := by
    intro c hc
    obtain ⟨n, hn, hc⟩ := List.mem_flatMap.mp hc
    exact isLine_escape (escapeForm_code (isCode_of_mem_codes s.toList n hn)) c hc
  rw [string, isLine_append_iff, isLine_cons_iff]
  exact ⟨⟨by decide, hcodes⟩, by decide⟩

/-! ## All values -/

theorem isLine_commaSeparated {pieces : List (List Char)} (h : ∀ piece ∈ pieces, IsLine piece) :
    IsLine (commaSeparated pieces) := by
  induction pieces with
  | nil => exact isLine_nil
  | cons piece pieces ih =>
    obtain ⟨hpiece, hpieces⟩ := List.forall_mem_cons.mp h
    by_cases hnil : pieces = []
    · subst hnil
      exact hpiece
    · rw [commaSeparated_cons _ hnil]
      simp only [isLine_append_iff, isLine_cons_iff]
      exact ⟨hpiece, by decide, by decide, ih hpieces⟩

/-- What stands between two marks is a line if its pieces are. -/
theorem isLine_between {a b : Char} {pieces : List (List Char)} (ha : 0x20 ≤ a.toNat ∧ a.toNat < 0x7F)
    (hb : 0x20 ≤ b.toNat ∧ b.toNat < 0x7F) (h : ∀ piece ∈ pieces, IsLine piece) :
    IsLine (a :: commaSeparated pieces ++ [b]) := by
  rw [isLine_append_iff, isLine_cons_iff, isLine_cons_iff]
  exact ⟨⟨ha, isLine_commaSeparated h⟩, hb, isLine_nil⟩

mutual

/-- The JSON text of any value stands on one line. -/
theorem isLine_render (v : Value) : IsLine (render v) := by
  cases v with
  | null =>
    rw [render]
    decide
  | bool b =>
    rw [render]
    cases b <;> decide
  | int n =>
    rw [render]
    exact isLine_int n
  | float x =>
    rw [render]
    exact Decimal.isLine_float x
  | text | participant | date | moment | decimal | uuid | bytes =>
    rw [render]
    exact isLine_string _
  | list items | tuple items =>
    rw [render]
    exact isLine_between (by decide) (by decide) (isLine_renderItems items)
  | object fields =>
    rw [render]
    exact isLine_between (by decide) (by decide) (isLine_renderFields fields)

theorem isLine_renderItems (items : List Value) : ∀ piece ∈ renderItems items, IsLine piece := by
  cases items with
  | nil => simp [renderItems]
  | cons item rest =>
    rw [renderItems, List.forall_mem_cons]
    exact ⟨isLine_render item, isLine_renderItems rest⟩

theorem isLine_renderFields (fields : List (String × Value)) :
    ∀ piece ∈ renderFields fields, IsLine piece := by
  cases fields with
  | nil => simp [renderFields]
  | cons field rest =>
    obtain ⟨name, value⟩ := field
    rw [renderFields, List.forall_mem_cons]
    refine ⟨?_, isLine_renderFields rest⟩
    rw [isLine_append_iff, isLine_cons_iff, isLine_cons_iff]
    exact ⟨isLine_string name, by decide, by decide, isLine_render value⟩

end

end Json

end MeetDesk
