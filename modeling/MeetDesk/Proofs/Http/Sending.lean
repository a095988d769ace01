import MeetDesk.Http.App
import Mathlib.Data.List.Forall2

/-!
# What can be sent

A body is sent piece by piece: every item of a list and every field of an object has a form of its own
in it, or keeps the whole body from being sent. There is room for a body exactly if there is room for each
of its pieces a level below. What can be sent on its own can therefore be sent behind anything else that
can on the same level, and has the same form there.
-/

namespace MeetDesk

namespace Http

variable {policy : NonFinite} {levels : Nat}

/-- A value is sent if there is room for it and each of its pieces has a form. -/
theorem send?_eq_some_iff {v w : Value} :
    send? levels policy v = some w ↔ v.Fits levels ∧ encode? policy v = some w := by
  unfold send?
  by_cases h : v.Fits levels <;> simp [h]

/-! ## Texts, items and fields -/

/-- A text is sent as it is, if it has no half of a pair in it. -/
theorem encodeText?_eq_some_iff {s sent : String} :
    encodeText? s = some sent ↔ Text.isWhole s = true ∧ sent = s := by
  unfold encodeText?
  by_cases h : Text.isWhole s = true
  · simp [h, eq_comm]
  · simp [h]

theorem encode?_text_eq_some_iff {s : String} {w : Value} :
    encode? policy (.text s) = some w ↔ Text.isWhole s = true ∧ w = .text s := by
  rw [encode?, Option.map_eq_some_iff]
  constructor
  · rintro ⟨sent, hsent, rfl⟩
    obtain ⟨hwhole, rfl⟩ := encodeText?_eq_some_iff.mp hsent
    exact ⟨hwhole, rfl⟩
  · rintro ⟨hwhole, rfl⟩
    exact ⟨s, encodeText?_eq_some_iff.mpr ⟨hwhole, rfl⟩, rfl⟩

/-- The items of a list are sent one by one. -/
theorem encodeItems?_eq_some_iff {items sent : List Value} :
    encodeItems? policy items = some sent ↔
      List.Forall₂ (fun v w => encode? policy v = some w) items sent := by
  induction items generalizing sent with
  | nil => simp [encodeItems?, eq_comm]
  | cons item rest ih =>
    rw [encodeItems?, List.forall₂_cons_left_iff]
    constructor
    · intro h
      split at h
      · rename_i w ws hw hws
        obtain rfl := Option.some.inj h
        exact ⟨w, ws, hw, ih.mp hws, rfl⟩
      · cases h
    · rintro ⟨w, ws, hw, hws, rfl⟩
      rw [hw, ih.mpr hws]

/-- The fields of an object are sent one by one, each under its name. -/
theorem encodeFields?_eq_some_iff {fields sent : Fields} :
    encodeFields? policy fields = some sent ↔
      List.Forall₂ (fun f g => encodeText? f.1 = some g.1 ∧ encode? policy f.2 = some g.2) fields
        sent := by
  induction fields generalizing sent with
  | nil => simp [encodeFields?, eq_comm]
  | cons field rest ih =>
    obtain ⟨name, v⟩ := field
    rw [encodeFields?, List.forall₂_cons_left_iff]
    constructor
    · intro h
      split at h
      · rename_i n w ws hn hw hws
        obtain rfl := Option.some.inj h
        exact ⟨(n, w), ws, ⟨hn, hw⟩, ih.mp hws, rfl⟩
      · cases h
    · rintro ⟨⟨n, w⟩, ws, ⟨hn, hw⟩, hws, rfl⟩
      dsimp only at hn hw
      rw [hn, hw, ih.mpr hws]

/-! ## Objects -/

variable {fields sent : Fields}

/-- An object is sent as an object. -/
theorem encode?_object_eq_some_iff {w : Value} :
    encode? policy (.object fields) = some w ↔
      ∃ sent, encodeFields? policy fields = some sent ∧ w = .object sent := by
  rw [encode?, Option.map_eq_some_iff]
  simp only [eq_comm]

/-- A list is sent as a list. -/
theorem encode?_list_eq_some_iff {items : List Value} {w : Value} :
    encode? policy (.list items) = some w ↔
      ∃ sent, encodeItems? policy items = some sent ∧ w = .list sent := by
  rw [encode?, Option.map_eq_some_iff]
  simp only [eq_comm]

/-- The first of the fields is sent, and the rest. -/
theorem encodeFields?_cons_eq_some_iff {name : String} {v : Value} :
    encodeFields? policy ((name, v) :: fields) = some sent ↔
      Text.isWhole name = true ∧ ∃ w rest, encode? policy v = some w ∧
        encodeFields? policy fields = some rest ∧ sent = (name, w) :: rest := by
  rw [encodeFields?_eq_some_iff, List.forall₂_cons_left_iff]
  constructor
  · rintro ⟨⟨n, w⟩, rest, ⟨hn, hw⟩, hrest, rfl⟩
    obtain ⟨hwhole, rfl⟩ := encodeText?_eq_some_iff.mp hn
    exact ⟨hwhole, w, rest, hw, encodeFields?_eq_some_iff.mpr hrest, rfl⟩
  · rintro ⟨hwhole, w, rest, hw, hrest, rfl⟩
    exact ⟨(name, w), rest, ⟨encodeText?_eq_some_iff.mpr ⟨hwhole, rfl⟩, hw⟩,
      encodeFields?_eq_some_iff.mp hrest, rfl⟩

/-- An object keeps the names of its fields. -/
theorem names_of_encodeFields? (h : encodeFields? policy fields = some sent) :
    Fields.names sent = Fields.names fields := by
  have hsent := encodeFields?_eq_some_iff.mp h
  induction hsent with
  | nil => rfl
  | cons hfirst hrest ih =>
    unfold Fields.names at ih ⊢
    rw [List.map_cons, List.map_cons, ih (encodeFields?_eq_some_iff.mpr hrest),
      (encodeText?_eq_some_iff.mp hfirst.1).2]

/-- A field of an object is sent under its name. -/
theorem get?_of_encodeFields? {name : String} {v : Value}
    (h : encodeFields? policy fields = some sent) (hv : Fields.get? fields name = some v) :
    ∃ w, encode? policy v = some w ∧ Fields.get? sent name = some w := by
  have hsent := encodeFields?_eq_some_iff.mp h
  unfold Fields.get? at hv ⊢
  induction hsent with
  | nil => cases hv
  | @cons f g fields sent hfirst hrest ih =>
    have hname := (encodeText?_eq_some_iff.mp hfirst.1).2
    rw [List.lookup_cons] at hv ⊢
    rw [hname]
    by_cases hself : (name == f.1) = true
    · simp only [hself] at hv ⊢
      obtain rfl := Option.some.inj hv
      exact ⟨g.2, hfirst.2, rfl⟩
    · rw [Bool.not_eq_true] at hself
      simp only [hself] at hv ⊢
      exact ih (encodeFields?_eq_some_iff.mpr hrest) hv

/-- A list keeps its length, and nothing else is sent as a list but one of fixed length. -/
theorem rows?_of_encode? {v w : Value} (h : encode? policy v = some w)
    (htuple : ∀ items, v ≠ .tuple items) :
    w.rows?.map List.length = v.rows?.map List.length := by
  cases v with
  | list items =>
    obtain ⟨sent, hsent, rfl⟩ := encode?_list_eq_some_iff.mp h
    exact congrArg some (encodeItems?_eq_some_iff.mp hsent).length_eq.symm
  | tuple items => exact absurd rfl (htuple items)
  | text s =>
    obtain ⟨-, rfl⟩ := encode?_text_eq_some_iff.mp h
    rfl
  | object fields =>
    obtain ⟨sent, -, rfl⟩ := encode?_object_eq_some_iff.mp h
    rfl
  | float x =>
    have hkind : w = .float x ∨ w = .null := by
      cases policy <;> by_cases hx : isSendable x = true <;> simp_all [encode?]
    rcases hkind with rfl | rfl <;> rfl
  | bytes b =>
    rw [encode?] at h
    obtain ⟨s, -, rfl⟩ := Option.map_eq_some_iff.mp h
    rfl
  | _ =>
    simp only [encode?, Option.some.injEq] at h
    subst h
    rfl

/-! ## Bodies with finite floats only -/

mutual

/-- What can be sent where a float that is no finite number is refused is sent the same where it is not. -/
theorem encode?_null_of_refused {v w : Value} (h : encode? .refused v = some w) :
    encode? .null v = some w := by
  cases v with
  | float x =>
    simp only [encode?] at h ⊢
    by_cases hfinite : isSendable x = true
    · rw [if_pos hfinite] at h ⊢
      exact h
    · rw [if_neg hfinite] at h
      cases h
  | list items =>
    obtain ⟨sent, hsent, rfl⟩ := encode?_list_eq_some_iff.mp h
    exact encode?_list_eq_some_iff.mpr ⟨sent, encodeItems?_null_of_refused hsent, rfl⟩
  | tuple items =>
    rw [encode?, Option.map_eq_some_iff] at h ⊢
    obtain ⟨sent, hsent, rfl⟩ := h
    exact ⟨sent, encodeItems?_null_of_refused hsent, rfl⟩
  | object fields =>
    obtain ⟨sent, hsent, rfl⟩ := encode?_object_eq_some_iff.mp h
    exact encode?_object_eq_some_iff.mpr ⟨sent, encodeFields?_null_of_refused hsent, rfl⟩
  | _ =>
    simp only [encode?] at h ⊢
    exact h

theorem encodeItems?_null_of_refused {items sent : List Value}
    (h : encodeItems? .refused items = some sent) : encodeItems? .null items = some sent := by
  cases items with
  | nil => exact h
  | cons item rest =>
    obtain ⟨w, ws, hw, hws, rfl⟩ := List.forall₂_cons_left_iff.mp (encodeItems?_eq_some_iff.mp h)
    have hrest := encodeItems?_null_of_refused (encodeItems?_eq_some_iff.mpr hws)
    exact encodeItems?_eq_some_iff.mpr
      (.cons (encode?_null_of_refused hw) (encodeItems?_eq_some_iff.mp hrest))

theorem encodeFields?_null_of_refused {fields sent : List (String × Value)}
    (h : encodeFields? .refused fields = some sent) : encodeFields? .null fields = some sent := by
  cases fields with
  | nil => exact h
  | cons field rest =>
    obtain ⟨name, v⟩ := field
    obtain ⟨hname, w, ws, hw, hws, rfl⟩ := encodeFields?_cons_eq_some_iff.mp h
    exact encodeFields?_cons_eq_some_iff.mpr
      ⟨hname, w, ws, encode?_null_of_refused hw, encodeFields?_null_of_refused hws, rfl⟩

end

/-- What can be sent where only finite floats are is sent the same where all are. -/
theorem send?_null_of_refused {v w : Value} (h : send? levels .refused v = some w) :
    send? levels .null v = some w := by
  obtain ⟨hfits, hsent⟩ := send?_eq_some_iff.mp h
  exact send?_eq_some_iff.mpr ⟨hfits, encode?_null_of_refused hsent⟩

end Http

end MeetDesk
