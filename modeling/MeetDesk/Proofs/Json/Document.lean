import MeetDesk.Proofs.Json.Carried
import MeetDesk.Proofs.Json.Line

/-!
# Documents that start with an object

An object that was written is read where it stands, and as a document if nothing but blanks follows it.
What does not start with a brace is read as something else, if it is read at all.
-/

namespace MeetDesk.Json

/-! ## Values that are no objects -/

theorem readItems_not_object {element : List Char → Scan Value} {rounds : Nat} {s rest : List Char}
    {done : List Value} {v : Value} (h : readItems element rounds s done = .ok (v, rest)) :
    ∀ fields, v ≠ .object fields := by
  induction rounds generalizing s done with
  | zero => cases h
  | succ rounds ih =>
    unfold readItems at h
    split at h
    · cases h
    · split at h
      · obtain ⟨rfl, -⟩ := Prod.mk.inj (Except.ok.inj h)
        intro fields heq
        cases heq
      · exact ih h
      · cases h

theorem scanNumber_not_object {s rest : List Char} {v : Value}
    (h : scanNumber s = .ok (v, rest)) : ∀ fields, v ≠ .object fields := by
  unfold scanNumber at h
  split at h
  · cases h
  · dsimp only at h
    split at h
    · cases h
    · rename_i value hvalue
      obtain ⟨rfl, -⟩ := Prod.mk.inj (Except.ok.inj h)
      unfold assemble at hvalue
      split at hvalue
      · split at hvalue
        · cases hvalue
        · obtain rfl := Except.ok.inj hvalue
          intro fields heq
          cases heq
      · obtain rfl := Except.ok.inj hvalue
        intro fields heq
        cases heq

theorem readScalar_not_object {s rest : List Char} {v : Value}
    (h : readScalar s = .ok (v, rest)) : ∀ fields, v ≠ .object fields := by
  rcases readScalar_cases h with ⟨tail, t, -, -, rfl⟩ | ⟨word, hword, -, rfl⟩ | hnumber
  · intro fields heq
    cases heq
  · have hscalar : ∀ word ∈ words, ∀ fields, word.2 ≠ .object fields := by
      simp [words]
    exact hscalar word hword
  · exact scanNumber_not_object hnumber

/-- What does not start with a brace is no object. -/
theorem readValue_not_object {rounds depth : Nat} {c : Char} {s rest : List Char} {v : Value}
    (hc : c ≠ '\x7b') (h : readValue rounds depth (c :: s) = .ok (v, rest)) :
    ∀ fields, v ≠ .object fields := by
  by_cases hlist : c = '['
  · subst hlist
    cases depth with
    | zero => cases h
    | succ depth =>
      change readList _ _ _ = _ at h
      unfold readList at h
      split at h
      · obtain ⟨rfl, -⟩ := Prod.mk.inj (Except.ok.inj h)
        intro fields heq
        cases heq
      · exact readItems_not_object h
  · rw [readValue_eq_readScalar hlist hc] at h
    exact readScalar_not_object h

/-! ## Objects that were written -/

theorem readFront_object {fields : Fields} (h : Plain (.object fields)) (levels : Nat) {rounds : Nat}
    (hrounds : (render (.object fields)).length ≤ rounds) (rest : List Char) :
    readFront levels rounds (render (.object fields) ++ rest) = .ok (.object fields, rest) ∨
      ∃ limit, readFront levels rounds (render (.object fields) ++ rest) = .error (.beyond limit) := by
  have hread : Reads (fun _ => True) (readFront levels rounds) (render (.object fields) ++ rest)
      (.object fields) rest :=
    reads_render (h.legible levels) hrounds (by rintro ⟨n, hn⟩; cases hn)
  rcases hread with hok | ⟨limit, -, hbeyond⟩
  · exact Or.inl hok
  · exact Or.inr ⟨limit, hbeyond⟩

theorem render_object_head (fields : Fields) : ∃ s, render (.object fields) = '\x7b' :: s :=
  ⟨_, render_object fields⟩

/-- A document that starts with an object is the object, if nothing but blanks follows. -/
theorem read_object_append {fields : Fields} (h : Plain (.object fields)) (levels : Nat)
    (rest : List Char) :
    (∃ limit, read levels (render (.object fields) ++ rest) = .error (.beyond limit)) ∨
      read levels (render (.object fields) ++ rest) =
        match skipGaps rest with
        | [] => .ok (.object fields)
        | extra => .error (.malformed .extraData extra) := by
  obtain ⟨s, hs⟩ := render_object_head fields
  have hdocument : read levels (render (.object fields) ++ rest) =
      readDocument levels (render (.object fields) ++ rest) := by
    rw [hs]
    rfl
  have hgap : skipGaps (render (.object fields) ++ rest) = render (.object fields) ++ rest := by
    rw [hs]
    exact skipGaps_cons (by decide) _
  have hrounds : (render (.object fields)).length ≤ (render (.object fields) ++ rest).length := by
    rw [List.length_append]
    exact Nat.le_add_right _ _
  rw [hdocument]
  unfold readDocument
  rw [hgap]
  rcases readFront_object h levels hrounds rest with hok | ⟨limit, hbeyond⟩
  · rw [hok]
    exact Or.inr rfl
  · rw [hbeyond]
    exact Or.inl ⟨limit, rfl⟩

/-- An object on its own is read. -/
theorem read_object {fields : Fields} (h : Plain (.object fields)) (levels : Nat) :
    (∃ limit, read levels (render (.object fields)) = .error (.beyond limit)) ∨
      read levels (render (.object fields)) = .ok (.object fields) := by
  have hread := read_object_append h levels []
  rw [List.append_nil] at hread
  exact hread

/-- What was written within the limits is read off the front, and nothing is left. -/
theorem readFront_render {levels : Nat} {v : Value} (h : Legible (fun _ => False) levels v) :
    readFront levels (render v).length (render v) = .ok (v, []) := by
  have hends : (∃ n, v = .int n) → EndsInteger [] := fun _ c hc => by cases hc
  rcases reads_render h (Nat.le_refl _) hends with hok | ⟨limit, hnever, -⟩
  · rw [List.append_nil] at hok
    exact hok
  · exact hnever.elim

/-- What was written within the limits is a document of its own. -/
theorem read_render {levels : Nat} {v : Value} (h : Legible (fun _ => False) levels v) :
    read levels (render v) = .ok v := by
  obtain ⟨c, s, hs, hgap, -⟩ := render_head h
  have hmark : c ≠ '\ufeff' := by
    rintro rfl
    have hline := isLine_render v '\ufeff' (by rw [hs]; exact List.mem_cons_self)
    exact absurd hline.2 (by decide)
  have hdocument : read levels (render v) = readDocument levels (render v) := by
    rw [hs]
    unfold read
    split
    · rename_i heq
      exact absurd (List.cons.inj heq).1 hmark
    · rfl
  have hskip : skipGaps (render v) = render v := by
    rw [hs]
    exact skipGaps_cons hgap s
  rw [hdocument]
  unfold readDocument
  rw [hskip, readFront_render h]
  rfl

/-- A document of digits that are too many is beyond the limit. -/
theorem read_of_digits (levels : Nat) {c : Char} {ds : List Char}
    (hdigits : ∀ d ∈ c :: ds, d.isDigit = true) (hzero : c ≠ '0')
    (hlong : maxDigits < (c :: ds).length) :
    read levels (c :: ds) = .error (.beyond (.digits (c :: ds).length)) := by
  have hc : c.isDigit = true := hdigits c List.mem_cons_self
  have hother : ∀ d : Char, d.isDigit = false → c ≠ d := by
    rintro d hd rfl
    rw [hd] at hc
    cases hc
  have hends : EndsInteger [] := fun d hd => by cases hd
  have hwhole := splitWhole?_append hdigits hzero hends
  have hminus := splitMinus_of_isDigit hc ds
  rw [← List.append_nil (c :: ds)] at hminus
  have hscan := scanNumber_of_whole hminus hwhole hends
  rw [if_pos hlong, List.append_nil] at hscan
  have hfront : readFront levels (c :: ds).length (c :: ds) = scanNumber (c :: ds) := by
    unfold readFront
    rw [readValue_eq_readScalar (hother '[' (by decide)) (hother '\x7b' (by decide)),
      readScalar_eq_scanNumber (Or.inl hc)]
  unfold read
  split
  · rename_i heq
    exact absurd (List.cons.inj heq).1 (hother '\ufeff' (by decide))
  · unfold readDocument
    rw [skipGaps_cons (isGap_of_isDigit hc).1, hfront, hscan]

end MeetDesk.Json
