import MeetDesk.Json.Reader
import MeetDesk.Proofs.Json.Escape
import MeetDesk.Proofs.Json.Integer
import MeetDesk.Value.Extent

/-!
# What is written is read back

A value that JSON has a form for is read back from its text, whatever follows the text. The values in
question are `Legible`: their texts are plain, their objects have each name once, and their nesting and
their integers stay within the limits of the reader, or else the limits are allowed to be exceeded.
-/

namespace MeetDesk.Json

open Text (IsPlain)

/-- The values that are read back with `depth` levels of nesting left, unless a limit is exceeded that
may be exceeded. -/
inductive Legible (allow : Limit → Prop) : (depth : Nat) → Value → Prop
  | null {depth : Nat} : Legible allow depth .null
  | bool {depth : Nat} (b : Bool) : Legible allow depth (.bool b)
  | int {depth : Nat} {n : Int} (digits : DigitsAllowed allow n.natAbs) :
      Legible allow depth (.int n)
  | text {depth : Nat} {s : String} (plain : IsPlain s.toList) : Legible allow depth (.text s)
  | deepList {items : List Value} (deep : allow .depth) : Legible allow 0 (.list items)
  | deepObject {fields : Fields} (deep : allow .depth) : Legible allow 0 (.object fields)
  | list {depth : Nat} {items : List Value} (each : ∀ v ∈ items, Legible allow depth v) :
      Legible allow (depth + 1) (.list items)
  | object {depth : Nat} {fields : Fields} (distinct : fields.names.Nodup)
      (plain : ∀ field ∈ fields, IsPlain field.1.toList)
      (each : ∀ field ∈ fields, Legible allow depth field.2) :
      Legible allow (depth + 1) (.object fields)

variable {allow : Limit → Prop}

/-! ## The texts of values -/

-- They hold by definition. The equations of `render` are slow to derive, as they unfold its texts.
theorem render_null : render .null = ['n', 'u', 'l', 'l'] := rfl

theorem render_true : render (.bool true) = ['t', 'r', 'u', 'e'] := rfl

theorem render_false : render (.bool false) = ['f', 'a', 'l', 's', 'e'] := rfl

/-- An integer is written in decimal digits. -/
theorem render_int (n : Int) : render (.int n) = (toString n).toList := rfl

/-- A text is written as a string. -/
theorem render_text (s : String) : render (.text s) = string s := rfl

/-- A list is written between brackets, with commas between its items. -/
theorem render_list (items : List Value) :
    render (.list items) = '[' :: commaSeparated (renderItems items) ++ [']'] := rfl

/-- An object is written between braces, with commas between its fields. -/
theorem render_object (fields : Fields) :
    render (.object fields) = '\x7b' :: commaSeparated (renderFields fields) ++ ['\x7d'] := rfl

/-! ## Blanks and the fronts of texts -/

/-- What is no gap is not skipped. -/
theorem skipGaps_cons {c : Char} (h : isGap c = false) (s : List Char) :
    skipGaps (c :: s) = c :: s := by
  simp [skipGaps, h]

theorem skipGaps_space (s : List Char) : skipGaps (' ' :: s) = skipGaps s := by
  simp [skipGaps, isGap]

theorem isGap_of_isDigit {c : Char} (h : c.isDigit = true) : isGap c = false ∧ c ≠ ']' := by
  constructor
  · simp only [isGap, Bool.or_eq_false_iff, beq_eq_false_iff_ne]
    refine ⟨⟨⟨?_, ?_⟩, ?_⟩, ?_⟩ <;> (rintro rfl; cases h)
  · rintro rfl
    cases h

/-- The text of a value starts with no blank and ends no list. -/
theorem render_head {depth : Nat} {v : Value} (h : Legible allow depth v) :
    ∃ c s, render v = c :: s ∧ isGap c = false ∧ c ≠ ']' := by
  cases h with
  | null => exact ⟨'n', _, render_null, by decide, by decide⟩
  | bool b =>
    cases b with
    | true => exact ⟨'t', _, render_true, by decide, by decide⟩
    | false => exact ⟨'f', _, render_false, by decide, by decide⟩
  | @int _ n =>
    obtain ⟨c, s, hs, hc⟩ := toList_int_head n
    refine ⟨c, s, by rw [render_int, hs], ?_⟩
    rcases hc with hc | ⟨rfl, -⟩
    · exact isGap_of_isDigit hc
    · decide
  | text => exact ⟨'"', _, render_text _, by decide, by decide⟩
  | deepList | list => exact ⟨'[', _, render_list _, by decide, by decide⟩
  | deepObject | object => exact ⟨'\x7b', _, render_object _, by decide, by decide⟩

/-! ## Items and fields -/

theorem endsInteger_cons {c : Char} (h : continuesInteger c = false) (s : List Char) :
    EndsInteger (c :: s) := by
  intro d hd
  cases hd
  exact h

/-- A comma and a blank stand behind every piece but the last. -/
theorem commaSeparated_cons (piece : List Char) {pieces : List (List Char)} (h : pieces ≠ []) :
    commaSeparated (piece :: pieces) = piece ++ ',' :: ' ' :: commaSeparated pieces := by
  cases pieces with
  | nil => exact absurd rfl h
  | cons next pieces => rfl

/-- Nothing is skipped in front of pieces that start with no gap. -/
theorem skipGaps_commaSeparated {c : Char} (h : isGap c = false) (s : List Char)
    (pieces : List (List Char)) (rest : List Char) :
    skipGaps (commaSeparated ((c :: s) :: pieces) ++ rest) =
      commaSeparated ((c :: s) :: pieces) ++ rest := by
  cases pieces with
  | nil => exact skipGaps_cons h _
  | cons next pieces => exact skipGaps_cons h _

/-- Whoever reads the items of a list reads the list. -/
theorem reads_readItems {element : List Char → Scan Value} {items : List Value} (hne : items ≠ [])
    (hread : ∀ v ∈ items, ∀ rest, EndsInteger rest → Reads allow element (render v ++ rest) v rest)
    (hhead : ∀ v ∈ items, ∃ c s, render v = c :: s ∧ isGap c = false ∧ c ≠ ']')
    {rounds : Nat} (hrounds : items.length ≤ rounds) (done : List Value) (rest : List Char) :
    Reads allow (fun s => readItems element rounds s done)
      (commaSeparated (renderItems items) ++ ']' :: rest) (.list (done.reverse ++ items)) rest := by
  induction items generalizing rounds done with
  | nil => exact absurd rfl hne
  | cons v items ih =>
    obtain ⟨hv, hread'⟩ := List.forall_mem_cons.mp hread
    obtain ⟨-, hhead'⟩ := List.forall_mem_cons.mp hhead
    obtain ⟨rounds, rfl⟩ : ∃ n, rounds = n + 1 := ⟨rounds - 1, by simp at hrounds; omega⟩
    unfold Reads
    dsimp only
    unfold readItems
    cases items with
    | nil =>
      have htext : commaSeparated (renderItems [v]) ++ ']' :: rest = render v ++ ']' :: rest := rfl
      rw [htext]
      rcases hv (']' :: rest) (endsInteger_cons (by decide) rest) with
        hok | ⟨limit, hallow, hbeyond⟩
      · left
        rw [hok]
        simp [skipGaps_cons (show isGap ']' = false by decide)]
      · right
        exact ⟨limit, hallow, by rw [hbeyond]⟩
    | cons w more =>
      obtain ⟨c, s, hs, hc, -⟩ := hhead' w List.mem_cons_self
      have htext : commaSeparated (renderItems (v :: w :: more)) ++ ']' :: rest =
          render v ++ ',' :: ' ' :: (commaSeparated (renderItems (w :: more)) ++ ']' :: rest) := by
        rw [renderItems, commaSeparated_cons _ (by simp [renderItems]), List.append_assoc]
        rfl
      rw [htext]
      rcases hv (',' :: ' ' :: (commaSeparated (renderItems (w :: more)) ++ ']' :: rest))
        (endsInteger_cons (by decide) _) with hok | ⟨limit, hallow, hbeyond⟩
      · have hnext := ih (by simp) hread' hhead' (Nat.le_of_succ_le_succ hrounds) (v :: done)
        rw [List.reverse_cons, List.append_assoc] at hnext
        rw [hok]
        simp only [skipGaps_cons (show isGap ',' = false by decide), skipGaps_space]
        rw [renderItems, hs, skipGaps_commaSeparated hc]
        rw [renderItems, hs] at hnext
        exact hnext
      · right
        exact ⟨limit, hallow, by rw [hbeyond]⟩

/-- A new name goes to the end. -/
theorem put_of_not_mem {fields : Fields} {name : String} (value : Value)
    (h : name ∉ fields.names) : fields.put name value = fields ++ [(name, value)] := by
  induction fields with
  | nil => rfl
  | cons field fields ih =>
    obtain ⟨n, v⟩ := field
    obtain ⟨hn, hrest⟩ := List.ne_and_not_mem_of_not_mem_cons h
    rw [Fields.put, if_neg (Ne.symm hn), ih hrest, List.cons_append]

/-- What is read where a field stands: its name, then its value. -/
theorem readFields_field {element : List Char → Scan Value} {name : String} {c : Char}
    {s : List Char} (hname : IsPlain name.toList) (hc : isGap c = false) (rounds : Nat)
    (done : Fields) :
    readFields element (rounds + 1) (string name ++ ':' :: ' ' :: c :: s) done =
      match element (c :: s) with
      | .error e => .error e
      | .ok (value, rest) =>
        match skipGaps rest with
        | '\x7d' :: left => .ok (.object (done.put name value), left)
        | ',' :: more => readFields element rounds (skipGaps more) (done.put name value)
        | other => .error (.malformed .commaExpected other) := by
  obtain ⟨tail, htail, hscan⟩ := scanString_string hname (string name ++ ':' :: ' ' :: c :: s)
    (':' :: ' ' :: c :: s)
  have hcolon : skipGaps (':' :: ' ' :: c :: s) = ':' :: ' ' :: c :: s :=
    skipGaps_cons (by decide) _
  have hvalue : skipGaps (' ' :: c :: s) = c :: s := by
    rw [skipGaps_space, skipGaps_cons hc]
  rw [htail] at hscan ⊢
  rw [readFields.eq_2, hscan]
  dsimp only
  rw [hcolon]
  show (match element (skipGaps (' ' :: c :: s)) with | .error e => _ | .ok (value, rest) => _) = _
  rewrite [hvalue]
  rfl

/-- Whoever reads the values of the fields of an object reads the object. -/
theorem reads_readFields {element : List Char → Scan Value} {fields : Fields} (hne : fields ≠ [])
    (hplain : ∀ field ∈ fields, IsPlain field.1.toList)
    (hread : ∀ field ∈ fields, ∀ rest, EndsInteger rest →
      Reads allow element (render field.2 ++ rest) field.2 rest)
    (hhead : ∀ field ∈ fields, ∃ c s, render field.2 = c :: s ∧ isGap c = false ∧ c ≠ ']')
    {rounds : Nat} (hrounds : fields.length ≤ rounds) {done : Fields}
    (hdistinct : (Fields.names (done ++ fields)).Nodup) (rest : List Char) :
    Reads allow (fun s => readFields element rounds s done)
      (commaSeparated (renderFields fields) ++ '\x7d' :: rest) (.object (done ++ fields)) rest := by
  induction fields generalizing rounds done with
  | nil => exact absurd rfl hne
  | cons field fields ih =>
    obtain ⟨name, v⟩ := field
    obtain ⟨hname, hplain'⟩ := List.forall_mem_cons.mp hplain
    obtain ⟨hv, hread'⟩ := List.forall_mem_cons.mp hread
    obtain ⟨⟨c, s, hs, hc, -⟩, hhead'⟩ := List.forall_mem_cons.mp hhead
    obtain ⟨rounds, rfl⟩ : ∃ n, rounds = n + 1 := ⟨rounds - 1, by simp at hrounds; omega⟩
    dsimp only at hname hv hs
    rw [hs] at hv
    have hput : done.put name v = done ++ [(name, v)] := by
      refine put_of_not_mem v fun hmem => ?_
      rw [Fields.names, List.map_append, List.nodup_append] at hdistinct
      exact hdistinct.2.2 name hmem name (by simp) rfl
    unfold Reads
    dsimp only
    cases fields with
    | nil =>
      have htext : commaSeparated (renderFields [(name, v)]) ++ '\x7d' :: rest =
          string name ++ ':' :: ' ' :: c :: (s ++ '\x7d' :: rest) := by
        simp [renderFields, commaSeparated, hs]
      rw [htext, readFields_field hname hc]
      rcases hv ('\x7d' :: rest) (endsInteger_cons (by decide) rest) with
        hok | ⟨limit, hallow, hbeyond⟩
      · left
        rw [List.cons_append] at hok
        rw [hok]
        simp [skipGaps_cons (show isGap '\x7d' = false by decide), hput]
      · right
        rw [List.cons_append] at hbeyond
        exact ⟨limit, hallow, by rw [hbeyond]⟩
    | cons next more =>
      have hgap : skipGaps (commaSeparated (renderFields (next :: more)) ++ '\x7d' :: rest) =
          commaSeparated (renderFields (next :: more)) ++ '\x7d' :: rest := by
        rw [renderFields, string]
        exact skipGaps_commaSeparated (by decide) _ _ _
      have htext : commaSeparated (renderFields ((name, v) :: next :: more)) ++ '\x7d' :: rest =
          string name ++ ':' :: ' ' :: c :: (s ++ ',' :: ' ' ::
            (commaSeparated (renderFields (next :: more)) ++ '\x7d' :: rest)) := by
        rw [renderFields, commaSeparated_cons _ (by simp [renderFields]), hs]
        simp
      have hassoc : done ++ [(name, v)] ++ next :: more = done ++ (name, v) :: next :: more := by
        simp
      have hnext := ih (by simp) hplain' hread' hhead' (Nat.le_of_succ_le_succ hrounds)
        (hassoc ▸ hdistinct)
      rw [hassoc] at hnext
      rw [htext, readFields_field hname hc]
      generalize commaSeparated (renderFields (next :: more)) ++ '\x7d' :: rest = after
        at hgap hnext ⊢
      rcases hv (',' :: ' ' :: after) (endsInteger_cons (by decide) _) with
        hok | ⟨limit, hallow, hbeyond⟩
      · rw [List.cons_append] at hok
        rw [hok]
        simp only [skipGaps_cons (show isGap ',' = false by decide), skipGaps_space, hgap, hput]
        exact hnext
      · right
        rw [List.cons_append] at hbeyond
        exact ⟨limit, hallow, by rw [hbeyond]⟩

/-! ## Scalars -/

/-- What starts with neither a bracket nor a brace is read as a scalar. -/
theorem readValue_eq_readScalar {c : Char} (hlist : c ≠ '[') (hobject : c ≠ '\x7b')
    (rounds depth : Nat) (s : List Char) :
    readValue rounds depth (c :: s) = readScalar (c :: s) := by
  cases depth with
  | zero =>
    unfold readValue
    split
    · rename_i heq
      exact absurd (List.cons.inj heq).1 hlist
    · rename_i heq
      exact absurd (List.cons.inj heq).1 hobject
    · rfl
  | succ depth =>
    unfold readValue
    split
    · rename_i heq
      exact absurd (List.cons.inj heq).1 hlist
    · rename_i heq
      exact absurd (List.cons.inj heq).1 hobject
    · rfl

/-- What starts like an integer is read as a number. -/
theorem readScalar_eq_scanNumber {c : Char} {s : List Char}
    (h : c.isDigit = true ∨ c = '-' ∧ ∃ d t, s = d :: t ∧ d.isDigit = true) :
    readScalar (c :: s) = scanNumber (c :: s) := by
  have hother : ∀ d : Char, d.isDigit = false → d ≠ '-' → c ≠ d := by
    rintro d hd hminus rfl
    rcases h with h | ⟨h, -⟩
    · rw [hd] at h
      cases h
    · exact hminus h
  have hminus : ∀ t, c :: s ≠ '-' :: 'I' :: t := by
    intro t heq
    obtain ⟨rfl, rfl⟩ := List.cons.inj heq
    rcases h with h | ⟨-, d, t', ht, hd⟩
    · cases h
    · obtain ⟨rfl, -⟩ := List.cons.inj ht
      cases hd
  apply readScalar.eq_8
  · intro t heq
    exact hother '"' (by decide) (by decide) (List.cons.inj heq).1
  · intro t heq
    exact hother 'n' (by decide) (by decide) (List.cons.inj heq).1
  · intro t heq
    exact hother 't' (by decide) (by decide) (List.cons.inj heq).1
  · intro t heq
    exact hother 'f' (by decide) (by decide) (List.cons.inj heq).1
  · intro t heq
    exact hother 'N' (by decide) (by decide) (List.cons.inj heq).1
  · intro t heq
    exact hother 'I' (by decide) (by decide) (List.cons.inj heq).1
  · intro t heq
    exact hminus _ heq

/-- A plain text is read back as the text that it is. -/
theorem readScalar_string {s : String} (h : IsPlain s.toList) (rest : List Char) :
    readScalar (string s ++ rest) = .ok (.text s, rest) := by
  obtain ⟨tail, htail, hscan⟩ := scanString_string h (string s ++ rest) rest
  rw [htail] at hscan ⊢
  rw [readScalar.eq_1, hscan]

/-- An integer is read as a number. -/
theorem readValue_int (n : Int) (rounds depth : Nat) (rest : List Char) :
    readValue rounds depth ((toString n).toList ++ rest) =
      scanNumber ((toString n).toList ++ rest) := by
  obtain ⟨c, s, hs, hc⟩ := toList_int_head n
  have hbracket : c ≠ '[' ∧ c ≠ '\x7b' := by
    constructor <;> (rintro rfl; rcases hc with hc | ⟨hc, -⟩ <;> cases hc)
  rw [hs, List.cons_append, readValue_eq_readScalar hbracket.1 hbracket.2, readScalar_eq_scanNumber]
  rcases hc with hc | ⟨hc, d, t, ht, hd⟩
  · exact Or.inl hc
  · exact Or.inr ⟨hc, d, t ++ rest, by rw [ht, List.cons_append], hd⟩

/-! ## All values -/

theorem length_le_commaSeparated {pieces : List (List Char)} {piece : List Char}
    (h : piece ∈ pieces) : piece.length ≤ (commaSeparated pieces).length := by
  induction pieces with
  | nil => cases h
  | cons first pieces ih =>
    by_cases hnil : pieces = []
    · subst hnil
      obtain rfl := List.mem_singleton.mp h
      exact Nat.le_refl _
    · rw [commaSeparated_cons _ hnil, List.length_append]
      rcases List.mem_cons.mp h with rfl | h
      · exact Nat.le_add_right _ _
      · have hle := ih h
        simp only [List.length_cons]
        omega

/-- There is at most one piece more than there are characters. -/
theorem count_le_commaSeparated (pieces : List (List Char)) :
    pieces.length ≤ (commaSeparated pieces).length + 1 := by
  induction pieces with
  | nil => exact Nat.zero_le _
  | cons first pieces ih =>
    by_cases hnil : pieces = []
    · subst hnil
      exact Nat.le_add_left _ _
    · rw [commaSeparated_cons _ hnil, List.length_append]
      simp only [List.length_cons]
      omega

theorem renderItems_eq_map (items : List Value) : renderItems items = items.map render := by
  induction items with
  | nil => simp [renderItems]
  | cons v items ih => simp [renderItems, ih]

theorem renderFields_eq_map (fields : Fields) :
    renderFields fields = fields.map fun field => string field.1 ++ ':' :: ' ' :: render field.2 := by
  induction fields with
  | nil => simp [renderFields]
  | cons field fields ih =>
    obtain ⟨name, v⟩ := field
    simp [renderFields, ih]

/-- A list of pieces is long enough for their number and for each of them. -/
theorem commaSeparated_bounds {α : Type} {piece : α → List Char} {xs : List α} {rounds : Nat}
    (h : (commaSeparated (xs.map piece)).length + 2 ≤ rounds) :
    xs.length ≤ rounds ∧ ∀ x ∈ xs, (piece x).length ≤ rounds := by
  have hcount := count_le_commaSeparated (xs.map piece)
  rw [List.length_map] at hcount
  refine ⟨by omega, fun x hx => ?_⟩
  have hmem : piece x ∈ xs.map piece := List.mem_map_of_mem hx
  have hle := length_le_commaSeparated hmem
  omega

/-- The rounds that are enough for a list are enough for its items, and for their number. -/
theorem length_items {items : List Value} {rounds : Nat}
    (h : (render (.list items)).length ≤ rounds) :
    items.length ≤ rounds ∧ ∀ v ∈ items, (render v).length ≤ rounds := by
  rw [render_list, renderItems_eq_map] at h
  simp only [List.length_append, List.length_cons, List.length_nil] at h
  exact commaSeparated_bounds (by omega)

/-- The rounds that are enough for an object are enough for its values, and for their number. -/
theorem length_fields {fields : Fields} {rounds : Nat}
    (h : (render (.object fields)).length ≤ rounds) :
    fields.length ≤ rounds ∧ ∀ field ∈ fields, (render field.2).length ≤ rounds := by
  rw [render_object, renderFields_eq_map] at h
  simp only [List.length_append, List.length_cons, List.length_nil] at h
  have hwithin : (commaSeparated (fields.map fun field =>
      string field.1 ++ ':' :: ' ' :: render field.2)).length + 2 ≤ rounds := by omega
  obtain ⟨hcount, hpiece⟩ := commaSeparated_bounds hwithin
  refine ⟨hcount, fun field hfield => ?_⟩
  have hle := hpiece field hfield
  simp only [List.length_append, List.length_cons] at hle
  omega

theorem readList_of_head {c : Char} (hgap : isGap c = false) (hend : c ≠ ']')
    (element : List Char → Scan Value) (rounds : Nat) (s : List Char) :
    readList element rounds (c :: s) = readItems element rounds (c :: s) [] := by
  unfold readList
  rw [skipGaps_cons hgap]
  split
  · rename_i heq
    exact absurd (List.cons.inj heq).1 hend
  · rfl

/-- A list is read if each of its items is. -/
theorem reads_list {depth : Nat} {items : List Value} {rounds : Nat} (rest : List Char)
    (hread : ∀ v ∈ items, ∀ rest, EndsInteger rest →
      Reads allow (readValue rounds depth) (render v ++ rest) v rest)
    (hhead : ∀ v ∈ items, ∃ c s, render v = c :: s ∧ isGap c = false ∧ c ≠ ']')
    (hrounds : items.length ≤ rounds) :
    Reads allow (readValue rounds (depth + 1)) (render (.list items) ++ rest) (.list items) rest := by
  have htext : render (.list items) ++ rest =
      '[' :: (commaSeparated (renderItems items) ++ ']' :: rest) := by
    simp [render_list]
  rw [htext]
  cases items with
  | nil =>
    left
    rfl
  | cons w more =>
    have hreads := reads_readItems (List.cons_ne_nil w more) hread hhead hrounds [] rest
    obtain ⟨c, s, hs, hc, hend⟩ := hhead w List.mem_cons_self
    have hfront : ∃ t, commaSeparated (renderItems (w :: more)) ++ ']' :: rest = c :: t := by
      rw [renderItems, hs]
      cases renderItems more <;> exact ⟨_, rfl⟩
    obtain ⟨t, ht⟩ := hfront
    rw [ht] at hreads ⊢
    unfold Reads at hreads ⊢
    show readList _ _ _ = _ ∨ ∃ limit, _ ∧ readList _ _ _ = _
    rw [readList_of_head hc hend]
    exact hreads

/-- An object with distinct names is read if each of its values is. -/
theorem reads_object {depth : Nat} {fields : Fields} {rounds : Nat} (rest : List Char)
    (hdistinct : fields.names.Nodup) (hplain : ∀ field ∈ fields, IsPlain field.1.toList)
    (hread : ∀ field ∈ fields, ∀ rest, EndsInteger rest →
      Reads allow (readValue rounds depth) (render field.2 ++ rest) field.2 rest)
    (hhead : ∀ field ∈ fields, ∃ c s, render field.2 = c :: s ∧ isGap c = false ∧ c ≠ ']')
    (hrounds : fields.length ≤ rounds) :
    Reads allow (readValue rounds (depth + 1)) (render (.object fields) ++ rest) (.object fields)
      rest := by
  have htext : render (.object fields) ++ rest =
      '\x7b' :: (commaSeparated (renderFields fields) ++ '\x7d' :: rest) := by
    simp [render_object]
  rw [htext]
  cases fields with
  | nil =>
    left
    rfl
  | cons field more =>
    have hreads := reads_readFields (List.cons_ne_nil field more) hplain hread hhead hrounds
      (show (Fields.names ([] ++ field :: more)).Nodup from hdistinct) rest
    have hfront : ∃ t, commaSeparated (renderFields (field :: more)) ++ '\x7d' :: rest = '"' :: t := by
      rw [renderFields, string]
      cases renderFields more <;> exact ⟨_, rfl⟩
    obtain ⟨t, ht⟩ := hfront
    rw [ht] at hreads ⊢
    unfold Reads at hreads ⊢
    exact hreads

/-- A legible value is read back from its text, whatever follows. Only an integer must not be followed by
what continues it. -/
theorem reads_render {depth : Nat} {v : Value} (h : Legible allow depth v) {rounds : Nat}
    (hrounds : (render v).length ≤ rounds) {rest : List Char}
    (hrest : (∃ n, v = .int n) → EndsInteger rest) :
    Reads allow (readValue rounds depth) (render v ++ rest) v rest := by
  induction h generalizing rest with
  | null =>
    left
    rw [render_null]
    exact readValue_eq_readScalar (by decide) (by decide) _ _ _
  | bool b =>
    left
    cases b with
    | true =>
      rw [render_true]
      exact readValue_eq_readScalar (by decide) (by decide) _ _ _
    | false =>
      rw [render_false]
      exact readValue_eq_readScalar (by decide) (by decide) _ _ _
  | @int depth n hdigits =>
    have hreads := reads_scanNumber_int hdigits (hrest ⟨n, rfl⟩)
    rw [render_int]
    unfold Reads at hreads ⊢
    rw [readValue_int]
    exact hreads
  | @text depth s hplain =>
    left
    have hscalar : readValue rounds depth (string s ++ rest) = readScalar (string s ++ rest) := by
      rw [string]
      exact readValue_eq_readScalar (by decide) (by decide) _ _ _
    rw [render_text, hscalar, readScalar_string hplain]
  | deepList hdeep =>
    right
    exact ⟨.depth, hdeep, by rw [render_list]; rfl⟩
  | deepObject hdeep =>
    right
    exact ⟨.depth, hdeep, by rw [render_object]; rfl⟩
  | list hlegible ih =>
    -- A comma or a bracket follows each item, so an integer ends where its text does.
    obtain ⟨hcount, hlength⟩ := length_items hrounds
    exact reads_list rest (fun v hv rest hends => ih v hv (hlength v hv) fun _ => hends)
      (fun v hv => render_head (hlegible v hv)) hcount
  | object hdistinct hplain hlegible ih =>
    obtain ⟨hcount, hlength⟩ := length_fields hrounds
    exact reads_object rest hdistinct hplain
      (fun f hf rest hends => ih f hf (hlength f hf) fun _ => hends)
      (fun f hf => render_head (hlegible f hf)) hcount

/-- Lists in lists need as many levels as they have. -/
theorem legible_nested (allow : Limit → Prop) (n more : Nat) :
    Legible allow (n + 1 + more) (.nested n) := by
  induction n with
  | zero =>
    rw [Nat.add_right_comm]
    exact .list (by simp)
  | succ n ih =>
    rw [Nat.add_right_comm]
    exact .list fun v hv => by rwa [List.mem_singleton.mp hv]

/-! ## Values without limits -/

/-- The values that JSON has a form for, of any size: their texts are plain, and their objects have each
name once. -/
inductive Plain : Value → Prop
  | null : Plain .null
  | bool (b : Bool) : Plain (.bool b)
  | int (n : Int) : Plain (.int n)
  | text {s : String} (plain : IsPlain s.toList) : Plain (.text s)
  | list {items : List Value} (each : ∀ v ∈ items, Plain v) : Plain (.list items)
  | object {fields : Fields} (distinct : fields.names.Nodup)
      (plain : ∀ field ∈ fields, IsPlain field.1.toList) (each : ∀ field ∈ fields, Plain field.2) :
      Plain (.object fields)

/-- Where every limit may be exceeded, nesting and integers do not matter. -/
theorem Plain.legible {v : Value} (h : Plain v) (depth : Nat) :
    Legible (fun _ => True) depth v := by
  induction h generalizing depth with
  | null => exact .null
  | bool b => exact .bool b
  | int n => exact .int fun _ => trivial
  | text plain => exact .text plain
  | list _ ih =>
    cases depth with
    | zero => exact .deepList trivial
    | succ depth => exact .list fun v hv => ih v hv depth
  | object distinct plain _ ih =>
    cases depth with
    | zero => exact .deepObject trivial
    | succ depth => exact .object distinct plain fun field hfield => ih field hfield depth

end MeetDesk.Json
