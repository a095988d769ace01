import MeetDesk.Proofs.Json.Carried
import MeetDesk.Proofs.Json.Document
import MeetDesk.Proofs.Json.Line
import MeetDesk.Proofs.Tool.Fences

/-!
# Calls are found in noisy text

An object that is a call, written as JSON, is found again: in prose, if no brace and no fence comes in
its way, and as the first block between fences, whatever stands around it. What is found is the call
that was written, argument by argument.
-/

namespace MeetDesk

open Json (Limit Plain Scan render)
open Text (IsPlain Solid isBlank)

namespace ToolCall

variable {room : Room}

/-! ## Objects that are calls -/

/-- An object spells a call if it names the tool under one of the names for it and carries the
arguments, as an object or as a text that holds it, under one of the names for them, and if it has no
other fields. -/
def Spells (call : ToolCall) (fields : Fields) : Prop :=
  ∃ nameKey ∈ ["tool", "tool_name", "name"], ∃ argumentKey ∈ ["arguments", "parameters"],
    ∃ carried, (carried = .object call.arguments ∨
        carried = .text (Value.object call.arguments).toJson) ∧
      (fields = [(nameKey, .text call.name), (argumentKey, carried)] ∨
        fields = [(argumentKey, carried), (nameKey, .text call.name)])

/-- An object that spells a call names its tool and holds its arguments. -/
theorem named_of_spells {call : ToolCall} {fields : Fields} (h : Spells call fields)
    (hname : call.name ≠ "") : toolNamed? fields = some call.name ∧
      (givenArguments fields = .object call.arguments ∨
        givenArguments fields = .text (Value.object call.arguments).toJson) := by
  obtain ⟨nameKey, hnameKey, argumentKey, hargumentKey, carried, hcarried, hfields⟩ := h
  have hgiven : Value.isGiven (.text call.name) = true := by
    simpa [Value.isGiven] using hname
  have hall : toolNamed? fields = some call.name ∧ givenArguments fields = carried := by
    simp only [List.mem_cons, List.not_mem_nil, or_false] at hnameKey hargumentKey
    rcases hnameKey with rfl | rfl | rfl <;> rcases hargumentKey with rfl | rfl <;>
      rcases hfields with rfl | rfl <;>
      simp [toolNamed?, nameKeys, givenArguments, Fields.get?, List.lookup_cons, hgiven]
  rw [hall.2]
  exact ⟨hall.1, hcarried⟩

/-- An object that spells a call is the call, unless its arguments are beyond a limit. -/
theorem ofValue_of_spells {call : ToolCall} {fields : Fields} (h : Spells call fields)
    (hname : call.name ≠ "") (hplain : Plain (.object call.arguments)) :
    ofValue room (.object fields) = .ok (some call) ∨
      ∃ limit, ofValue room (.object fields) = .error limit := by
  obtain ⟨hnamed, hgiven⟩ := named_of_spells h hname
  simp only [ofValue, hnamed]
  rcases hgiven with hgiven | hgiven
  · left
    rw [hgiven]
    rfl
  · have htext : (Value.object call.arguments).toJson.toList = render (.object call.arguments) :=
      String.toList_ofList
    rw [hgiven, readArguments, htext]
    rcases Json.read_object hplain room.document with ⟨limit, hbeyond⟩ | hok
    · right
      exact ⟨limit, by rw [hbeyond]; rfl⟩
    · left
      rw [hok]
      rfl

/-- An object that spells a call is plain if the call's name and arguments are. -/
theorem plain_of_spells {call : ToolCall} {fields : Fields} (h : Spells call fields)
    (hname : IsPlain call.name.toList) (hplain : Plain (.object call.arguments)) :
    Plain (.object fields) := by
  obtain ⟨nameKey, hnameKey, argumentKey, hargumentKey, carried, hcarried, hfields⟩ := h
  have hkeys : ∀ key ∈ ["tool", "tool_name", "name"] ++ ["arguments", "parameters"],
      IsPlain key.toList := by
    intro key hkey
    refine Text.isPlain_of_isAscii ?_
    simp only [List.mem_append, List.mem_cons, List.not_mem_nil, or_false] at hkey
    rcases hkey with (rfl | rfl | rfl) | rfl | rfl <;> decide
  have hnamePlain := hkeys _ (List.mem_append_left _ hnameKey)
  have hargumentPlain := hkeys _ (List.mem_append_right _ hargumentKey)
  have hne : nameKey ≠ argumentKey := by
    simp only [List.mem_cons, List.not_mem_nil, or_false] at hnameKey hargumentKey
    rcases hnameKey with rfl | rfl | rfl <;> rcases hargumentKey with rfl | rfl <;> decide
  have hvalue : Plain carried := by
    rcases hcarried with rfl | rfl
    · exact hplain
    · refine .text (Text.isPlain_of_isAscii ?_)
      rw [Value.toJson, String.toList_ofList]
      exact Text.isAscii_iff.mpr fun c hc => Nat.lt_trans (Json.isLine_render _ c hc).2 (by decide)
  rcases hfields with rfl | rfl
  · refine .object ?_ ?_ ?_
    · simp [Fields.names, hne]
    · simp [hnamePlain, hargumentPlain]
    · simp [Plain.text hname, hvalue]
  · refine .object ?_ ?_ ?_
    · simp [Fields.names, Ne.symm hne]
    · simp [hnamePlain, hargumentPlain]
    · simp [Plain.text hname, hvalue]

/-! ## The search -/

/-- The values that a text may mean come from the whole text, from its fenced blocks and from its
prose. -/
theorem candidates_ok {text : List Char} {values : List Value} (h : candidates room text = .ok values) :
    ∃ whole inFences inProse,
      documents room [Text.trim text] = .ok whole ∧
        documents room (blocks (Text.trim text)) = .ok inFences ∧
        embedded room.prose (Text.trim text).length (Text.trim text) = .ok inProse ∧
        values = whole ++ inFences ++ inProse := by
  unfold candidates at h
  dsimp only at h
  generalize Text.trim text = stripped at h ⊢
  cases hwhole : documents room [stripped] with
  | error limit =>
    rw [hwhole] at h
    cases h
  | ok whole =>
    rw [hwhole] at h
    cases hfences : documents room (blocks stripped) with
    | error limit =>
      rw [hfences] at h
      cases h
    | ok inFences =>
      rw [hfences] at h
      cases hprose : embedded room.prose stripped.length stripped with
      | error limit =>
        rw [hprose] at h
        cases h
      | ok inProse =>
        rw [hprose] at h
        exact ⟨whole, inFences, inProse, rfl, rfl, rfl, (Except.ok.inj h).symm⟩

/-- A search that exceeds no limit looks through all the values that the text may mean. -/
theorem find_eq_first {allowed : List String} {text : String}
    (h : ∀ limit, find room allowed text ≠ .error limit) :
    ∃ whole inFences inProse,
      documents room [Text.trim text.toList] = .ok whole ∧
        documents room (blocks (Text.trim text.toList)) = .ok inFences ∧
        embedded room.prose (Text.trim text.toList).length (Text.trim text.toList) = .ok inProse ∧
        find room allowed text = first room allowed (whole ++ inFences ++ inProse) := by
  unfold find at h ⊢
  cases hvalues : candidates room text.toList with
  | error limit =>
    rw [hvalues] at h
    exact absurd rfl (h limit)
  | ok values =>
    obtain ⟨whole, inFences, inProse, hwhole, hfences, hprose, rfl⟩ := candidates_ok hvalues
    exact ⟨whole, inFences, inProse, hwhole, hfences, hprose, rfl⟩

/-- What is no object is no call. -/
theorem first_cons_of_not_object {allowed : List String} {v : Value} (hv : ∀ fields, v ≠ .object fields)
    (values : List Value) : first room allowed (v :: values) = first room allowed values := by
  have hcall : ofValue room v = .ok none := by
    unfold ofValue
    split
    · exact absurd rfl (hv _)
    · rfl
  rw [first, hcall]

/-- A call to an allowed tool that comes first is found, unless a limit is exceeded. -/
theorem first_cons_of_spells {allowed : List String} {call : ToolCall} {fields : Fields}
    (h : Spells call fields) (hname : call.name ≠ "") (hplain : Plain (.object call.arguments))
    (hallowed : call.name ∈ allowed) (values : List Value) :
    first room allowed (.object fields :: values) = .ok (some call) ∨
      ∃ limit, first room allowed (.object fields :: values) = .error limit := by
  rw [first]
  rcases ofValue_of_spells h hname hplain with hok | ⟨limit, hbeyond⟩
  · left
    rw [hok]
    exact if_pos (by simpa using hallowed)
  · right
    rw [hbeyond]
    exact ⟨limit, rfl⟩

/-- The value that a document holds, if it is read. -/
theorem documents_cons_ok {document : List Char} {rest : List (List Char)} {values : List Value}
    (h : documents room (document :: rest) = .ok values) :
    ∃ value? more, Json.tolerate (Json.read room.document document) = .ok value? ∧
      documents room rest = .ok more ∧ values = value?.toList ++ more := by
  unfold documents at h
  cases hread : Json.tolerate (Json.read room.document document) with
  | error limit =>
    rw [hread] at h
    cases h
  | ok value? =>
    rw [hread] at h
    cases hrest : documents room rest with
    | error limit =>
      rw [hrest] at h
      cases h
    | ok more =>
      rw [hrest] at h
      exact ⟨value?, more, rfl, rfl, (Except.ok.inj h).symm⟩

/-- Prose in front of an object that was written holds no object, if it has no brace. -/
theorem embedded_append {fields : Fields} (hplain : Plain (.object fields)) {p s : List Char}
    (hp : '\x7b' ∉ p) {levels rounds : Nat} (hrounds : (render (.object fields)).length ≤ rounds)
    {values : List Value} (h : embedded levels rounds (p ++ (render (.object fields) ++ s)) = .ok values) :
    ∃ more, values = .object fields :: more := by
  obtain ⟨t, ht⟩ := Json.render_object_head fields
  have hdrop : (p ++ (render (.object fields) ++ s)).dropWhile (· != '\x7b') =
      '\x7b' :: (t ++ s) := by
    rw [List.dropWhile_append_of_pos, ht]
    · rfl
    · intro c hc
      simp only [bne_iff_ne, ne_eq]
      rintro rfl
      exact hp hc
  have hfront := Json.readFront_object hplain levels hrounds s
  rw [ht, List.cons_append] at hfront
  unfold embedded at h
  split at h
  · rename_i hnil
    rw [hdrop] at hnil
    cases hnil
  · rename_i brace rest hcons
    rw [hdrop] at hcons
    obtain ⟨rfl, rfl⟩ := List.cons.inj hcons
    rcases hfront with hok | ⟨limit, hbeyond⟩
    · split at h
      · rename_i hmalformed
        rw [hok] at hmalformed
        cases hmalformed
      · cases h
      · rename_i value left hvalue
        rw [hok] at hvalue
        obtain ⟨rfl, rfl⟩ := Prod.mk.inj (Except.ok.inj hvalue)
        split at h
        · cases h
        · exact ⟨_, (Except.ok.inj h).symm⟩
    · split at h
      · rename_i hmalformed
        rw [hbeyond] at hmalformed
        cases hmalformed
      · cases h
      · rename_i hvalue
        rw [hbeyond] at hvalue
        cases hvalue

/-- An object has no blanks around it. -/
theorem solid_object (fields : Fields) : Solid (render (.object fields)) := by
  constructor
  · obtain ⟨t, ht⟩ := Json.render_object_head fields
    exact ⟨'\x7b', by rw [ht]; rfl, by decide⟩
  · refine ⟨'\x7d', ?_, by decide⟩
    rw [Json.render_object, List.getLast?_append]
    rfl

theorem isGap_of_not_isBlank {c : Char} (h : isBlank c = false) : Json.isGap c = false := by
  cases hgap : Json.isGap c with
  | false => rfl
  | true =>
    simp only [Json.isGap, Bool.or_eq_true, beq_iff_eq] at hgap
    rcases hgap with ((rfl | rfl) | rfl) | rfl <;> cases h

/-- What is not passed over was read. -/
theorem read_of_tolerate {levels : Nat} {document : List Char} {v : Value}
    (h : Json.tolerate (Json.read levels document) = .ok (some v)) : Json.read levels document = .ok v := by
  cases hread : Json.read levels document with
  | ok value =>
    rw [hread] at h
    obtain rfl := Option.some.inj (Except.ok.inj h)
    rfl
  | error e =>
    rw [hread] at h
    cases e <;> cases h

/-- A text in which an object that was written is the first one means this object or none as a
whole. -/
theorem read_whole {levels : Nat} {fields : Fields} (hplain : Plain (.object fields)) {a b : List Char}
    {v : Value} (ha : '\x7b' ∉ a) (hblank : ∀ c, a.head? = some c → isBlank c = false)
    (h : Json.tolerate (Json.read levels (a ++ (render (.object fields) ++ b))) = .ok (some v)) :
    v = .object fields ∨ ∀ other, v ≠ .object other := by
  have h := read_of_tolerate h
  cases a with
  | nil =>
    rw [List.nil_append] at h
    rcases Json.read_object_append hplain levels b with ⟨limit, hbeyond⟩ | hread
    · rw [hbeyond] at h
      cases h
    · rw [hread] at h
      split at h
      · exact Or.inl (Except.ok.inj h).symm
      · cases h
  | cons c a =>
    right
    obtain ⟨hc, -⟩ := List.ne_and_not_mem_of_not_mem_cons ha
    rw [List.cons_append] at h
    generalize a ++ (render (.object fields) ++ b) = t at h
    unfold Json.read at h
    split at h
    · cases h
    · unfold Json.readDocument at h
      rw [Json.skipGaps_cons (isGap_of_not_isBlank (hblank c rfl))] at h
      cases hfront : Json.readFront levels (c :: t).length (c :: t) with
      | error e =>
        rw [hfront] at h
        cases h
      | ok read =>
        obtain ⟨value, left⟩ := read
        rw [hfront] at h
        dsimp only at h
        split at h
        · obtain rfl := Except.ok.inj h
          exact Json.readValue_not_object (Ne.symm hc) hfront
        · cases h

/-- A call that was written into prose is found if no brace stands before it and no fence anywhere. -/
theorem find_in_prose {allowed : List String} {call : ToolCall} {fields : Fields}
    (hspells : Spells call fields) (hname : call.name ≠ "") (hallowed : call.name ∈ allowed)
    (hplainName : IsPlain call.name.toList) (hplain : Plain (.object call.arguments)) {p s : List Char}
    (hp : '\x7b' ∉ p) {text : String} (htext : text.toList = p ++ render (.object fields) ++ s)
    (hfence : ¬fence <:+: text.toList) (hlimit : ∀ limit, find room allowed text ≠ .error limit) :
    find room allowed text = .ok (some call) := by
  have hobject := plain_of_spells hspells hplainName hplain
  have hfront : ∀ c, (p.dropWhile isBlank).head? = some c → isBlank c = false := by
    intro c hc
    have hstop := List.head?_dropWhile_not isBlank p
    rw [hc] at hstop
    simpa using hstop
  have hbrace : '\x7b' ∉ p.dropWhile isBlank :=
    fun hmem => hp ((List.dropWhile_sublist _).subset hmem)
  have htrim : Text.trim text.toList = p.dropWhile isBlank ++
      (render (.object fields) ++ (s.reverse.dropWhile isBlank).reverse) := by
    rw [htext, Text.trim_append (solid_object fields), List.append_assoc]
  have hnofence : ¬fence <:+: Text.trim text.toList :=
    fun hfound => hfence (hfound.trans (Text.trim_isInfix _))
  obtain ⟨whole, inFences, inProse, hwhole, hfences, hprose, hfind⟩ := find_eq_first hlimit
  rw [blocks_of_no_fence hnofence] at hfences
  obtain rfl := Except.ok.inj hfences
  rw [htrim] at hwhole hprose
  obtain ⟨more, rfl⟩ := embedded_append hobject hbrace
    (by simp only [List.length_append]; omega) hprose
  obtain ⟨value?, rest, hread, hrest, rfl⟩ := documents_cons_ok hwhole
  obtain rfl := Except.ok.inj hrest
  have hcall : find room allowed text = .ok (some call) ∨
      ∃ limit, find room allowed text = .error limit := by
    rw [hfind]
    cases value? with
    | none => exact first_cons_of_spells hspells hname hplain hallowed more
    | some v =>
      -- As a whole, the text is either the object itself or something that is no call.
      rcases read_whole hobject hbrace hfront hread with rfl | hother
      · exact first_cons_of_spells hspells hname hplain hallowed _
      · simp only [Option.toList_some, List.append_nil, List.singleton_append]
        rw [first_cons_of_not_object hother]
        exact first_cons_of_spells hspells hname hplain hallowed more
  rcases hcall with hok | ⟨limit, hbeyond⟩
  · exact hok
  · exact absurd hbeyond (hlimit limit)

/-- A fence with its line feed cannot be read to its end. -/
theorem stops_fence {tag : List Char} (htag : tag = ['j', 's', 'o', 'n'] ∨ tag = [])
    (rest : List Char) : Json.Stops (fence ++ (tag ++ '\n' :: rest)) := by
  refine ⟨⟨_, rfl⟩, fun whole done r h => ?_⟩
  rcases htag with rfl | rfl <;> simp [fence, Json.scanString] at h

/-- What a fenced block holds is read without the tag and the line feeds around it. -/
theorem trim_block {tag d : List Char} (htag : tag = ['j', 's', 'o', 'n'] ∨ tag = [])
    (hd : Solid d) : Text.trim (dropTag (tag ++ '\n' :: (d ++ ['\n']))) = d := by
  have hdrop : dropTag (tag ++ '\n' :: (d ++ ['\n'])) = ['\n'] ++ d ++ ['\n'] := by
    rcases htag with rfl | rfl <;> rfl
  rw [hdrop]
  exact Text.trim_blanks hd (by decide) (by decide)

/-- A call that was written between fences is found, whatever stands around them, if no backquote stands
before them. -/
theorem find_in_fence {allowed : List String} {call : ToolCall} {fields : Fields}
    (hspells : Spells call fields) (hname : call.name ≠ "") (hallowed : call.name ∈ allowed)
    (hplainName : IsPlain call.name.toList) (hplain : Plain (.object call.arguments))
    {p tag s : List Char} (hp : '\x60' ∉ p) (htag : tag = ['j', 's', 'o', 'n'] ∨ tag = [])
    (hfence : ¬fence <:+: render (.object fields)) {text : String}
    (htext : text.toList =
      p ++ (fence ++ (tag ++ '\n' :: (render (.object fields) ++ '\n' :: fence))) ++ s)
    (hlimit : ∀ limit, find room allowed text ≠ .error limit) :
    find room allowed text = .ok (some call) := by
  have hobject := plain_of_spells hspells hplainName hplain
  have hsolid := solid_object fields
  have hmiddle : Solid (fence ++ (tag ++ '\n' :: (render (.object fields) ++ '\n' :: fence))) := by
    refine ⟨⟨'\x60', rfl, by decide⟩, '\x60', ?_, by decide⟩
    simp [fence, List.getLast?_append, List.getLast?_cons]
  have hbackquote : '\x60' ∉ p.dropWhile isBlank :=
    fun hmem => hp ((List.dropWhile_sublist _).subset hmem)
  have htrim := Text.trim_append hmiddle p s
  rw [← htext] at htrim
  generalize p.dropWhile isBlank = p', (s.reverse.dropWhile isBlank).reverse = s'
    at htrim hbackquote
  have hstop : Text.trim text.toList =
      p' ++ (fence ++ (tag ++ '\n' :: (render (.object fields) ++ '\n' :: (fence ++ s')))) := by
    rw [htrim]
    simp [List.append_assoc]
  have hcut : Text.trim text.toList =
      p' ++ (fence ++ ((tag ++ '\n' :: (render (.object fields) ++ ['\n'])) ++ (fence ++ s'))) := by
    rw [htrim]
    simp [List.append_assoc]
  have hblock : ¬fence <:+: (tag ++ '\n' :: (render (.object fields) ++ ['\n'])) ++
      ['\x60', '\x60'] := by
    rw [show (tag ++ '\n' :: (render (.object fields) ++ ['\n'])) ++ ['\x60', '\x60'] =
      tag ++ '\n' :: (render (.object fields) ++ '\n' :: ['\x60', '\x60']) by simp]
    intro hfound
    rcases fence_infix_append_cons (by decide) hfound with hfound | hfound
    · refine absurd hfound (not_fence_infix_of_count ?_)
      rcases htag with rfl | rfl <;> decide
    · rcases fence_infix_append_cons (by decide) hfound with hfound | hfound
      · exact hfence hfound
      · exact absurd hfound (not_fence_infix_of_count (by decide))
  obtain ⟨more, hblocks⟩ := blocks_append hbackquote hblock s'
  rw [trim_block htag hsolid, ← hcut] at hblocks
  obtain ⟨whole, inFences, inProse, hwhole, hfences, -, hfind⟩ := find_eq_first hlimit
  rw [hblocks] at hfences
  obtain ⟨value?, rest, hread, hrest, rfl⟩ := documents_cons_ok hwhole
  obtain rfl := Except.ok.inj hrest
  -- The line feed behind the first fence ends no string, so the text as a whole is no document.
  have hnone : value? = none := by
    cases value? with
    | none => rfl
    | some v =>
      rw [hstop] at hread
      exact absurd (read_of_tolerate hread) ((stops_fence htag _).read_ne_ok _ p' v)
  obtain ⟨block?, others, hblockRead, -, rfl⟩ := documents_cons_ok hfences
  have hfound : block? = some (.object fields) := by
    rcases Json.read_object hobject room.document with ⟨limit, hbeyond⟩ | hok
    · rw [hbeyond] at hblockRead
      cases hblockRead
    · rw [hok] at hblockRead
      exact (Except.ok.inj hblockRead).symm
  subst hnone hfound
  have hcall := @first_cons_of_spells room _ _ _ hspells hname hplain hallowed (others ++ inProse)
  rw [show (.object fields :: (others ++ inProse) : List Value) = none.toList ++ [] ++
    ((some (.object fields)).toList ++ others) ++ inProse by simp, ← hfind] at hcall
  rcases hcall with hok | ⟨limit, hbeyond⟩
  · exact hok
  · exact absurd hbeyond (hlimit limit)

/-- A call to an allowed tool that was written as JSON is found: in prose, if no brace stands before it
and no fence anywhere, and between fences, if no backquote stands before them and no fence in it. The
search must not exceed a limit of the reader. -/
theorem find_written (room : Room) {allowed : List String} {call : ToolCall} {fields : Fields}
    (hspells : Spells call fields) (hname : call.name ≠ "") (hallowed : call.name ∈ allowed)
    (hplainName : IsPlain call.name.toList) (hplain : Plain (.object call.arguments)) :
    (∀ p s : String, '\x7b' ∉ p.toList →
        ¬fence <:+: (p ++ (Value.object fields).toJson ++ s).toList →
        (∀ limit, find room allowed (p ++ (Value.object fields).toJson ++ s) ≠ .error limit) →
        find room allowed (p ++ (Value.object fields).toJson ++ s) = .ok (some call)) ∧
      (¬fence <:+: (Value.object fields).toJson.toList → ∀ p s : String, '\x60' ∉ p.toList →
        ∀ tag ∈ ["json", ""],
        (∀ limit, find room allowed (p ++ "```" ++ tag ++ "\n" ++ (Value.object fields).toJson ++
          "\n```" ++ s) ≠ .error limit) →
        find room allowed (p ++ "```" ++ tag ++ "\n" ++ (Value.object fields).toJson ++ "\n```" ++ s) =
          .ok (some call)) := by
  have hjson : (Value.object fields).toJson.toList = render (.object fields) := String.toList_ofList
  constructor
  · intro p s hp hfence hlimit
    have htext : (p ++ (Value.object fields).toJson ++ s).toList =
        p.toList ++ render (.object fields) ++ s.toList := by
      rw [String.toList_append, String.toList_append, hjson]
    exact find_in_prose hspells hname hallowed hplainName hplain hp htext hfence hlimit
  · intro hfence p s hp tag htag hlimit
    rw [hjson] at hfence
    have htag' : tag.toList = ['j', 's', 'o', 'n'] ∨ tag.toList = [] := by
      simp only [List.mem_cons, List.not_mem_nil, or_false] at htag
      rcases htag with rfl | rfl
      · exact Or.inl rfl
      · exact Or.inr rfl
    have htext : (p ++ "```" ++ tag ++ "\n" ++ (Value.object fields).toJson ++ "\n```" ++ s).toList =
        p.toList ++ (fence ++ (tag.toList ++ '\n' :: (render (.object fields) ++ '\n' :: fence))) ++
          s.toList := by
      simp [hjson, fence, List.append_assoc]
    exact find_in_fence hspells hname hallowed hplainName hplain hp htag' hfence htext hlimit

/-- A call to look somebody up. -/
def lookUp : ToolCall := ⟨"look_up", [("name", .text "Ann"), ("rows", .int 3)]⟩

theorem find_written_lookUp :
    find {} ["look_up"] ("I ask: " ++ (Value.object [("tool", .text "look_up"),
        ("arguments", .object lookUp.arguments)]).toJson ++ " (that is all)") = .ok (some lookUp) ∧
      find {} ["look_up"] ("I ask \x7b\x7d:" ++ "```" ++ "json" ++ "\n" ++ (Value.object [("tool",
        .text "look_up"), ("arguments", .object lookUp.arguments)]).toJson ++ "\n```" ++ "\x7b\x7d") =
        .ok (some lookUp) := by
  have hspells : Spells lookUp [("tool", .text "look_up"), ("arguments", .object lookUp.arguments)] :=
    ⟨"tool", by decide, "arguments", by decide, .object lookUp.arguments, Or.inl rfl, Or.inl rfl⟩
  have hplain : Plain (.object lookUp.arguments) := by
    refine .object (by decide) ?_ ?_
    · simp only [lookUp, List.forall_mem_cons]
      exact ⟨Text.isPlain_of_isAscii (by decide), Text.isPlain_of_isAscii (by decide), by simp⟩
    · simp only [lookUp, List.forall_mem_cons]
      exact ⟨.text (Text.isPlain_of_isAscii (by decide)), .int 3, by simp⟩
  have hwritten := find_written {} hspells (by decide) (List.mem_singleton.mpr rfl)
    (Text.isPlain_of_isAscii (by decide)) hplain
  have hlimit : ∀ text, (find {} ["look_up"] text).isOk = true →
      ∀ limit, find {} ["look_up"] text ≠ .error limit := by
    intro text hok limit h
    rw [h] at hok
    cases hok
  constructor
  · exact hwritten.1 _ _ (by decide) (by decide +kernel) (hlimit _ (by decide +kernel))
  · exact hwritten.2 (by decide +kernel) _ _ (by decide) "json" (by decide)
      (hlimit _ (by decide +kernel))

/-! ## Objects on their own -/

/-- An object that was written within the limits is what its text holds. -/
theorem embedded_object {levels : Nat} {fields : Fields}
    (h : Json.Legible (fun _ => False) levels (.object fields)) :
    embedded levels (render (.object fields)).length (render (.object fields)) =
      .ok [.object fields] := by
  obtain ⟨t, ht⟩ := Json.render_object_head fields
  have hfront := Json.readFront_render h
  have hnil : embedded levels (render (.object fields)).length [] = .ok [] := by
    unfold embedded
    rfl
  rw [ht] at hfront hnil ⊢
  unfold embedded
  split
  · rename_i hdrop
    cases hdrop
  · rename_i brace rest hdrop
    obtain ⟨rfl, rfl⟩ := List.cons.inj hdrop
    split
    · rename_i hmalformed
      cases hfront.symm.trans hmalformed
    · rename_i hbeyond
      cases hfront.symm.trans hbeyond
    · rename_i value left hvalue
      obtain ⟨rfl, rfl⟩ := Prod.mk.inj (Except.ok.inj (hfront.symm.trans hvalue))
      rw [hnil]

/-- A call that is written on its own is found, if there are levels for it. -/
theorem find_alone {allowed : List String} {call : ToolCall} {fields : Fields}
    (hdocument : Json.Legible (fun _ => False) room.document (.object fields))
    (hprose : Json.Legible (fun _ => False) room.prose (.object fields))
    (hfence : ¬fence <:+: render (.object fields)) (hcall : ofValue room (.object fields) = .ok (some call))
    (hallowed : call.name ∈ allowed) :
    find room allowed (Value.object fields).toJson = .ok (some call) := by
  have htrim := Text.trim_blanks (solid_object fields) (a := []) (b := []) rfl rfl
  rw [List.nil_append, List.append_nil] at htrim
  have hwhole : documents room [render (.object fields)] = .ok [.object fields] := by
    rw [documents, Json.read_render hdocument]
    rfl
  have hfences : documents room (blocks (render (.object fields))) = .ok [] := by
    rw [blocks_of_no_fence hfence]
    rfl
  unfold find candidates
  rw [Value.toJson, String.toList_ofList, htrim]
  dsimp only
  rw [hwhole, hfences, embedded_object hprose]
  change first room allowed [.object fields, .object fields] = _
  rw [first, hcall]
  exact if_pos (by simpa using hallowed)

/-- A call with two arguments whose names are one in JSON: a code beyond the first plane, and the two
halves of its pair. -/
def halved : ToolCall :=
  ⟨"route_to_agent", [(String.ofList (Text.ofCodes [0x1F600]), .int 2),
    (String.ofList (Text.ofCodes [0xD83D, 0xDE00]), .int 1)]⟩

/-- Names of arguments that hold the two halves of a pair are not found again. -/
theorem find_halved :
    Spells halved [("tool", .text halved.name), ("arguments", .object halved.arguments)] ∧
      halved.name ≠ "" ∧ halved.arguments.names.Nodup ∧
      ¬fence <:+: ("" ++ (Value.object [("tool", .text halved.name),
        ("arguments", .object halved.arguments)]).toJson ++ "").toList ∧
      ∃ call, find {} [halved.name] ("" ++ (Value.object [("tool", .text halved.name),
        ("arguments", .object halved.arguments)]).toJson ++ "") = .ok (some call) ∧ call ≠ halved := by
  refine ⟨⟨"tool", by decide, "arguments", by decide, .object halved.arguments, Or.inl rfl, Or.inl rfl⟩,
    by decide, by decide +kernel, by decide +kernel, ?_⟩
  have hfound : (find {} [halved.name] ("" ++ (Value.object [("tool", .text halved.name),
      ("arguments", .object halved.arguments)]).toJson ++ "")).toOption.join.map
        (fun call => call.arguments.length) = some 1 := by
    decide +kernel
  generalize find {} [halved.name] _ = found at hfound ⊢
  rcases found with _ | _ | call
  · cases hfound
  · cases hfound
  · refine ⟨call, rfl, ?_⟩
    rintro rfl
    cases hfound

end ToolCall

end MeetDesk
