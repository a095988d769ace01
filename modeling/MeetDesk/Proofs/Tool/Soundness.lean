import MeetDesk.Proofs.Json.Detached
import MeetDesk.Proofs.Tool.Search

/-!
# Calls that are found were written

What the search returns is a call that stands in the text: a piece of the text is a document that names
the tool and carries the arguments. Nobody can have a tool called by writing anything else.
-/

namespace MeetDesk

open Json (Limit)

namespace ToolCall

variable {room : Room}

/-! ## Objects that are calls -/

/-- The first value that is given under the names for a tool is this name. -/
def Names (fields : Fields) (name : String) : Prop :=
  ∃ before key after, ["tool", "tool_name", "name"] = before ++ key :: after ∧
    fields.get? key = some (.text name) ∧ name ≠ "" ∧
    ∀ earlier ∈ before, ∀ v, fields.get? earlier = some v → v.isGiven = false

/-- Where an object keeps the arguments: under the first name for them, else under the second one, and
else they are empty. -/
inductive Keeps (fields : Fields) : Value → Prop
  | arguments {v : Value} (h : fields.get? "arguments" = some v) : Keeps fields v
  | parameters {v : Value} (hnone : fields.get? "arguments" = none)
      (h : fields.get? "parameters" = some v) : Keeps fields v
  | nothing (hnone : fields.get? "arguments" = none) (h : fields.get? "parameters" = none) :
      Keeps fields (.object [])

/-- The fields that a value stands for where arguments are expected. -/
inductive Means : Value → Fields → Prop
  | object (arguments : Fields) : Means (.object arguments) arguments
  | null : Means .null []

/-- A value stands for arguments itself, or it is a text that holds such a value. -/
inductive Carries (levels : Nat) : Value → Fields → Prop
  | itself {v : Value} {arguments : Fields} (h : Means v arguments) : Carries levels v arguments
  | text {s : String} {v : Value} {arguments : Fields} (hread : Json.read levels s.toList = .ok v)
      (h : Means v arguments) : Carries levels (.text s) arguments

/-- A tool is named under the first of the names that is given at all. -/
theorem toolNamed?_sound {fields : Fields} {name : String} (h : toolNamed? fields = some name) :
    Names fields name := by
  unfold toolNamed? at h
  split at h
  · rename_i name' hfind
    obtain rfl := Option.some.inj h
    obtain ⟨hgiven, before, after, hsplit, hbefore⟩ := List.find?_eq_some_iff_append.mp hfind
    obtain ⟨keysBefore, keysAfter, hkeys, hkeysBefore, hkeysAfter⟩ :=
      List.filterMap_eq_append_iff.mp hsplit
    obtain ⟨skipped, key, after', rfl, hskipped, hkey, -⟩ := List.filterMap_eq_cons_iff.mp hkeysAfter
    refine ⟨keysBefore ++ skipped, key, after', by rw [List.append_assoc]; exact hkeys, hkey, ?_, ?_⟩
    · simpa [Value.isGiven] using hgiven
    · intro earlier hearlier v hv
      rcases List.mem_append.mp hearlier with hmem | hmem
      · have hfound : v ∈ before := by
          rw [← hkeysBefore]
          exact List.mem_filterMap.mpr ⟨earlier, hmem, hv⟩
        have hnot := hbefore v hfound
        simpa using hnot
      · rw [hskipped earlier hmem] at hv
        cases hv
  · cases h

/-- Arguments are kept under one of two names, or there are none. -/
theorem givenArguments_keeps (fields : Fields) : Keeps fields (givenArguments fields) := by
  unfold givenArguments
  cases hfirst : fields.get? "arguments" with
  | some v => exact .arguments hfirst
  | none =>
    cases hsecond : fields.get? "parameters" with
    | some v => exact .parameters hfirst hsecond
    | none => exact .nothing hfirst hsecond

theorem argumentFields?_sound {v : Value} {arguments : Fields}
    (h : argumentFields? v = some arguments) : Means v arguments := by
  unfold argumentFields? at h
  split at h
  · obtain rfl := Option.some.inj h
    exact .object _
  · obtain rfl := Option.some.inj h
    exact .null
  · cases h

/-- Arguments are an object or a text that holds one. -/
theorem readArguments_sound {v : Value} {arguments : Fields}
    (h : readArguments room v = .ok (some arguments)) : Carries room.document v arguments := by
  unfold readArguments at h
  split at h
  · split at h
    · cases h
    · rename_i value? hread
      obtain ⟨value, rfl, hvalue⟩ := Option.bind_eq_some_iff.mp (Except.ok.inj h)
      exact .text (read_of_tolerate hread) (argumentFields?_sound hvalue)
  · exact .itself (argumentFields?_sound (Except.ok.inj h))

/-- A value that is a call is an object that names the tool and keeps the arguments. -/
theorem ofValue_sound {v : Value} {call : ToolCall} (h : ofValue room v = .ok (some call)) :
    ∃ fields kept, v = .object fields ∧ Names fields call.name ∧ Keeps fields kept ∧
      Carries room.document kept call.arguments := by
  unfold ofValue at h
  split at h
  · rename_i fields
    split at h
    · cases h
    · rename_i name hname
      split at h
      · cases h
      · rename_i arguments? harguments
        obtain ⟨arguments, rfl, rfl⟩ := Option.map_eq_some_iff.mp (Except.ok.inj h)
        exact ⟨fields, givenArguments fields, rfl, toolNamed?_sound hname, givenArguments_keeps fields,
          readArguments_sound harguments⟩
  · cases h

/-! ## Values that a text may mean -/

/-- A value among documents is what one of them holds. -/
theorem mem_documents {ds : List (List Char)} {values : List Value} (h : documents room ds = .ok values)
    {v : Value} (hv : v ∈ values) : ∃ d ∈ ds, Json.read room.document d = .ok v := by
  fun_induction documents room ds generalizing values with
  | case1 =>
    obtain rfl := Except.ok.inj h
    cases hv
  | case2 | case3 => cases h
  | case4 document rest value? hread more hmore ih =>
    obtain rfl := Except.ok.inj h
    rcases List.mem_append.mp hv with hv | hv
    · obtain rfl := Option.mem_toList.mp hv
      exact ⟨document, List.mem_cons_self, read_of_tolerate hread⟩
    · obtain ⟨d, hd, hdocument⟩ := ih hmore hv
      exact ⟨d, List.mem_cons_of_mem _ hd, hdocument⟩

/-- The first piece between fences stands at the front, and all of them stand somewhere. -/
theorem splitFences_isInfix {s piece : List Char} {more : List (List Char)}
    (h : splitFences s = piece :: more) : piece <+: s ∧ ∀ q ∈ more, q <:+: s := by
  fun_induction splitFences s generalizing piece more with
  | case1 =>
    obtain ⟨rfl, rfl⟩ := List.cons.inj h
    exact ⟨List.prefix_rfl, by simp⟩
  | case2 rest ih =>
    obtain ⟨rfl, rfl⟩ := List.cons.inj h
    refine ⟨List.nil_prefix, fun q hq => ?_⟩
    obtain ⟨first, others, hrest⟩ := List.exists_cons_of_ne_nil (splitFences_ne_nil rest)
    obtain ⟨hfirst, hothers⟩ := ih hrest
    have hinfix : q <:+: rest := by
      rw [hrest] at hq
      rcases List.mem_cons.mp hq with rfl | hq
      · exact hfirst.isInfix
      · exact hothers q hq
    exact hinfix.trans (List.suffix_append fence rest).isInfix
  | case3 c rest _ hnil => exact absurd hnil (splitFences_ne_nil rest)
  | case4 c rest _ first others hrest ih =>
    obtain ⟨rfl, rfl⟩ := List.cons.inj h
    obtain ⟨hfirst, hothers⟩ := ih hrest
    exact ⟨(List.prefix_cons_inj c).mpr hfirst, fun q hq => List.infix_cons (hothers q hq)⟩

theorem mem_of_mem_fenced {pieces : List (List Char)} {block : List Char}
    (h : block ∈ fenced pieces) : block ∈ pieces := by
  fun_induction fenced pieces with
  | case1 outside block' next rest ih =>
    rcases List.mem_cons.mp h with rfl | h
    · simp
    · have hlater := ih h
      simp only [List.mem_cons] at hlater ⊢
      exact Or.inr (Or.inr hlater)
  | case2 => cases h

theorem dropTag_isSuffix (block : List Char) : dropTag block <:+ block := by
  unfold dropTag
  split
  · exact List.suffix_append ['j', 's', 'o', 'n'] _
  · exact List.suffix_rfl

/-- A block is a piece of the text. -/
theorem block_isInfix {s block : List Char} (h : block ∈ blocks s) : block <:+: s := by
  obtain ⟨piece, hpiece, rfl⟩ := List.mem_map.mp h
  obtain ⟨first, others, hs⟩ := List.exists_cons_of_ne_nil (splitFences_ne_nil s)
  obtain ⟨hfirst, hothers⟩ := splitFences_isInfix hs
  have hwhole : piece <:+: s := by
    have hmem := mem_of_mem_fenced hpiece
    rw [hs] at hmem
    rcases List.mem_cons.mp hmem with rfl | hmem
    · exact hfirst.isInfix
    · exact hothers piece hmem
  exact ((Text.trim_isInfix _).trans (dropTag_isSuffix piece).isInfix).trans hwhole

/-- An object in prose is a document on its own. -/
theorem mem_embedded {levels rounds : Nat} {s : List Char} {values : List Value}
    (h : embedded levels rounds s = .ok values) {v : Value} (hv : v ∈ values) :
    ∃ piece, piece <:+: s ∧ Json.read levels piece = .ok v := by
  fun_induction embedded levels rounds s generalizing values with
  | case1 =>
    obtain rfl := Except.ok.inj h
    cases hv
  | case2 s brace rest hs flaw left hr ih =>
    obtain ⟨piece, hpiece, hread⟩ := ih h hv
    have hrest : rest <:+ s := by
      have hdrop := List.dropWhile_suffix (l := s) (· != '\x7b')
      rw [hs] at hdrop
      exact (List.suffix_cons brace rest).trans hdrop
    exact ⟨piece, hpiece.trans hrest.isInfix, hread⟩
  | case3 | case4 => cases h
  | case5 s brace rest hs value left hr more hmore ih =>
    obtain rfl := Except.ok.inj h
    have hdrop := List.dropWhile_suffix (l := s) (· != '\x7b')
    have hbrace := List.head?_dropWhile_not (· != '\x7b') s
    rw [hs] at hdrop hbrace
    obtain rfl : brace = '\x7b' := by simpa using hbrace
    obtain ⟨p, hp, hread⟩ := Json.exists_document_of_readFront hr
    rw [hp] at hdrop
    rcases List.mem_cons.mp hv with rfl | hv
    · exact ⟨p, (List.prefix_append p left).isInfix.trans hdrop.isInfix, hread⟩
    · obtain ⟨piece, hpiece, hread'⟩ := ih hmore hv
      have hleft : left <:+ s := (List.suffix_append p left).trans hdrop
      exact ⟨piece, hpiece.trans hleft.isInfix, hread'⟩

/-- Whatever a text may mean stands in it as a document. -/
theorem mem_candidates {text : List Char} {values : List Value} (h : candidates room text = .ok values)
    {v : Value} (hv : v ∈ values) :
    ∃ levels ∈ [room.document, room.prose], ∃ piece, piece <:+: Text.trim text ∧
      Json.read levels piece = .ok v := by
  obtain ⟨whole, inFences, inProse, hwhole, hfences, hprose, rfl⟩ := candidates_ok h
  simp only [List.mem_append] at hv
  rcases hv with (hv | hv) | hv
  · obtain ⟨d, hd, hread⟩ := mem_documents hwhole hv
    obtain rfl := List.mem_singleton.mp hd
    exact ⟨room.document, by simp, _, List.infix_rfl, hread⟩
  · obtain ⟨d, hd, hread⟩ := mem_documents hfences hv
    exact ⟨room.document, by simp, d, block_isInfix hd, hread⟩
  · exact ⟨room.prose, by simp, mem_embedded hprose hv⟩

/-! ## The search -/

/-- The first call is one that is allowed, and one of the values is this call. -/
theorem first_sound {allowed : List String} {values : List Value} {call : ToolCall}
    (h : first room allowed values = .ok (some call)) :
    call.name ∈ allowed ∧ ∃ v ∈ values, ofValue room v = .ok (some call) := by
  fun_induction first room allowed values with
  | case1 | case2 => cases h
  | case3 v rest hnone ih =>
    obtain ⟨hallowed, v', hv', hcall⟩ := ih h
    exact ⟨hallowed, v', List.mem_cons_of_mem _ hv', hcall⟩
  | case4 v rest call' hcall hallowed =>
    obtain rfl := Option.some.inj (Except.ok.inj h)
    exact ⟨by simpa using hallowed, v, List.mem_cons_self, hcall⟩
  | case5 v rest call' hcall hnot ih =>
    obtain ⟨hallowed, v', hv', hcall'⟩ := ih h
    exact ⟨hallowed, v', List.mem_cons_of_mem _ hv', hcall'⟩

/-- The calls that are passed over stay so when fewer tools are allowed. -/
theorem first_of_fewer {allowed fewer : List String} {values : List Value} {call : ToolCall}
    (h : first room allowed values = .ok (some call)) (hfewer : ∀ name ∈ fewer, name ∈ allowed)
    (hname : call.name ∈ fewer) : first room fewer values = .ok (some call) := by
  fun_induction first room allowed values with
  | case1 | case2 => cases h
  | case3 v rest hnone ih =>
    rw [first, hnone]
    exact ih h
  | case4 v rest call' hcall hallowed =>
    obtain rfl := Option.some.inj (Except.ok.inj h)
    rw [first, hcall]
    exact if_pos (by simpa using hname)
  | case5 v rest call' hcall hnot ih =>
    have hrefused : ¬fewer.contains call'.name = true := by
      intro hmem
      refine hnot ?_
      simp only [List.contains_iff_mem] at hmem ⊢
      exact hfewer _ hmem
    rw [first, hcall]
    dsimp only
    rw [if_neg hrefused]
    exact ih h

/-- A call that is found is a call to an allowed tool. A piece of the text is a document that names the
tool and keeps the arguments; it is read with the levels there are for documents, or with those for prose.
With fewer tools allowed, the same call is found as long as its tool is one of them. -/
theorem find_sound {allowed : List String} {text : String} {call : ToolCall}
    (h : find room allowed text = .ok (some call)) :
    call.name ≠ "" ∧ call.name ∈ allowed ∧
      (∃ levels ∈ [room.document, room.prose], ∃ piece fields kept, piece <:+: Text.trim text.toList ∧
        Json.read levels piece = .ok (.object fields) ∧ Names fields call.name ∧ Keeps fields kept ∧
        Carries room.document kept call.arguments) ∧
      ∀ fewer : List String, (∀ name ∈ fewer, name ∈ allowed) → call.name ∈ fewer →
        find room fewer text = .ok (some call) := by
  unfold find at h ⊢
  cases hvalues : candidates room text.toList with
  | error limit =>
    rw [hvalues] at h
    cases h
  | ok values =>
    rw [hvalues] at h
    obtain ⟨hallowed, v, hv, hcall⟩ := first_sound h
    obtain ⟨levels, hlevels, piece, hpiece, hread⟩ := mem_candidates hvalues hv
    obtain ⟨fields, kept, rfl, hnames, hkeeps, hcarries⟩ := ofValue_sound hcall
    have hname : call.name ≠ "" := by
      obtain ⟨-, -, -, -, -, hname, -⟩ := hnames
      exact hname
    exact ⟨hname, hallowed,
      ⟨levels, hlevels, piece, fields, kept, hpiece, hread, hnames, hkeeps, hcarries⟩,
      fun fewer hfewer hmem => first_of_fewer h hfewer hmem⟩

/-- A call whose arguments are a text, behind two other objects in the same answer. -/
def noisyAnswer : String :=
  "I see \x7b\"rows\": 1\x7d.\n```json\n\x7b\"tool\": \"drop\", \"arguments\": \x7b\x7d\x7d\n``` " ++
    "\x7b\"tool\": null, \"name\": \"look_up\", \"parameters\": \"\x7b\\\"rows\\\": 3\x7d\"\x7d?"

theorem find_sound_noisyAnswer :
    ∃ call, find {} ["look_up", "route"] noisyAnswer = .ok (some call) ∧ call.name = "look_up" ∧
      (Value.object call.arguments).toJson = "\x7b\"rows\": 3\x7d" ∧
      (∃ levels ∈ [982, 984], ∃ piece fields kept, piece <:+: Text.trim noisyAnswer.toList ∧
        Json.read levels piece = .ok (.object fields) ∧ Names fields "look_up" ∧ Keeps fields kept ∧
        Carries 982 kept call.arguments) ∧
      find {} ["look_up"] noisyAnswer = .ok (some call) := by
  have hfound : (find {} ["look_up", "route"] noisyAnswer).toOption.join.map
      (fun call => (call.name, (Value.object call.arguments).toJson)) =
        some ("look_up", "\x7b\"rows\": 3\x7d") := by
    decide +kernel
  rcases hfind : find {} ["look_up", "route"] noisyAnswer with _ | _ | call
  · rw [hfind] at hfound
    cases hfound
  · rw [hfind] at hfound
    cases hfound
  · rw [hfind] at hfound
    obtain ⟨hname, harguments⟩ := Prod.mk.inj (Option.some.inj hfound)
    obtain ⟨-, -, hpiece, hfewer⟩ := find_sound hfind
    rw [hname] at hpiece
    exact ⟨call, rfl, hname, harguments, hpiece, hfewer ["look_up"] (by simp) (by simp [hname])⟩

end ToolCall

end MeetDesk
