import MeetDesk.Proofs.Desk.Course
import MeetDesk.Proofs.Tool.Search

/-!
# Routing decisions

A decision is acted on twice. The routing tool updates the docket for the participant that it selects,
and then the router reads the participant off the recorded turn. `Decided` says what the run looks like
when both have gone by the same choice. There is no decision to act on if the log cannot show what the tool
refuses, and then nothing has changed (`Desk.routing_agrees`).
-/

namespace MeetDesk

/-! ## Names -/

namespace Routing

/-- The accepted names of a participant, in the spelling by which names are compared. -/
def spellings : Participant → List String
  | .supervisor => []
  | .analyst => ["meet performance analyst", "meetqueryagent"]
  | .summary => ["meet summary agent", "answeragent"]

/-- The name `s` is one of the participant's, whatever its case and the blanks around it. -/
def Names (s : String) (p : Participant) : Prop := canonical s ∈ (spellings p).map String.toList

instance (s : String) (p : Participant) : Decidable (Names s p) :=
  inferInstanceAs (Decidable (_ ∈ _))

/-- A participant is found exactly under the names that it has. -/
theorem named?_eq_some_iff {s : String} {p : Participant} : named? s = some p ↔ Names s p := by
  have hsound : ∀ entry ∈ targets,
      Text.fold entry.1.toList ∈ (spellings entry.2).map String.toList := by decide +kernel
  have hcomplete : ∀ p ∈ Participant.all, ∀ key ∈ (spellings p).map String.toList,
      (targets.find? fun entry => Text.fold entry.1.toList == key).map Prod.snd = some p := by
    decide +kernel
  constructor
  · intro h
    obtain ⟨entry, hfind, rfl⟩ := Option.map_eq_some_iff.mp h
    have hkey : Text.fold entry.1.toList = canonical s := by
      simpa using List.find?_some hfind
    have hmem := hsound entry (List.mem_of_find?_eq_some hfind)
    rwa [hkey] at hmem
  · intro h
    exact hcomplete p p.mem_all (canonical s) h

theorem named?_eq_none_iff {s : String} : named? s = none ↔ ∀ p, ¬ Names s p := by
  rw [Option.eq_none_iff_forall_ne_some]
  exact forall_congr' fun p => not_congr named?_eq_some_iff

end Routing

/-! ## Choices -/

namespace RouteTool

/-- The choice that the call in a text makes, if there is a call and its arguments are valid. -/
def choiceOf? (call? : Option ToolCall) : Option RouteChoice :=
  call?.bind fun call => (RouteChoice.read (.object call.arguments)).toOption

/-- The log can show what the routing tool refuses of a call, if there is a call. -/
def Shown (room : Room) (call? : Option ToolCall) : Prop :=
  ∀ call, call? = some call → room.ShowsRefused (RouteChoice.read (.object call.arguments))

/-- Nobody is selected: there is no choice, or it names nobody and lets the question pass. -/
def Undecided (choice? : Option RouteChoice) : Prop :=
  ∀ c, choice? = some c → c.inDomain? ≠ some false ∧ ∀ p, ¬ Routing.Names c.agent p

variable {c : RouteChoice}

/-- A choice selects nobody exactly if it leaves open who goes next. -/
theorem target?_eq_none_iff : target? c = none ↔ Undecided (some c) := by
  have hundecided : Undecided (some c) ↔
      c.inDomain? ≠ some false ∧ ∀ p, ¬ Routing.Names c.agent p := by
    simp [Undecided]
  rw [hundecided]
  by_cases hdeclined : c.inDomain? = some false
  · simp [target?_of_declined hdeclined, hdeclined]
  · rw [target?_of_not_declined hdeclined, Routing.named?_eq_none_iff]
    exact (and_iff_right hdeclined).symm

/-- The analyst is selected by name only, and not for a question that is declined. -/
theorem of_target?_analyst (h : target? c = some .analyst) :
    c.inDomain? ≠ some false ∧ Routing.Names c.agent .analyst := by
  by_cases hdeclined : c.inDomain? = some false
  · rw [target?_of_declined hdeclined] at h
    cases h
  · rw [target?_of_not_declined hdeclined] at h
    exact ⟨hdeclined, Routing.named?_eq_some_iff.mp h⟩

/-- The summary agent is selected by name or by declining the question. -/
theorem of_target?_summary (h : target? c = some .summary) :
    c.inDomain? = some false ∨ Routing.Names c.agent .summary := by
  by_cases hdeclined : c.inDomain? = some false
  · exact Or.inl hdeclined
  · rw [target?_of_not_declined hdeclined] at h
    exact Or.inr (Routing.named?_eq_some_iff.mp h)

/-- A choice is counted as one update, even if it says what was known already. -/
theorem apply_update (c : RouteChoice) (p : Participant) (d : Docket) :
    d.apply (update c p) = ⟨(update c p).applyTo d.inquiry, d.mutations + 1⟩ := by
  have hset : (update c p).isEmpty = false := by simp [Update.isEmpty, update]
  simp [Docket.apply, hset]

/-- What the docket is after the analyst was selected. -/
theorem apply_update_analyst (h : c.inDomain? ≠ some false) (d : Docket) :
    d.apply (update c .analyst) = ⟨{ d.inquiry with
      completed := false, inDomain? := some true, reasoning? := c.reasoning? },
      d.mutations + 1⟩ := by
  rw [apply_update]
  simp [update, domainFlag?_analyst h, Update.applyTo]

/-- What the docket is after the summary agent was selected. -/
theorem apply_update_summary (c : RouteChoice) (d : Docket) :
    d.apply (update c .summary) = ⟨{ d.inquiry with
      completed := true, inDomain? := c.inDomain?.or d.inquiry.inDomain?,
      reasoning? := c.reasoning? }, d.mutations + 1⟩ := by
  have hflag : (domainFlag? c .summary) = c.inDomain? := by simp [domainFlag?]
  rw [apply_update]
  unfold update Update.applyTo
  rw [hflag]
  cases c.inDomain? <;> rfl

end RouteTool

/-! ## The two halves of a decision -/

/-- How the turn with a number ends on a choice, if there is one: who is scheduled, and what becomes of
the docket `d`. -/
inductive Decided (index : Int) (choice? : Option RouteChoice) (d : Docket) :
    Except RunError Unit → Run → Prop
  | analyst {c : RouteChoice} {r' : Run} (choice : choice? = some c)
      (related : c.inDomain? ≠ some false) (named : Routing.Names c.agent .analyst)
      (scheduled : r'.scheduled? = some .analyst)
      (docket : r'.docket = ⟨{ d.inquiry with
        completed := false, inDomain? := some true, reasoning? := c.reasoning? },
        d.mutations + 1⟩) :
      Decided index choice? d (.ok ()) r'
  | summary {c : RouteChoice} {r' : Run} (choice : choice? = some c)
      (named : c.inDomain? = some false ∨ Routing.Names c.agent .summary)
      (scheduled : r'.scheduled? = some .summary)
      (docket : r'.docket = ⟨{ d.inquiry with
        completed := true, inDomain? := c.inDomain?.or d.inquiry.inDomain?,
        reasoning? := c.reasoning? }, d.mutations + 1⟩) :
      Decided index choice? d (.ok ()) r'
  | nobody {r' : Run} (undecided : RouteTool.Undecided choice?) (docket : r'.docket = d) :
      Decided index choice? d (.error (.noRoute index)) r'

/-- There is no route exactly if there is no choice to go by. -/
theorem Decided.noRoute_iff {index : Int} {choice? : Option RouteChoice} {d : Docket}
    {ended : Except RunError Unit} {r' : Run} (h : Decided index choice? d ended r') :
    ended = .error (.noRoute index) ↔ RouteTool.Undecided choice? := by
  cases h with
  | analyst hchoice _ hnamed =>
    refine ⟨fun h => (by cases h), fun h => ?_⟩
    exact absurd hnamed ((h _ hchoice).2 .analyst)
  | summary hchoice hnamed =>
    refine ⟨fun h => (by cases h), fun h => ?_⟩
    rcases hnamed with hdeclined | hnamed
    · exact absurd hdeclined (h _ hchoice).1
    · exact absurd hnamed ((h _ hchoice).2 .summary)
  | nobody hundecided => exact ⟨fun _ => hundecided, fun _ => rfl⟩

/-- The first half: a turn of the supervisor that can be read selects whom its choice selects, and the
docket has the choice. -/
theorem Action.supervisor_selects {room : Room} (index : Int) (text : String) (d : Docket)
    (calls : List StoreCall) {call? : Option ToolCall}
    (hfind : ToolCall.find room Participant.supervisor.tools text = .ok call?)
    (hshown : RouteTool.Shown room call?) :
    ∃ t, (supervisor room index text d calls).turn = .ok t ∧
      t.participant = .supervisor ∧ t.index = index ∧
      ((RouteTool.Undecided (RouteTool.choiceOf? call?) ∧ Routing.selected? t = none ∧
          (supervisor room index text d calls).docket = d) ∨
        ∃ c q, RouteTool.choiceOf? call? = some c ∧ RouteTool.target? c = some q ∧
          Routing.selected? t = some q ∧
          (supervisor room index text d calls).docket = d.apply (RouteTool.update c q)) := by
  unfold supervisor
  rw [hfind]
  cases call? with
  | none =>
    have hnone : RouteTool.Undecided (RouteTool.choiceOf? none) := fun c hc => by cases hc
    exact ⟨_, rfl, rfl, rfl, Or.inl ⟨hnone, rfl, rfl⟩⟩
  | some call =>
    have hname : call.name = RouteTool.name := ToolCall.name_eq_of_find hfind
    have hruns := RouteTool.runs room (.object call.arguments) d
    dsimp only
    generalize RouteTool.run room (.object call.arguments) d = routed at hruns
    cases hruns with
    | @selected c q hread htarget =>
      have hchoice : RouteTool.choiceOf? (some call) = some c := congrArg Checked.toOption hread
      exact ⟨_, rfl, rfl, rfl, Or.inr ⟨c, q, hchoice, htarget,
        Routes.selected? (c := c) ⟨congrArg some hname, hread, htarget, rfl⟩, rfl⟩⟩
    | nobody hnobody =>
      have hundecided : RouteTool.Undecided (RouteTool.choiceOf? (some call)) := by
        intro c hc
        have hread := Checked.eq_valid_of_toOption hc
        exact RouteTool.target?_eq_none_iff.mp (hnobody c hread) c rfl
      exact ⟨_, rfl, rfl, rfl, Or.inl ⟨hundecided, Routing.selected?_of_failure rfl, rfl⟩⟩
    | unshown hunshown => exact absurd (hshown call rfl) hunshown

/-- A turn of the supervisor fails if the log cannot show what the tool refuses. -/
theorem Action.supervisor_unshown {room : Room} (index : Int) (text : String) (d : Docket)
    (calls : List StoreCall) {call? : Option ToolCall}
    (hfind : ToolCall.find room Participant.supervisor.tools text = .ok call?)
    (hunshown : ¬ RouteTool.Shown room call?) :
    supervisor room index text d calls = ⟨.error (.fault .tooDeep), d, calls⟩ := by
  obtain ⟨call, hcall⟩ := Classical.not_forall.mp hunshown
  obtain ⟨rfl, hrefused⟩ := Classical.not_imp.mp hcall
  have hruns := RouteTool.runs room (.object call.arguments) d
  unfold supervisor
  rw [hfind]
  dsimp only
  generalize RouteTool.run room (.object call.arguments) d = routed at hruns
  cases hruns with
  | selected hread =>
    rw [hread] at hrefused
    exact absurd trivial hrefused
  | nobody _ hshown => exact absurd hshown hrefused
  | unshown => rfl

namespace Desk

/-- The second half: the router schedules whom the turn selected. -/
theorem record_of_selected {r : Run} {t : Turn} {p : Participant}
    (ht : t.participant = .supervisor) (h : Routing.selected? t = some p) :
    (record r t).1 = .ok () ∧ (record r t).2.scheduled? = some p := by
  rcases record_cases r t with ⟨-, hnone, -⟩ | ⟨-, ⟨q, hq, hscheduled⟩, hok⟩ | ⟨hother, -⟩
  · rw [hnone] at h
    cases h
  · rw [hq] at h
    exact ⟨hok, hscheduled.trans h⟩
  · exact absurd ht hother

/-- A turn of the supervisor that selects nobody ends the run. -/
theorem record_of_unselected {r : Run} {t : Turn} (ht : t.participant = .supervisor)
    (h : Routing.selected? t = none) : (record r t).1 = .error (.noRoute t.index) := by
  rcases record_cases r t with ⟨-, -, hlost⟩ | ⟨-, ⟨q, hq, -⟩, -⟩ | ⟨hother, -⟩
  · exact hlost
  · rw [hq] at h
    cases h
  · exact absurd ht hother

/-- The two halves agree where the tool has returned. The turn is recorded, and then the analyst is next,
or the summary agent is, or there is no route. -/
theorem decided_of_shown {room : Room} (r : Run) (index : Int) (text : String) {call? : Option ToolCall}
    (hfind : ToolCall.find room Participant.supervisor.tools text = .ok call?)
    (hshown : RouteTool.Shown room call?) :
    ∃ t ended r', (Action.supervisor room index text r.docket r.world.calls).turn = .ok t ∧
      record (r.perform (Action.supervisor room index text r.docket r.world.calls)) t = (ended, r') ∧
      Decided index (RouteTool.choiceOf? call?) r.docket ended r' ∧
      r'.world = r.world ∧ r'.transcript = r.transcript ++ [t] := by
  obtain ⟨t, hturn, hp, hindex, hselects⟩ :=
    Action.supervisor_selects index text r.docket r.world.calls hfind hshown
  have hcalls := Action.supervisor_calls room index text r.docket r.world.calls
  generalize Action.supervisor room index text r.docket r.world.calls = a at *
  obtain ⟨htranscript, hdocket, hworld, -⟩ := record_frame (r.perform a) t
  have hsame : (r.perform a).world = r.world := by
    show { r.world with calls := a.calls } = r.world
    rw [hcalls]
  have hdecided : Decided index (RouteTool.choiceOf? call?) r.docket (record (r.perform a) t).1
      (record (r.perform a) t).2 := by
    rcases hselects with ⟨hundecided, hnone, hkept⟩ | ⟨c, q, hchoice, htarget, hq, hupdated⟩
    · rw [record_of_unselected hp hnone, hindex]
      exact .nobody hundecided (hdocket.trans hkept)
    · obtain ⟨hok, hscheduled⟩ := record_of_selected (r := r.perform a) hp hq
      rw [hok]
      cases q with
      | supervisor => exact absurd htarget (RouteTool.target?_ne_supervisor c)
      | analyst =>
        obtain ⟨hrelated, hnamed⟩ := RouteTool.of_target?_analyst htarget
        refine .analyst hchoice hrelated hnamed hscheduled ?_
        rw [← RouteTool.apply_update_analyst hrelated]
        exact hdocket.trans hupdated
      | summary =>
        refine .summary hchoice (RouteTool.of_target?_summary htarget) hscheduled ?_
        rw [← RouteTool.apply_update_summary]
        exact hdocket.trans hupdated
  exact ⟨t, _, _, hturn, rfl, hdecided, hworld.trans hsame, htranscript⟩

/-- The two halves agree, whatever the supervisor wrote, as long as it can be read and the log can show
what the tool refuses. The turn is recorded, and then the analyst is next, or the summary agent is, or
there is no route; the docket has what goes with that and nothing else. There is no route exactly if the
text makes no valid choice, or one that names nobody and does not decline the question. The supervisor is
never selected. If the log cannot show what is refused, the turn fails, and nothing has changed. -/
theorem routing_agrees (room : Room) (r : Run) (index : Int) (text : String) {call? : Option ToolCall}
    (hfind : ToolCall.find room Participant.supervisor.tools text = .ok call?) :
    (RouteTool.Shown room call? ∧
      ∃ t ended r', (Action.supervisor room index text r.docket r.world.calls).turn = .ok t ∧
        record (r.perform (Action.supervisor room index text r.docket r.world.calls)) t = (ended, r') ∧
        Decided index (RouteTool.choiceOf? call?) r.docket ended r' ∧
        (ended = .error (.noRoute index) ↔ RouteTool.Undecided (RouteTool.choiceOf? call?)) ∧
        Routing.selected? t ≠ some .supervisor ∧
        r'.world = r.world ∧ r'.transcript = r.transcript ++ [t]) ∨
    (¬ RouteTool.Shown room call? ∧
      Action.supervisor room index text r.docket r.world.calls =
        ⟨.error (.fault .tooDeep), r.docket, r.world.calls⟩) := by
  by_cases hshown : RouteTool.Shown room call?
  · obtain ⟨t, ended, r', hturn, hrecord, hdecided, hworld, htranscript⟩ :=
      decided_of_shown r index text hfind hshown
    exact Or.inl ⟨hshown, t, ended, r', hturn, hrecord, hdecided, hdecided.noRoute_iff,
      Routing.selected?_ne_supervisor t, hworld, htranscript⟩
  · exact Or.inr ⟨hshown, Action.supervisor_unshown index text r.docket r.world.calls hfind hshown⟩

/-- A call to the routing tool that names the analyst by an alias and says nothing else. -/
def aliasText : String :=
  "Sure: \x7b\"name\": \"route_to_agent\", " ++
    "\"parameters\": \x7b\"agent\": \" MEETQUERYAGENT\"\x7d\x7d"

theorem exists_aliasChoice : ∃ call? c,
    ToolCall.find {} Participant.supervisor.tools aliasText = .ok call? ∧
      RouteTool.choiceOf? call? = some c ∧ c.inDomain? = none ∧
      Routing.Names c.agent .analyst := by
  have hread : (((ToolCall.find {} Participant.supervisor.tools aliasText).toOption.bind
      RouteTool.choiceOf?).any fun c =>
        c.inDomain? == none && decide (Routing.Names c.agent .analyst)) = true := by
    decide +kernel
  obtain ⟨c, hc, hchecked⟩ := (Option.any_eq_true ..).mp hread
  obtain ⟨call?, hcall, hchoice⟩ := Option.bind_eq_some_iff.mp hc
  rw [Bool.and_eq_true, beq_iff_eq, decide_eq_true_eq] at hchecked
  exact ⟨call?, c, eq_ok_of_toOption hcall, hchoice, hchecked⟩

/-- A run that has had an update before. -/
def updatedRun : Run :=
  { number := 0, world := {}, docket := { inquiry := { question := "Who?" }, mutations := 1 } }

theorem routing_agrees_alias :
    ∃ t r', (Action.supervisor {} 2 aliasText updatedRun.docket updatedRun.world.calls).turn = .ok t ∧
      record (updatedRun.perform
        (Action.supervisor {} 2 aliasText updatedRun.docket updatedRun.world.calls)) t = (.ok (), r') ∧
      r'.scheduled? = some .analyst ∧ r'.docket.inquiry.inDomain? = some true ∧
      r'.docket.mutations = 2 := by
  obtain ⟨call?, c, hfind, hchoice, hdomain, hnamed⟩ := exists_aliasChoice
  have hshown : RouteTool.Shown {} call? := by
    rintro call rfl
    have hread : RouteChoice.read (.object call.arguments) = .valid c :=
      Checked.eq_valid_of_toOption hchoice
    rw [hread]
    trivial
  obtain ⟨-, t, ended, r', hturn, hrecord, hdecided, -⟩ :=
    (routing_agrees {} updatedRun 2 aliasText hfind).resolve_right fun h => h.1 hshown
  cases hdecided with
  | analyst _ _ _ hscheduled hdocket =>
    exact ⟨t, r', hturn, hrecord, hscheduled, by rw [hdocket], by rw [hdocket]; rfl⟩
  | summary hchoice' hnamed' =>
    obtain rfl := Option.some.inj (hchoice.symm.trans hchoice')
    rcases hnamed' with hdeclined | hnamed'
    · rw [hdomain] at hdeclined
      cases hdeclined
    · have hboth := (Routing.named?_eq_some_iff.mpr hnamed).symm.trans
        (Routing.named?_eq_some_iff.mpr hnamed')
      cases hboth
  | nobody hundecided => exact absurd hnamed ((hundecided c hchoice).2 .analyst)

/-- A call to the routing tool that names nobody, and gives lists in lists for a reason. -/
def buriedCall : ToolCall := ⟨"route_to_agent", [("reasoning", .nested 979)]⟩

/-- The fields of an object that makes this call. -/
def buriedFields : Fields := [("tool", .text "route_to_agent"), ("arguments", .object buriedCall.arguments)]

/-- A list is no reason. -/
theorem read_reasoning_list (items : List Value) :
    ∃ issues problem path, RouteChoice.read (.object [("reasoning", .list items)]) = .invalid issues ∧
      ⟨problem, path, .list items⟩ ∈ issues :=
  ⟨_, _, _, rfl, List.mem_cons_of_mem _ (List.mem_singleton.mpr rfl)⟩

/-- The object can be read with a level for each list and two more. -/
theorem legible_buriedFields (more : Nat) :
    Json.Legible (fun _ => False) (982 + more) (.object buriedFields) := by
  have hnested := Json.legible_nested (fun _ => False) 979 more
  have hdepth : 982 + more = 979 + 1 + more + 1 + 1 := by omega
  have harguments : Json.Legible (fun _ => False) (979 + 1 + more + 1) (.object buriedCall.arguments) := by
    refine .object (by decide) ?_ ?_
    · simp only [buriedCall, List.forall_mem_singleton]
      exact Text.isPlain_of_isAscii (by decide)
    · simp only [buriedCall, List.forall_mem_singleton]
      exact hnested
  rw [hdepth]
  refine .object (by decide) ?_ ?_
  · simp only [buriedFields, List.forall_mem_cons]
    exact ⟨Text.isPlain_of_isAscii (by decide), Text.isPlain_of_isAscii (by decide), by simp⟩
  · simp only [buriedFields, List.forall_mem_cons]
    exact ⟨.text (Text.isPlain_of_isAscii (by decide)), harguments, by simp⟩

theorem backquote_not_mem_nested (n : Nat) : '\x60' ∉ Json.render (.nested n) := by
  induction n with
  | zero => decide
  | succ n ih =>
    have hstep : Json.render (.nested (n + 1)) = '[' :: Json.render (.nested n) ++ [']'] := rfl
    rw [hstep]
    simpa using ih

theorem render_buriedFields : Json.render (.object buriedFields) =
    "\x7b\"tool\": \"route_to_agent\", \"arguments\": \x7b\"reasoning\": ".toList ++
      (Json.render (.nested 979) ++ ['\x7d'] ++ ['\x7d']) := rfl

/-- The call is found in the text that is this object. -/
theorem find_buriedCall :
    ToolCall.find {} Participant.supervisor.tools (Value.object buriedFields).toJson =
      .ok (some buriedCall) := by
  have hfence : ¬ ToolCall.fence <:+: Json.render (.object buriedFields) := by
    refine ToolCall.not_fence_infix_of_count ?_
    rw [render_buriedFields, List.count_append, List.count_append, List.count_append,
      List.count_eq_zero.mpr (backquote_not_mem_nested 979)]
    decide
  exact ToolCall.find_alone (legible_buriedFields 0) (legible_buriedFields 2) hfence rfl (by decide)

/-- The supervisor's text can be read and makes no valid choice, but the log has no room for what is
refused: the analyst is not next, and neither is the summary agent, nor is there no route. -/
theorem routing_buried :
    ToolCall.find {} Participant.supervisor.tools (Value.object buriedFields).toJson =
        .ok (some buriedCall) ∧
      RouteTool.choiceOf? (some buriedCall) = none ∧
      Action.supervisor {} 0 (Value.object buriedFields).toJson updatedRun.docket [] =
        ⟨.error (.fault .tooDeep), updatedRun.docket, []⟩ := by
  obtain ⟨issues, problem, path, hread, hmem⟩ := read_reasoning_list [.nested 978]
  have hrefused : RouteChoice.read (.object buriedCall.arguments) = .invalid issues := hread
  have hunshown : ¬ RouteTool.Shown {} (some buriedCall) := by
    intro hshown
    have hissues := hshown buriedCall rfl
    rw [hrefused] at hissues
    have hheight : (Value.nested 979).height ≤ 976 := hissues _ hmem
    rw [Value.height_nested] at hheight
    exact absurd hheight (by decide)
  refine ⟨find_buriedCall, ?_, Action.supervisor_unshown 0 _ _ _ find_buriedCall hunshown⟩
  show (RouteChoice.read (.object buriedCall.arguments)).toOption = none
  rw [hrefused]
  rfl

end Desk

end MeetDesk
