import MeetDesk.Desk.Action
import MeetDesk.Proofs.Tool.Atomicity

/-!
# What an action does

`Acts` says all that a turn can do, one constructor for each way it can come out: which turn is recorded
and what happens to the docket. `Action.Fails` says why there is none. `Action.asked?` is the call that
the store receives in it. The theory of the loop opens no action but through these.
-/

namespace MeetDesk

variable {room : Room}

/-! ## Calls that were found -/

/-- The first call is to a tool that is allowed. -/
theorem ToolCall.name_mem_of_first {allowed : List String} {values : List Value} {call : ToolCall}
    (h : ToolCall.first room allowed values = .ok (some call)) : call.name ∈ allowed := by
  induction values with
  | nil => simp [ToolCall.first] at h
  | cons v rest ih =>
    unfold ToolCall.first at h
    split at h
    · simp at h
    · exact ih h
    · split at h
      · rename_i hc
        simp only [Except.ok.injEq, Option.some.injEq] at h
        subst h
        simpa using hc
      · exact ih h

/-- Only allowed tools are called. -/
theorem ToolCall.name_mem_of_find {allowed : List String} {text : String} {call : ToolCall}
    (h : ToolCall.find room allowed text = .ok (some call)) : call.name ∈ allowed := by
  unfold ToolCall.find at h
  split at h
  · simp at h
  · exact ToolCall.name_mem_of_first h

/-- A call that is found where one tool is allowed is a call to it. -/
theorem ToolCall.name_eq_of_find {tool text : String} {call : ToolCall}
    (h : ToolCall.find room [tool] text = .ok (some call)) : call.name = tool :=
  List.mem_singleton.mp (ToolCall.name_mem_of_find h)

/-! ## The routing tool -/

/-- The turn `t` made the choice `c`, and the routing tool selected `q` for it. -/
structure Routes (t : Turn) (c : RouteChoice) (q : Participant) : Prop where
  tool : t.tool? = some RouteTool.name
  choice : RouteChoice.read (.object t.arguments) = .valid c
  target : RouteTool.target? c = some q
  output : t.output = .participant q

/-- The supervisor is not selected. -/
theorem RouteTool.target?_ne_supervisor (c : RouteChoice) :
    RouteTool.target? c ≠ some .supervisor := by
  unfold RouteTool.target?
  split
  · simp
  · exact Routing.resolve?_ne_supervisor (.text c.agent)

/-- A question that is declined goes to the summary agent, whoever is named. -/
theorem RouteTool.target?_of_declined {c : RouteChoice} (h : c.inDomain? = some false) :
    RouteTool.target? c = some .summary := if_pos h

/-- A question that is not declined goes to whoever is named. -/
theorem RouteTool.target?_of_not_declined {c : RouteChoice} (h : c.inDomain? ≠ some false) :
    RouteTool.target? c = Routing.named? c.agent := if_neg h

/-- Who asks the analyst takes the question to be about powerlifting. -/
theorem RouteTool.domainFlag?_analyst {c : RouteChoice} (h : c.inDomain? ≠ some false) :
    RouteTool.domainFlag? c .analyst = some true := by
  unfold RouteTool.domainFlag?
  cases hgiven : c.inDomain? with
  | none => rfl
  | some flag =>
    cases flag with
    | false => exact absurd hgiven h
    | true => rfl

/-- What the routing tool does: it selects a participant and records the choice; or there is nobody to
select, and it returns a failure; or the log cannot show what is refused, and it fails itself. In the last
two cases it leaves the docket as it is. -/
inductive RouteTool.Runs (room : Room) (arguments : Value) (d : Docket) :
    Except Fault Value × Docket → Prop
  | selected {c : RouteChoice} {q : Participant} (read : RouteChoice.read arguments = .valid c)
      (target : RouteTool.target? c = some q) :
      Runs room arguments d (.ok (.participant q), d.apply (RouteTool.update c q))
  | nobody {message : String}
      (untargeted : ∀ c, RouteChoice.read arguments = .valid c → RouteTool.target? c = none)
      (shown : room.ShowsRefused (RouteChoice.read arguments)) :
      Runs room arguments d (.ok (failure message), d)
  | unshown (unshown : ¬ room.ShowsRefused (RouteChoice.read arguments)) :
      Runs room arguments d (.error .tooDeep, d)

/-- The routing tool comes out in one of the ways. -/
theorem RouteTool.runs (room : Room) (arguments : Value) (d : Docket) :
    RouteTool.Runs room arguments d (RouteTool.run room arguments d) := by
  unfold RouteTool.run
  cases hread : RouteChoice.read arguments with
  | invalid issues =>
    dsimp only
    split
    · rename_i hshown
      refine .nobody (fun c hc => ?_) (by rw [hread]; exact hshown)
      cases hread.symm.trans hc
    · rename_i hunshown
      exact .unshown (by rw [hread]; exact hunshown)
  | valid c =>
    simp only [RouteTool.choose]
    cases htarget : RouteTool.target? c with
    | none =>
      refine .nobody (fun c' hc' => ?_) (by rw [hread]; trivial)
      rw [← Checked.valid.inj (hread.symm.trans hc'), htarget]
    | some q => exact .selected hread htarget

/-- A failure selects nobody. -/
theorem Routing.selected?_of_failure {t : Turn} {message : String} (h : t.output = failure message) :
    Routing.selected? t = none := by
  unfold Routing.selected?
  rw [h]
  split <;> rfl

theorem Routing.selected?_ne_supervisor (t : Turn) : Routing.selected? t ≠ some .supervisor := by
  unfold Routing.selected?
  split
  · exact Routing.resolve?_ne_supervisor t.output
  · simp

/-- A turn that routed selects whom the tool returned. -/
theorem Routes.selected? {t : Turn} {c : RouteChoice} {q : Participant} (h : Routes t c q) :
    Routing.selected? t = some q := by
  have hq : q ≠ .supervisor := by
    rintro rfl
    exact RouteTool.target?_ne_supervisor c h.target
  have hcalled : Routing.calledTool t = true := by
    unfold Routing.calledTool
    rw [h.tool]
    decide
  simp [Routing.selected?, hcalled, h.output, Routing.resolve?, hq]

/-! ## The results tool -/

namespace ResultsTool

/-- The results tool puts the rows that it returns into the docket, which are the store's, or leaves the
docket as it is. What it returns then is a failure, unless the work was called off or the log cannot show
what is refused. -/
theorem run_cases (room : Room) (source : Source) (arguments : Value) (d : Docket)
    (calls : List StoreCall) :
    (∃ rows, (run room source arguments d calls).returned = .ok (.list (rows.map Value.object)) ∧
      (run room source arguments d calls).docket = d.apply (update rows) ∧
      ∃ store asked, source.store? = some store ∧ store asked = .ok rows) ∨
    ((run room source arguments d calls).docket = d ∧
      ((∃ message, (run room source arguments d calls).returned = .ok (queryFailure message)) ∨
        (∃ fault store asked, source.store? = some store ∧ store asked = .error fault ∧
          fault.isCancellation = true ∧
          (run room source arguments d calls).returned = .error fault) ∨
        (¬ room.ShowsRefused (Specification.read arguments) ∧
          (run room source arguments d calls).returned = .error .tooDeep))) := by
  by_cases hshown : room.ShowsRefused (Specification.read arguments)
  · have hsettled := run_settles source d calls hshown
    generalize run room source arguments d calls = o at hsettled ⊢
    rcases hsettled with hanswered | hrefused | hcancelled
    · cases hanswered with
      | rows _ hstore hreturned => exact Or.inl ⟨_, rfl, rfl, _, _, hstore, hreturned⟩
    · cases hrefused with
      | because => exact Or.inr ⟨rfl, Or.inl ⟨_, rfl⟩⟩
    · cases hcancelled with
      | calledOff _ hstore hraised hc =>
        exact Or.inr ⟨rfl, Or.inr (Or.inl ⟨_, _, _, hstore, hraised, hc, rfl⟩)⟩
  · rw [run_unshown source d calls hshown]
    exact Or.inr ⟨rfl, Or.inr (Or.inr ⟨hshown, rfl⟩)⟩

end ResultsTool

/-- What becomes of a turn with a number: the turn that is recorded, or why there is none, and what the
docket `d` is afterwards. -/
inductive Acts (index : Int) (d : Docket) : Participant → Except RunError Turn → Docket → Prop
  /-- There is no turn, and nothing was done. -/
  | failed {p : Participant} {e : RunError} : Acts index d p (.error e) d
  /-- The supervisor routes, and the docket has the choice. -/
  | routed {t : Turn} {c : RouteChoice} {q : Participant}
      (place : t.participant = .supervisor ∧ t.index = index) (routes : Routes t c q) :
      Acts index d .supervisor (.ok t) (d.apply (RouteTool.update c q))
  /-- The supervisor selects nobody. -/
  | undecided {t : Turn} (place : t.participant = .supervisor ∧ t.index = index)
      (selected : Routing.selected? t = none) (output : ∀ q, t.output ≠ .participant q)
      (tool : t.tool? ≠ some ResultsTool.name) : Acts index d .supervisor (.ok t) d
  /-- The analyst gets rows, and the docket has them. -/
  | returned {t : Turn} {rows : List Row} (place : t.participant = .analyst ∧ t.index = index)
      (tool : t.tool? = some ResultsTool.name) (output : t.output = .list (rows.map Value.object)) :
      Acts index d .analyst (.ok t) (d.apply (ResultsTool.update rows))
  /-- The analyst gets no rows. -/
  | refused {t : Turn} (place : t.participant = .analyst ∧ t.index = index)
      (tool : t.tool? ≠ some RouteTool.name)
      (failed : t.tool? = some ResultsTool.name → t.toolError? ≠ none) :
      Acts index d .analyst (.ok t) d
  /-- The summary agent answers. -/
  | answered {t : Turn} (place : t.participant = .summary ∧ t.index = index)
      (tool : t.tool? = none) : Acts index d .summary (.ok t) d

namespace Action

/-- The supervisor routes or selects nobody. -/
theorem supervisor_acts (room : Room) (index : Int) (text : String) (d : Docket)
    (calls : List StoreCall) :
    Acts index d .supervisor (supervisor room index text d calls).turn
      (supervisor room index text d calls).docket := by
  unfold supervisor
  split
  · exact .failed
  · refine .undecided ⟨rfl, rfl⟩ rfl (fun q hq => ?_) (by simp)
    cases hq
  · rename_i call hfind
    have hname : call.name = RouteTool.name := ToolCall.name_eq_of_find hfind
    have hresults : some call.name ≠ some ResultsTool.name := by
      rw [hname]
      decide
    have hruns := RouteTool.runs room (.object call.arguments) d
    dsimp only
    generalize RouteTool.run room (.object call.arguments) d = routed at hruns
    cases hruns with
    | selected hread htarget => exact .routed ⟨rfl, rfl⟩ ⟨congrArg some hname, hread, htarget, rfl⟩
    | nobody =>
      refine .undecided ⟨rfl, rfl⟩ (Routing.selected?_of_failure rfl) (fun q hq => ?_) hresults
      cases hq
    | unshown => exact .failed

/-- The analyst gets rows or a failure. -/
theorem analyst_acts (room : Room) (source : ResultsTool.Source) (index : Int) (text : String)
    (d : Docket) (calls : List StoreCall) :
    Acts index d .analyst (analyst room source index text d calls).turn
      (analyst room source index text d calls).docket := by
  unfold analyst
  split
  · exact .failed
  · exact .refused ⟨rfl, rfl⟩ (by simp) (by simp)
  · rename_i call hfind
    have hname : call.name = ResultsTool.name := ToolCall.name_eq_of_find hfind
    have hroute : some call.name ≠ some RouteTool.name := by
      rw [hname]
      decide
    dsimp only
    rcases ResultsTool.run_cases room source (.object call.arguments) d calls with
      ⟨rows, hret, hdocket, -⟩ |
        ⟨hdocket, ⟨message, hret⟩ | ⟨fault, -, -, -, -, -, hret⟩ | ⟨-, hret⟩⟩
    · rw [hret, hdocket]
      exact .returned ⟨rfl, rfl⟩ (congrArg some hname) rfl
    · rw [hret, hdocket]
      refine .refused ⟨rfl, rfl⟩ hroute fun _ => ?_
      simp [Turn.toolError?, ResultsTool.queryFailure, failure, Value.field?, Fields.get?]
    all_goals
      rw [hret, hdocket]
      exact .failed

/-- Every turn acts as its participant does. -/
theorem ofReply_acts (room : Room) (source : ResultsTool.Source) (p : Participant) (index : Int)
    (reply : Reply) (d : Docket) (calls : List StoreCall) :
    Acts index d p (ofReply room source p index reply d calls).turn
      (ofReply room source p index reply d calls).docket := by
  unfold ofReply
  split
  · exact .failed
  · cases p with
    | supervisor => exact supervisor_acts room index _ d calls
    | analyst => exact analyst_acts room source index _ d calls
    | summary => exact .answered ⟨rfl, rfl⟩ rfl

/-- The arguments of a call to the participant's tool are refused, and the log cannot show that. -/
def Unshown (room : Room) : Participant → Value → Prop
  | .supervisor, arguments => ¬ room.ShowsRefused (RouteChoice.read arguments)
  | .analyst, arguments => ¬ room.ShowsRefused (Specification.read arguments)
  | .summary, _ => False

/-- Why the action of a participant fails on a reply. -/
inductive Fails (room : Room) (source : ResultsTool.Source) (p : Participant) (reply : Reply) :
    RunError → Prop
  /-- There is no text. -/
  | silent {fault : Fault} (raised : reply.text = .error fault) :
      Fails room source p reply (.fault fault)
  /-- The text exceeds a limit of the reader. -/
  | beyond {text : String} {limit : Json.Limit} (searched : p ≠ .summary)
      (wrote : reply.text = .ok text) (found : ToolCall.find room p.tools text = .error limit) :
      Fails room source p reply (.unreadable limit)
  /-- The arguments of the call were refused, and there is no room to show them in the log. -/
  | unshown {text : String} {call : ToolCall} (wrote : reply.text = .ok text)
      (found : ToolCall.find room p.tools text = .ok (some call))
      (refused : Unshown room p (.object call.arguments)) : Fails room source p reply (.fault .tooDeep)
  /-- The store was called off. -/
  | calledOff {store : Store} {asked : List StoreCall} {fault : Fault}
      (configured : source.store? = some store) (raised : store asked = .error fault)
      (cancellation : fault.isCancellation = true) : Fails room source p reply (.fault fault)

/-- An action that fails does so for one of these reasons. -/
theorem fails_of_error {source : ResultsTool.Source} {p : Participant} {index : Int} {reply : Reply}
    {d : Docket} {calls : List StoreCall} {e : RunError}
    (h : (ofReply room source p index reply d calls).turn = .error e) :
    Fails room source p reply e := by
  unfold ofReply at h
  split at h
  · rename_i fault htext
    obtain rfl := Except.error.inj h
    exact .silent htext
  · rename_i text htext
    cases p with
    | supervisor =>
      dsimp only [take] at h
      unfold supervisor at h
      split at h
      · rename_i limit hfind
        obtain rfl := Except.error.inj h
        exact .beyond (by decide) htext hfind
      · cases h
      · rename_i call hfind
        have hruns := RouteTool.runs room (.object call.arguments) d
        dsimp only at h
        generalize RouteTool.run room (.object call.arguments) d = routed at hruns h
        cases hruns with
        | selected | nobody => cases h
        | unshown hrefused =>
          obtain rfl := Except.error.inj h
          exact .unshown htext hfind hrefused
    | analyst =>
      dsimp only [take] at h
      unfold analyst at h
      split at h
      · rename_i limit hfind
        obtain rfl := Except.error.inj h
        exact .beyond (by decide) htext hfind
      · cases h
      · rename_i call hfind
        dsimp only at h
        split at h
        · rename_i fault hreturned
          obtain rfl := Except.error.inj h
          rcases ResultsTool.run_cases room source (.object call.arguments) d calls with
            ⟨rows, hrows, -⟩ | ⟨-, ⟨message, hmessage⟩ |
              ⟨fault', store, asked, hstore, hraised, hcancelled, hfault⟩ | ⟨hrefused, hdeep⟩⟩
          · cases hreturned.symm.trans hrows
          · cases hreturned.symm.trans hmessage
          · obtain rfl := Except.error.inj (hreturned.symm.trans hfault)
            exact .calledOff hstore hraised hcancelled
          · obtain rfl := Except.error.inj (hreturned.symm.trans hdeep)
            exact .unshown htext hfind hrefused
        · cases h
    | summary => cases h

/-- A text that exceeds a limit of the reader makes the action fail, unless it is the answer. -/
theorem turn_of_beyond {p : Participant} {reply : Reply} {text : String} {limit : Json.Limit}
    (hp : p ≠ .summary) (htext : reply.text = .ok text)
    (hfind : ToolCall.find room p.tools text = .error limit) (source : ResultsTool.Source)
    (index : Int) (d : Docket) (calls : List StoreCall) :
    (ofReply room source p index reply d calls).turn = .error (.unreadable limit) := by
  unfold ofReply
  rw [htext]
  cases p with
  | supervisor =>
    dsimp only [take]
    unfold supervisor
    rw [hfind]
  | analyst =>
    dsimp only [take]
    unfold analyst
    rw [hfind]
  | summary => exact absurd rfl hp

/-- A call whose arguments are refused makes the action fail if the log cannot show them. -/
theorem turn_of_unshown {p : Participant} {reply : Reply} {text : String} {call : ToolCall}
    (htext : reply.text = .ok text) (hfind : ToolCall.find room p.tools text = .ok (some call))
    (hrefused : Unshown room p (.object call.arguments)) (source : ResultsTool.Source) (index : Int)
    (d : Docket) (calls : List StoreCall) :
    (ofReply room source p index reply d calls).turn = .error (.fault .tooDeep) := by
  unfold ofReply
  rw [htext]
  cases p with
  | supervisor =>
    have hruns := RouteTool.runs room (.object call.arguments) d
    dsimp only [take]
    unfold supervisor
    rw [hfind]
    dsimp only
    generalize RouteTool.run room (.object call.arguments) d = routed at hruns
    cases hruns with
    | selected hread =>
      refine absurd ?_ hrefused
      rw [hread]
      trivial
    | nobody _ hshown => exact absurd hshown hrefused
    | unshown => rfl
  | analyst =>
    dsimp only [take]
    unfold analyst
    rw [hfind]
    dsimp only
    rw [ResultsTool.run_unshown source d calls hrefused]
  | summary => exact absurd hrefused not_false

/-- The supervisor does not ask the store. -/
theorem supervisor_calls (room : Room) (index : Int) (text : String) (d : Docket)
    (calls : List StoreCall) : (supervisor room index text d calls).calls = calls := by
  unfold supervisor
  split
  · rfl
  · rfl
  · dsimp only
    split <;> rfl

/-- The rows after an action are those before it, or the store returned them. -/
theorem results_of_ofReply (room : Room) (source : ResultsTool.Source) (p : Participant) (index : Int)
    (reply : Reply) (d : Docket) (calls : List StoreCall) :
    (ofReply room source p index reply d calls).docket.inquiry.results = d.inquiry.results ∨
      ∃ store asked, source.store? = some store ∧
        store asked = .ok (ofReply room source p index reply d calls).docket.inquiry.results := by
  unfold ofReply
  split
  · exact Or.inl rfl
  · rename_i text _
    cases p with
    | supervisor =>
      have hacts := supervisor_acts room index text d calls
      dsimp only [take]
      generalize (supervisor room index text d calls).turn = turn,
        (supervisor room index text d calls).docket = d' at hacts
      cases hacts with
      | failed | undecided => exact Or.inl rfl
      | routed => exact Or.inl (by simp [Docket.inquiry_apply, RouteTool.update, Update.applyTo])
    | analyst =>
      dsimp only [take]
      unfold analyst
      split
      · exact Or.inl rfl
      · exact Or.inl rfl
      · rename_i call _
        rcases ResultsTool.run_cases room source (.object call.arguments) d calls with
          ⟨rows, hret, hdocket, store, asked, hstore, hreturned⟩ | ⟨hdocket, -⟩
        · refine Or.inr ⟨store, asked, hstore, hreturned.trans (congrArg Except.ok ?_)⟩
          dsimp only
          rw [hret, hdocket]
          simp [Docket.inquiry_apply, ResultsTool.update, Update.applyTo]
        · refine Or.inl ?_
          dsimp only
          split <;> rw [hdocket]
    | summary => exact Or.inl rfl

end Action

end MeetDesk
