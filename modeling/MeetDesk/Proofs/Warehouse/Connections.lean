import MeetDesk.Warehouse
import Mathlib.Data.List.Forall2
import Mathlib.Data.List.Infix

/-!
# Connections and failures of the warehouse

A call connects, and if it is let in it asks and closes; nothing else passes between the library and the
warehouse (`Warehouse.answered_ask`). That connections do not leak is said of every beginning of what has
passed, not only of what passed once a call is over (`Warehouse.Holds`).
-/

namespace MeetDesk

/-- Whether a value is null, a truth value, a number or a text. -/
def Value.isPlain : Value → Bool
  | .null | .bool _ | .int _ | .float _ | .text _ | .participant _ => true
  | .date _ | .moment _ | .decimal _ | .uuid _ | .bytes _ | .list _ | .tuple _ | .object _ => false

namespace Warehouse

variable {w : Warehouse} {address : WarehouseAddress} {call : StoreCall} {past : List Contact}
  {outcome : Except Fault (List Row)} {added : List Contact}

/-! ## Plain cells -/

/-- What a row of the store has in the place of a cell of the warehouse: a cell under the same name, which is
as it was if it was plain and is a text if not. -/
structure IsPlainOf (given answered : String × Value) : Prop where
  name : answered.1 = given.1
  kept : given.2.isPlain = true → answered.2 = given.2
  displayed : given.2.isPlain = false → answered.2 = .text given.2.display

theorem plainCell_of_isPlain {v : Value} (h : v.isPlain = true) : plainCell v = v := by
  cases v <;> first | rfl | cases h

theorem plainCell_of_not_isPlain {v : Value} (h : v.isPlain = false) :
    plainCell v = .text v.display := by
  cases v <;> first | rfl | cases h

theorem plainCell_plainCell (v : Value) : plainCell (plainCell v) = plainCell v := by
  cases v <;> rfl

/-- Putting a row in plain form once more changes nothing. -/
theorem plainRow_plainRow (row : Row) : plainRow (plainRow row) = plainRow row := by
  unfold plainRow
  rw [List.map_map]
  refine List.map_congr_left fun cell _ => ?_
  exact Prod.ext rfl (plainCell_plainCell cell.2)

/-- The rows of the store are those of the warehouse, cell by cell. -/
theorem isPlainOf_rows (rows : List Row) :
    List.Forall₂ (List.Forall₂ IsPlainOf) rows (rows.map plainRow) := by
  refine List.forall₂_map_right_iff.mpr (List.forall₂_same.mpr fun row _ => ?_)
  refine List.forall₂_map_right_iff.mpr (List.forall₂_same.mpr fun cell _ => ?_)
  exact ⟨rfl, plainCell_of_isPlain, plainCell_of_not_isPlain⟩

/-! ## Failures -/

/-- What a failure becomes: one of the store that says the given words, if it is the warehouse's or the
system's own. -/
def translated (said : String) (f : Fault) : Fault := if isOwn f then storeFault said else f

/-- A call meets a failure, and this is said of it if it becomes one of the store. -/
inductive Raises (w : Warehouse) (address : WarehouseAddress) (call : StoreCall)
    (past : List Contact) : Fault → String → Prop where
  /-- The attempt to connect fails. -/
  | connecting {f : Fault} (refused : w.admits (past ++ [.connect address]) = .error f) :
      Raises w address call past f ("Could not connect to ClickHouse: " ++ f.message)
  /-- The query fails. -/
  | querying {f : Fault} (admitted : w.admits (past ++ [.connect address]) = .ok ())
      (failed : w.answers (past ++ [.connect address, .query call]) = .error f) :
      Raises w address call past f f.message

/-- A failure of the store is a translated one, unless it was one from the start. -/
theorem translated_eq_storeFault {said : String} {f : Fault} :
    (∃ message, translated said f = storeFault message) ↔
      isOwn f = true ∨ ∃ message, f = storeFault message := by
  unfold translated
  cases isOwn f <;> simp

/-! ## One call -/

/-- What passes between the library and the warehouse in a call that is let in. The end of the connection is
awaited if it takes time. -/
def exchange (w : Warehouse) (address : WarehouseAddress) (call : StoreCall) (past : List Contact) :
    List Contact :=
  [.connect address, .query call, .close (w.lingers (past ++ [.connect address, .query call]))]

/-- The ways in which a call with a host comes out, each with the contacts that it adds. -/
inductive Answered (w : Warehouse) (address : WarehouseAddress) (call : StoreCall)
    (past : List Contact) : Except Fault (List Row) → List Contact → Prop where
  | refused {f : Fault} (refused : w.admits (past ++ [.connect address]) = .error f) :
      Answered w address call past
        (.error (translated ("Could not connect to ClickHouse: " ++ f.message) f)) [.connect address]
  | failed {f : Fault} (admitted : w.admits (past ++ [.connect address]) = .ok ())
      (failed : w.answers (past ++ [.connect address, .query call]) = .error f) :
      Answered w address call past (.error (translated f.message f)) (w.exchange address call past)
  | returned {rows : List Row} (admitted : w.admits (past ++ [.connect address]) = .ok ())
      (returned : w.answers (past ++ [.connect address, .query call]) = .ok rows) :
      Answered w address call past (.ok (rows.map plainRow)) (w.exchange address call past)

/-- A client that is not let in has made its attempt. -/
theorem openOn_refused {f : Fault} (hhost : address.host ≠ "")
    (h : w.admits (past ++ [.connect address]) = .error f) :
    Client.openOn w { address } past =
      (.error (translated ("Could not connect to ClickHouse: " ++ f.message) f),
        past ++ [.connect address]) := by
  unfold Client.openOn translated
  dsimp only
  rw [if_neg (by simpa using hhost), h]
  dsimp only
  split <;> rfl

/-- A client that is let in is open. -/
theorem openOn_admitted (hhost : address.host ≠ "")
    (h : w.admits (past ++ [.connect address]) = .ok ()) :
    Client.openOn w { address } past =
      (.ok { address, isOpen := true }, past ++ [.connect address]) := by
  unfold Client.openOn
  dsimp only
  rw [if_neg (by simpa using hhost), h]

/-- A call that is not let in ends with its attempt. -/
theorem ask_refused {f : Fault} (hhost : address.host ≠ "")
    (h : w.admits (past ++ [.connect address]) = .error f) :
    w.ask address call past =
      (.error (translated ("Could not connect to ClickHouse: " ++ f.message) f),
        past ++ [.connect address]) := by
  unfold ask
  rw [openOn_refused hhost h]

/-- A call that is let in closes what it opened, whatever its query came to. -/
theorem ask_admitted (hhost : address.host ≠ "")
    (h : w.admits (past ++ [.connect address]) = .ok ()) :
    w.ask address call past =
      (match w.answers (past ++ [.connect address, .query call]) with
        | .ok rows => .ok (rows.map plainRow)
        | .error f => .error (translated f.message f),
        past ++ w.exchange address call past) := by
  have hasked : past ++ [.connect address] ++ [.query call] = past ++ [.connect address, .query call] :=
    List.append_assoc ..
  unfold ask
  rw [openOn_admitted hhost h]
  unfold Client.query Client.close exchange
  dsimp only
  rw [hasked]
  cases w.answers (past ++ [.connect address, .query call]) with
  | error f => simp [translated]
  | ok rows => simp

/-- A call with a host comes out in one of the three ways. -/
theorem answered_ask (w : Warehouse) (hhost : address.host ≠ "") (call : StoreCall)
    (past : List Contact) :
    ∃ added, (w.ask address call past).2 = past ++ added ∧
      Answered w address call past (w.ask address call past).1 added := by
  cases hadmits : w.admits (past ++ [.connect address]) with
  | error f =>
    rw [ask_refused hhost hadmits]
    exact ⟨_, rfl, .refused hadmits⟩
  | ok =>
    rw [ask_admitted hhost hadmits]
    cases hanswers : w.answers (past ++ [.connect address, .query call]) with
    | error f => exact ⟨_, rfl, .failed hadmits hanswers⟩
    | ok rows => exact ⟨_, rfl, .returned hadmits hanswers⟩

/-- A call that meets a failure ends with it, translated. -/
theorem Answered.error_of_raises {f : Fault} {said : String}
    (h : Answered w address call past outcome added) (hraises : w.Raises address call past f said) :
    outcome = .error (translated said f) := by
  cases hraises with
  | connecting hrefused =>
    cases h with
    | refused hrefused' =>
      obtain rfl := Except.error.inj (hrefused'.symm.trans hrefused)
      rfl
    | failed hadmitted => cases hadmitted.symm.trans hrefused
    | returned hadmitted => cases hadmitted.symm.trans hrefused
  | querying hadmitted hfailed =>
    cases h with
    | refused hrefused => cases hadmitted.symm.trans hrefused
    | failed _ hfailed' =>
      obtain rfl := Except.error.inj (hfailed'.symm.trans hfailed)
      rfl
    | returned _ hreturned => cases hreturned.symm.trans hfailed

/-- A call ends with what the warehouse failed with, or else with the rows that it returned. -/
theorem Answered.cases_raises (h : Answered w address call past outcome added) :
    (∃ f said, w.Raises address call past f said ∧ outcome = .error (translated said f)) ∨
      ∃ rows, w.answers (past ++ [.connect address, .query call]) = .ok rows ∧
        outcome = .ok (rows.map plainRow) := by
  cases h with
  | refused hrefused => exact Or.inl ⟨_, _, .connecting hrefused, rfl⟩
  | failed hadmitted hfailed => exact Or.inl ⟨_, _, .querying hadmitted hfailed, rfl⟩
  | returned _ hreturned => exact Or.inr ⟨_, hreturned, rfl⟩

/-- A call fails exactly with the failures that it meets, translated. -/
theorem Answered.error_iff {g : Fault} (h : Answered w address call past outcome added) :
    outcome = .error g ↔ ∃ f said, w.Raises address call past f said ∧ g = translated said f := by
  constructor
  · intro hg
    rcases h.cases_raises with ⟨f, said, hraises, herror⟩ | ⟨rows, -, hok⟩
    · exact ⟨f, said, hraises, Except.error.inj (hg.symm.trans herror)⟩
    · cases hg.symm.trans hok
  · rintro ⟨f, said, hraises, rfl⟩
    exact h.error_of_raises hraises

/-- A call that is let in asks and closes, and one that is not does neither. -/
theorem Answered.added_eq (h : Answered w address call past outcome added) :
    added = if (w.admits (past ++ [.connect address])).isOk then
      w.exchange address call past else [.connect address] := by
  cases h with
  | refused hrefused => rw [hrefused]; rfl
  | failed hadmitted => rw [hadmitted]; rfl
  | returned hadmitted => rw [hadmitted]; rfl

/-! ## What is open -/

/-- The latest of the contacts opened a connection. -/
def opens (w : Warehouse) (past : List Contact) : Bool :=
  match past.getLast? with
  | some (.connect _) => (w.admits past).isOk
  | _ => false

/-- The number of connections that were opened. -/
def opened (w : Warehouse) (past : List Contact) : Nat := past.inits.countP w.opens

/-- Nothing was closed that was not open, never was more than one connection open, and now one is or none
is. -/
structure Holds (w : Warehouse) (past : List Contact) (held : Bool) : Prop where
  closes_le : ∀ seen, seen <+: past → Contact.closes seen ≤ w.opened seen
  opened_le : ∀ seen, seen <+: past → w.opened seen ≤ Contact.closes seen + 1
  balance : w.opened past = Contact.closes past + held.toNat

/-- A contact opens one connection more, or none. -/
theorem opened_concat (w : Warehouse) (past : List Contact) (c : Contact) :
    w.opened (past ++ [c]) = w.opened past + (w.opens (past ++ [c])).toNat := by
  unfold opened
  rw [List.inits_append, List.countP_append]
  cases h : w.opens (past ++ [c]) <;> simp [h]

theorem opens_connect (w : Warehouse) (past : List Contact) (address : WarehouseAddress) :
    w.opens (past ++ [.connect address]) = (w.admits (past ++ [.connect address])).isOk := by
  unfold opens
  rw [List.getLast?_concat]

theorem opens_query (w : Warehouse) (past : List Contact) (call : StoreCall) :
    w.opens (past ++ [.query call]) = false := by
  unfold opens
  rw [List.getLast?_concat]

theorem opens_close (w : Warehouse) (past : List Contact) (awaited : Bool) :
    w.opens (past ++ [.close awaited]) = false := by
  unfold opens
  rw [List.getLast?_concat]

theorem closes_append (past later : List Contact) :
    Contact.closes (past ++ later) = Contact.closes past + Contact.closes later := by
  unfold Contact.closes
  rw [List.filter_append, List.length_append]

/-- At the start nothing is open. -/
theorem holds_nil (w : Warehouse) : w.Holds [] false where
  closes_le seen h := by rw [List.prefix_nil.mp h]; exact Nat.zero_le _
  opened_le seen h := by rw [List.prefix_nil.mp h]; exact Nat.zero_le _
  balance := rfl

/-- The bounds hold on if the balance does. -/
theorem Holds.concat {held held' : Bool} {c : Contact} (h : w.Holds past held)
    (hbalance : w.opened (past ++ [c]) = Contact.closes (past ++ [c]) + held'.toNat) :
    w.Holds (past ++ [c]) held' := by
  have hone : held'.toNat ≤ 1 := Bool.toNat_le held'
  refine ⟨fun seen hseen => ?_, fun seen hseen => ?_, hbalance⟩
  · rcases List.prefix_concat_iff.mp hseen with rfl | hseen
    · omega
    · exact h.closes_le seen hseen
  · rcases List.prefix_concat_iff.mp hseen with rfl | hseen
    · omega
    · exact h.opened_le seen hseen

/-- An attempt opens a connection if it is let in. -/
theorem Holds.connect (h : w.Holds past false) (address : WarehouseAddress) :
    w.Holds (past ++ [.connect address]) (w.admits (past ++ [.connect address])).isOk := by
  refine h.concat ?_
  rw [opened_concat, opens_connect, closes_append, h.balance]
  rfl

/-- A query opens and closes nothing. -/
theorem Holds.query {held : Bool} (h : w.Holds past held) (call : StoreCall) :
    w.Holds (past ++ [.query call]) held := by
  refine h.concat ?_
  rw [opened_concat, opens_query, closes_append, h.balance]
  rfl

/-- The end of the open connection leaves none open. -/
theorem Holds.close (h : w.Holds past true) (awaited : Bool) :
    w.Holds (past ++ [.close awaited]) false := by
  refine h.concat ?_
  rw [opened_concat, opens_close, closes_append, h.balance]
  rfl

/-! ## Calls in a row -/

/-- What has passed after some calls. -/
def contacts (w : Warehouse) (address : WarehouseAddress) (calls : List StoreCall) : List Contact :=
  calls.foldl (fun past call => (w.ask address call past).2) []

theorem contacts_concat (w : Warehouse) (address : WarehouseAddress) (before : List StoreCall)
    (call : StoreCall) :
    w.contacts address (before ++ [call]) =
      (w.ask address call (w.contacts address before)).2 := by
  unfold contacts
  rw [List.foldl_append, List.foldl_cons, List.foldl_nil]

/-- A call that finds no connection open leaves none open. -/
theorem Holds.ask (h : w.Holds past false) (hhost : address.host ≠ "") (call : StoreCall) :
    w.Holds (w.ask address call past).2 false := by
  have hconnected := h.connect address
  obtain ⟨added, hadded, hanswered⟩ := answered_ask w hhost call past
  have hclosed : w.admits (past ++ [.connect address]) = .ok () →
      w.Holds (past ++ w.exchange address call past) false := by
    intro hadmitted
    rw [hadmitted] at hconnected
    have hended := (hconnected.query call).close (w.lingers (past ++ [.connect address, .query call]))
    simpa [exchange] using hended
  rw [hadded]
  generalize (w.ask address call past).1 = outcome at hanswered
  cases hanswered with
  | refused hrefused =>
    rw [hrefused] at hconnected
    exact hconnected
  | failed hadmitted => exact hclosed hadmitted
  | returned hadmitted => exact hclosed hadmitted

/-- Between calls no connection is open. The induction is on the calls. -/
theorem holds_contacts (w : Warehouse) (hhost : address.host ≠ "") (calls : List StoreCall) :
    w.Holds (w.contacts address calls) false := by
  induction calls using List.reverseRecOn with
  | nil => exact holds_nil w
  | append_singleton before call ih =>
    rw [contacts_concat]
    exact ih.ask hhost call

/-- In every row of calls with a host, whatever the warehouse does, no connection is open before or after
a call and never more than one is, and nothing is closed that is not open: a call that is let in closes
and awaits the end of the connection if it takes time, one that is not adds no more than its attempt. A
call fails with what the warehouse failed with, which has become a failure of the store exactly if it was
the warehouse's or the system's own. Otherwise it returns the rows in order, cell by cell, and they are
plain. -/
theorem ask_connections (w : Warehouse) (address : WarehouseAddress) (hhost : address.host ≠ "")
    (before : List StoreCall) (call : StoreCall) :
    let past := w.contacts address before
    let outcome := (w.ask address call past).1
    w.Holds past false ∧ w.Holds (w.contacts address (before ++ [call])) false ∧
      w.contacts address (before ++ [call]) = past ++
        (if (w.admits (past ++ [.connect address])).isOk then
          [.connect address, .query call, .close (w.lingers (past ++ [.connect address, .query call]))]
        else [.connect address]) ∧
      (∀ g, outcome = .error g ↔
        ∃ f said, w.Raises address call past f said ∧ g = if isOwn f then storeFault said else f) ∧
      ((∃ message, outcome = .error (storeFault message)) ↔
        ∃ f said, w.Raises address call past f said ∧
          (isOwn f = true ∨ ∃ message, f = storeFault message)) ∧
      ((¬ ∃ f said, w.Raises address call past f said) →
        ∃ rows answered, w.answers (past ++ [.connect address, .query call]) = .ok rows ∧
          outcome = .ok answered ∧ List.Forall₂ (List.Forall₂ IsPlainOf) rows answered ∧
          answered.map plainRow = answered) := by
  intro past outcome
  obtain ⟨added, hadded, hanswered⟩ := answered_ask w hhost call past
  refine ⟨holds_contacts w hhost before, holds_contacts w hhost (before ++ [call]), ?_,
    fun g => hanswered.error_iff, ?_, fun hquiet => ?_⟩
  · rw [contacts_concat]
    exact hadded.trans (congrArg (past ++ ·) hanswered.added_eq)
  · constructor
    · rintro ⟨message, hmessage⟩
      obtain ⟨f, said, hraises, htranslated⟩ := hanswered.error_iff.mp hmessage
      exact ⟨f, said, hraises, translated_eq_storeFault.mp ⟨message, htranslated.symm⟩⟩
    · rintro ⟨f, said, hraises, hown⟩
      obtain ⟨message, htranslated⟩ := translated_eq_storeFault.mpr hown
      exact ⟨message, hanswered.error_iff.mpr ⟨f, said, hraises, htranslated.symm⟩⟩
  · rcases hanswered.cases_raises with ⟨f, said, hraises, -⟩ | ⟨rows, hrows, hok⟩
    · exact absurd ⟨f, said, hraises⟩ hquiet
    · refine ⟨rows, _, hrows, hok, isPlainOf_rows rows, ?_⟩
      rw [List.map_map]
      exact List.map_congr_left fun row _ => plainRow_plainRow row

/-- A warehouse that lets in the first who comes, and nobody after. -/
def firstServed : Warehouse where
  admits past := if past.length = 1 then .ok () else .error ⟨.system, "OSError", some "busy"⟩
  answers _ := .ok [[("heat", .int 3), ("swum_on", .uuid "00")]]
  lingers past := past.length = 2

/-- A question to the warehouse at the host `db`. -/
def heats : StoreCall := ⟨"SELECT heat, swum_on FROM meets", []⟩

theorem ask_connections_firstServed :
    let address : WarehouseAddress := { host := "db" }
    firstServed.contacts address [heats] = [.connect address, .query heats, .close true] ∧
      firstServed.contacts address [heats, heats] =
        [.connect address, .query heats, .close true, .connect address] ∧
      firstServed.Holds (firstServed.contacts address [heats, heats]) false ∧
      (firstServed.ask address heats []).1.isOk = true ∧
      (firstServed.ask address heats (firstServed.contacts address [heats])).1 =
        .error (storeFault "Could not connect to ClickHouse: busy") := by
  intro address
  have hhost : address.host ≠ "" := by decide
  obtain ⟨-, -, hfirst, -, -, hanswered⟩ := ask_connections firstServed address hhost [] heats
  obtain ⟨-, hholds, hsecond, herror, -, -⟩ := ask_connections firstServed address hhost [heats] heats
  have hcontacts : firstServed.contacts address [heats] = [.connect address, .query heats, .close true] :=
    hfirst
  have hrefused : firstServed.admits (firstServed.contacts address [heats] ++ [.connect address]) =
      .error ⟨.system, "OSError", some "busy"⟩ := by
    rw [hcontacts]
    rfl
  have hquiet : ¬ ∃ f said, firstServed.Raises address heats [] f said := by
    rintro ⟨f, said, ⟨hrefused⟩ | ⟨-, hfailed⟩⟩
    · cases hrefused
    · cases hfailed
  refine ⟨hcontacts, ?_, hholds, ?_, (herror _).mpr ⟨_, _, .connecting hrefused, rfl⟩⟩
  · rw [hrefused, hcontacts] at hsecond
    exact hsecond
  · obtain ⟨rows, answered, -, hok, -⟩ := hanswered hquiet
    have hfirstCall : (firstServed.ask address heats []).1 = .ok answered := hok
    rw [hfirstCall]
    rfl

end Warehouse

end MeetDesk
