import MeetDesk.Inquiry
import MeetDesk.Room
import MeetDesk.Store
import MeetDesk.Turn

/-!
# The results tool

Compiles the analyst's specification, asks the store, and puts the rows into the inquiry. Whatever
goes wrong on the way comes back as a failure that the summary agent can explain, and the inquiry
stays as it was. What is passed on is a cancellation, and the failure of the log to show arguments that
were refused.
-/

namespace MeetDesk.ResultsTool

/-- The name of the tool. -/
def name : String := "get_meet_results"

/-- What the analyst is told about the tool. -/
def description : String :=
  "Returns available meet data based on a set of filters, sorting, and limits. " ++
    "Use this to find how lifters performed, compare them, or find lifters that " ++
    "meet certain criteria."

/-- What the tool reads from, and how strictly it takes a specification. -/
structure Source where
  /-- The store, if there is one. -/
  store? : Option Store
  /-- The table that is queried. -/
  table : String := Plan.defaultTable
  /-- Whether a clause on an unknown column is an error. -/
  strict : Bool := true

/-- What became of a call. -/
structure Outcome where
  /-- What the tool returned, or the fault that ended it. -/
  returned : Except Fault Value
  /-- The docket afterwards. -/
  docket : Docket
  /-- All calls that the store has received. -/
  calls : List StoreCall

/-- What the tool returns if it fails. -/
def queryFailure (message : String) : Value := failure ("Query failed: " ++ message)

/-- The update that puts rows into the inquiry. -/
def update (rows : List Row) : Update := { results? := some rows }

/-- Asks the store. -/
def ask (store : Store) (call : StoreCall) (d : Docket) (calls : List StoreCall) : Outcome :=
  let calls := calls ++ [call]
  match store calls with
  | .ok rows => ⟨.ok (.list (rows.map Value.object)), d.apply (update rows), calls⟩
  | .error fault =>
    if fault.isCancellation then ⟨.error fault, d, calls⟩
    else ⟨.ok (queryFailure fault.message), d, calls⟩

/-- Carries out a checked call. -/
def query (source : Source) (s : Specification) (d : Docket) (calls : List StoreCall) : Outcome :=
  match s.compile source.table source.strict with
  | .error e => ⟨.ok (queryFailure e.message), d, calls⟩
  | .ok compiled =>
    match source.store? with
    | none => ⟨.ok (queryFailure "no data store configured"), d, calls⟩
    | some store => ask store compiled.toCall d calls

/-- Carries out a call with unchecked arguments. What is refused is shown in the log first. -/
def run (room : Room) (source : Source) (arguments : Value) (d : Docket) (calls : List StoreCall) :
    Outcome :=
  match Specification.read arguments with
  | .valid s => query source s d calls
  | .invalid issues =>
    if room.Shows issues then
      let count := toString issues.length
      ⟨.ok (queryFailure ("invalid arguments: " ++ count ++ " validation error(s)")), d, calls⟩
    else ⟨.error .tooDeep, d, calls⟩

/-- The messages of the failed queries in a transcript, in order. -/
def errors (transcript : Transcript) : List String :=
  transcript.filterMap fun turn => if turn.tool? = some name then turn.toolError? else none

end MeetDesk.ResultsTool
