import MeetDesk.Http.Body
import MeetDesk.Http.Path
import MeetDesk.Http.Report
import MeetDesk.Json.Reader
import MeetDesk.Text.Case

/-!
# The application

Answers requests: one runs the desk, one reads a thread of the archive, one asks whether all is well.
A body that is no JSON is refused first, then a missing desk is reported, then the body is checked.
What a failed run failed of is never told to the caller.
-/

namespace MeetDesk.Http

/-- A request. -/
structure Request where
  /-- The method. -/
  method : String
  /-- The target, which may be percent-encoded and carry a query. -/
  target : String
  /-- The document in the body, if there is one. -/
  document? : Option String := none

/-- An answer. -/
structure Response where
  /-- The status. -/
  status : Nat
  /-- The body. -/
  body : Value

/-- The levels that there is room for in requests and answers. A report may have 255 levels below the
objects that it lists. The two others depend on the frames that the server has taken, and the defaults
leave fifty for it. -/
structure Levels where
  /-- The lists and objects, one inside of the other, of the document in a request. -/
  request : Nat := 950
  /-- The height of a report. -/
  report : Nat := 258
  /-- The height of a list of issues. -/
  issues : Nat := 950

/-- The application: the desk, if there is one, the seconds that a run may take, and the room for bodies. -/
structure App where
  /-- The desk. -/
  desk? : Option Desk
  /-- The seconds that a run may take. -/
  timeout : Float := 120
  /-- The levels that there is room for. -/
  levels : Levels := {}
  /-- What the desk's runs have left behind. -/
  world : World := {}

/-- The answer when none can be made. -/
def crashed : Response := ⟨500, .text "Internal Server Error"⟩

/-- An answer with a body that may or may not be sent. -/
def respond (status : Nat) : Option Value → Response
  | some body => ⟨status, body⟩
  | none => crashed

/-- An answer that reports. A float that is no finite number is sent as null. -/
def report (levels : Nat) (v : Value) : Response := respond 200 (send? levels .null v)

/-- An answer that only gives a reason. -/
def refuse (status : Nat) (reason : String) : Response := ⟨status, detail (.text reason)⟩

/-- An answer that lists issues. -/
def unprocessable (levels : Nat) (issues : List Value) : Response :=
  respond 422 (send? levels .refused (detail (.list issues)))

/-- An answer that sends the caller elsewhere. -/
def redirected : Response := ⟨307, .text ""⟩

/-- The answer to a run that failed. The caller gets an identifier under which it was recorded. -/
def failed (status : Nat) (reason : String) : Response :=
  ⟨status, .object [("status", .text failedStatus), ("error", .text reason),
    ("correlation_id", .text "<id>")]⟩

/-- The answer to a run that took too long. -/
def timedOut : Response := failed 504 "The request took too long. Please try again."

/-- The answer to a run that failed in any other way. -/
def broken : Response := failed 500 "An internal error occurred. Please try again."

/-- The answer to a run. A run that was called off has none. -/
def answerFor (levels : Nat) : Except RunError RunResult → Except Fault Response
  | .ok result => .ok (report levels ((RunReport.ofResult result).toValue .outer))
  | .error .overdue => .ok timedOut
  | .error (.fault f) =>
    match f.family with
    | .cancellation => .error f
    | .timeout => .ok timedOut
    | _ => .ok broken
  | .error _ => .ok broken

/-- The answer to a document that goes beyond what is read. -/
def unreadable : Response := refuse 400 "There was an error parsing the body"

/-- Reads the body of a request: nothing if it is absent or empty, else a value, or the answer to
a document that cannot be read. -/
def readBody (levels : Levels) (document? : Option String) : Except Response (Option Value) :=
  match document?.filter fun s => !s.isEmpty with
  | none => .ok none
  | some text =>
    match (Text.encodeUtf8? text.toList).bind Text.decodeDocument? with
    | none => .error unreadable
    | some document =>
      match Json.readDocument levels.request document with
      | .ok v => .ok (some v)
      | .error (.malformed flaw rest) =>
        .error (unprocessable levels.issues [malformedValue (Json.offset document rest) flaw])
      | .error (.beyond _) => .error unreadable

/-- Reads a request for a run from a body. -/
def readRunRequest (body? : Option Value) : Checked RunRequest :=
  match body? with
  | none => .fault .missing .null
  | some (.object fields) => RunRequest.ofFields fields
  | some v => .fault .notFields v

namespace App

/-- Runs the desk. With no time at all the run does not even start. -/
def startRun (app : App) (desk : Desk) (request : RunRequest) :
    Except Fault Response × App :=
  if app.timeout <= 0 then (.ok timedOut, app)
  else
    let ran := desk.run app.world request (some app.timeout)
    (answerFor app.levels.report ran.1, { app with world := ran.2 })

/-- Answers a request for a run. -/
def postRun (app : App) (document? : Option String) : Except Fault Response × App :=
  match readBody app.levels document? with
  | .error response => (.ok response, app)
  | .ok body? =>
    match app.desk? with
    | none => (.ok (refuse 503 "Network not initialized"), app)
    | some desk =>
      match readRunRequest body? with
      | .invalid issues => (.ok (unprocessable app.levels.issues (issues.map issueValue)), app)
      | .valid request => app.startRun desk request

/-- Answers a request for a thread. -/
def getThread (app : App) (name : String) : Response :=
  match app.desk?.bind Desk.archive? with
  | none => refuse 503 "History store not initialized"
  | some _ =>
    match app.world.ledger.archive.get name with
    | [] => refuse 404 "Thread not found"
    | entries =>
      let report : ThreadReport := { threadId := name, entries := entries.map Entry.toFields }
      Http.report app.levels.report (report.toValue .outer)

/-- Answers a request for the health of the application. -/
def getHealth (app : App) : Response :=
  report app.levels.report
    (.object [("status", .text "healthy"), ("network_ready", .bool app.desk?.isSome)])

/-- Answers a request to a resource. The description of the interface is not part of the library: its
body is left empty. -/
def serve (app : App) (resource : Resource) (document? : Option String) :
    Except Fault Response × App :=
  match resource with
  | .health => (.ok app.getHealth, app)
  | .thread name => (.ok (app.getThread name), app)
  | .runs => app.postRun document?
  | .manual => (.ok ⟨200, .text ""⟩, app)

/-- Answers a request by its method and its decoded path. -/
def route (app : App) (method : String) (path : List Char) (document? : Option String) :
    Except Fault Response × App :=
  match resourceAt? path with
  | some resource =>
    if resource.methods.contains method then app.serve resource document?
    else (.ok (refuse 405 "Method Not Allowed"), app)
  | none => (.ok (if isMisspelt path then redirected else refuse 404 "Not Found"), app)

/-- Answers a request. The answer to `HEAD` is sent without its body. -/
def handle (app : App) (request : Request) : Except Fault Response × App :=
  let method := String.ofList (Text.upper request.method.toList)
  let routed := app.route method (decodePath request.target) request.document?
  if method == "HEAD" then
    (routed.1.map fun response => { response with body := .text "" }, routed.2)
  else routed

end App

end MeetDesk.Http
