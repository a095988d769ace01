import MeetDesk.Desk.Action
import MeetDesk.Desk.Request
import MeetDesk.Desk.World
import MeetDesk.Prompt.Builder

/-!
# The desk

A desk answers questions. A run of it alternates between the router and the participants' turns until
the inquiry is complete or the turns are used up; every turn is reported and handed to the archive's
writer. `Desk.run` is a function of the request and of the world that it finds, and it recurs on the
turns that are left.

While a run waits, for an agent that takes its time or at its end for the writer, the writer catches
up, and a deadline may pass. A run never waits for less than a tick, so a deadline within the first
tick has passed when a run that has waited comes to wait again.

The rows that the store returns are taken to be ones that can be written into a prompt
(`Prompt.write?`): a row that is nested too deep, or that has an integer which is too long, would end the
run where the next prompt is built.
-/

namespace MeetDesk

/-- A desk: its agents, what its tools read from, and how it keeps its archive. -/
structure Desk where
  /-- The participants' agents. -/
  agent : Participant → Agent
  /-- What the results tool reads from. -/
  source : ResultsTool.Source
  /-- How the archive behaves, if there is one. -/
  archive? : Option ArchivePolicy := none
  /-- The most turns of a run. -/
  maxTurns : Nat := 12
  /-- The room there is for values in the texts that the agents write, and in the rows. -/
  room : Room := {}

/-- A run that is under way. -/
structure Run where
  /-- The number of the run. -/
  number : Nat
  /-- The world as the run has changed it. -/
  world : World
  /-- The inquiry and its updates. -/
  docket : Docket
  /-- The turns so far. -/
  transcript : Transcript := []
  /-- Who was selected to go next, if anybody. -/
  scheduled? : Option Participant := none
  /-- The writer, if there is a thread to write to. -/
  writer? : Option Writer := none
  /-- The seconds that are left, if there is a deadline. -/
  left? : Option Float := none
  /-- Whether the run has waited. -/
  waited : Bool := false

/-- What a run answers. -/
structure RunResult where
  /-- The text of the last turn of the summary agent. -/
  answer : String
  /-- The turns. -/
  turns : Transcript
  /-- The rows that the latest query returned. -/
  results : List Row
  /-- Whether the question was about powerlifting, if that was decided. -/
  inDomain? : Option Bool
  /-- The thread that the request named. -/
  threadId? : Option String

namespace Run

/-- Who goes next: whoever is scheduled, else whom the router chooses. -/
def next? (r : Run) : Option Participant := r.scheduled?.or (Routing.next? r.docket.inquiry)

/-- Reports a step of the run. -/
def report (r : Run) (p : Participant) (finished : Bool) : Run :=
  { r with world := { r.world with events := r.world.events ++ [⟨r.number, p, finished⟩] } }

/-- Hands something to the writer, if there is one. -/
def submit (r : Run) (s : Submission) : Run := { r with writer? := r.writer?.map (·.submit s) }

/-- Delivers a prompt to a participant's agent. -/
def deliver (r : Run) (p : Participant) (prompt : String) : Run :=
  { r with world := { r.world with inbox := r.world.inbox.receive p prompt } }

/-- The answer of a transcript: the text of its last turn of the summary agent. -/
def answerIn (transcript : Transcript) : String :=
  ((transcript.reverse.find? fun t => t.participant == .summary).map Turn.text).getD ""

/-- The seconds that a run needs at the least to come to where it waits. -/
def tick : Float := 0.0005

/-- Whether the deadline lies within a tick. -/
def isPressed (r : Run) : Bool :=
  match r.left? with
  | none => false
  | some left => !(tick < left)

/-- Whether the deadline passes while the run waits for the given seconds. Who waits for no time at all
goes on at once, the first time. -/
def isOverdueAfter (r : Run) (seconds : Float) : Bool :=
  if r.isPressed then !(seconds <= 0) || r.waited
  else
    match r.left? with
    | none => false
    | some left => left <= seconds

/-- What a completed run answers. -/
def result (r : Run) : RunResult :=
  { answer := answerIn r.transcript, turns := r.transcript, results := r.docket.inquiry.results,
    inDomain? := r.docket.inquiry.inDomain?, threadId? := r.docket.inquiry.threadId? }

end Run

namespace Desk

/-- Lets the writer catch up. -/
def catchUp (desk : Desk) (r : Run) : Run :=
  match desk.archive?, r.writer? with
  | some policy, some writer =>
    { r with
      world := { r.world with ledger := r.world.ledger.drain policy writer }
      writer? := some { writer with queue := [] } }
  | _, _ => r

/-- Waits. Nothing is gained from a pause that outlasts the deadline. -/
def wait (desk : Desk) (r : Run) (pause? : Option Float) : Except RunError Unit × Run :=
  match pause? with
  | none => (.ok (), r)
  | some seconds =>
    let r := desk.catchUp r
    if r.isOverdueAfter seconds then (.error .overdue, r)
    else
      let left? := r.left?.map fun left => if 0 < seconds then left - seconds else left
      (.ok (), { r with left?, waited := true })

/-- Lets a participant act: its agent is prompted, and its reply is acted upon. -/
def act (desk : Desk) (r : Run) (p : Participant) : Except RunError Turn × Run :=
  let r := r.deliver p (Prompt.build p r.docket.inquiry r.transcript)
  let reply := desk.agent p (r.world.inbox.of p)
  match desk.wait r reply.pause? with
  | (.error e, r) => (.error e, r)
  | (.ok (), r) =>
    let action :=
      Action.ofReply desk.room desk.source p r.transcript.length reply r.docket r.world.calls
    (action.turn,
      { r with docket := action.docket, world := { r.world with calls := action.calls } })

/-- Adds a turn to the run, and schedules whom a turn of the supervisor selected. -/
def record (r : Run) (turn : Turn) : Except RunError Unit × Run :=
  let r := { r with transcript := r.transcript ++ [turn] }.submit { turns := [turn] }
  match turn.participant with
  | .supervisor =>
    match Routing.selected? turn with
    | some p => (.ok (), { r with scheduled? := some p })
    | none => (.error (.noRoute turn.index), r)
  | _ => (.ok (), { r with scheduled? := none })

/-- One turn of a participant, reported at its start and at its end. -/
def turn (desk : Desk) (r : Run) (p : Participant) : Except RunError Unit × Run :=
  match desk.act (r.report p false) p with
  | (.error e, r) => (.error e, r.report p true)
  | (.ok turn, r) => record (r.report p true) turn

/-- Takes turns until nobody is next, with the given number of turns left. -/
def loop (desk : Desk) : (left : Nat) → Run → Except RunError Unit × Run
  | left, r =>
    match r.next? with
    | none => (.ok (), r)
    | some p =>
      match left with
      | 0 => (.error (.outOfTurns desk.maxTurns), r)
      | left + 1 =>
        match desk.turn r p with
        | (.error e, r) => (.error e, r)
        | (.ok (), r) => loop desk left r

/-- Creates the thread of a run and submits the question to it. A desk without an archive, or one
that cannot create the thread, runs without a writer. -/
def openThread (desk : Desk) (request : RunRequest) (r : Run) : Run :=
  match desk.archive? with
  | none => r
  | some policy =>
    if policy.refusesThreads then r
    else
      match r.world.ledger.archive.create (some request.threadId) with
      | (.error _, archive) =>
        { r with world := { r.world with ledger := { r.world.ledger with archive } } }
      | (.ok name, archive) =>
        { r with
          world := { r.world with ledger := { r.world.ledger with archive } }
          writer? := some { thread := name, queue := [{ message? := some request.input }] } }

/-- A run as it starts. -/
def start (desk : Desk) (world : World) (request : RunRequest) (deadline? : Option Float) : Run :=
  desk.openThread request
    { number := world.runs, world := { world with runs := world.runs + 1 },
      docket := { inquiry := request.toInquiry }, left? := deadline? }

/-- Waits for the writer at the end of a run. If the deadline passes meanwhile, a writer that was
overtaken before keeps what it still has. -/
def close (desk : Desk) (r : Run) : Except RunError Unit × World :=
  if r.writer?.isSome && r.isPressed then
    (.error .overdue, if r.waited then r.world else (desk.catchUp r).world)
  else (.ok (), (desk.catchUp r).world)

/-- Ends a run: its writer finishes, unless the run ended abruptly. -/
def finish (desk : Desk) : Except RunError Unit × Run → Except RunError RunResult × World
  | (.ok (), r) => ((desk.close r).1.map fun _ => r.result, (desk.close r).2)
  | (.error e, r) =>
    if e.isAbrupt then (.error e, r.world)
    else ((desk.close r).1.bind fun _ => .error e, (desk.close r).2)

/-- Runs the desk on a request. -/
def run (desk : Desk) (world : World) (request : RunRequest)
    (deadline? : Option Float := none) : Except RunError RunResult × World :=
  desk.finish (desk.loop desk.maxTurns (desk.start world request deadline?))

end Desk

end MeetDesk
