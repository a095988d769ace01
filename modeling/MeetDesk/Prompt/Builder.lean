import MeetDesk.Json.Printer
import MeetDesk.Prompt.Schema
import MeetDesk.Room
import MeetDesk.Tool.Results
import MeetDesk.Tool.Route

/-!
# Prompts

The texts that the agents are shown, one per turn. A prompt depends on the inquiry and on the failed
queries of the transcript and on nothing else. The rows always stand on one line.

What a prompt says is one thing, and whether it can be written is another: there has to be room for each
row, and none of its integers may be too long. `Prompt.build` is what a prompt says, `Prompt.write?` is the
prompt where it can be written.
-/

namespace MeetDesk.Prompt

/-- The line that holds the rows. -/
def rowsLine (q : Inquiry) : String := (Value.list (q.results.map Value.object)).toJson

/-- The failed queries as the items of a list. -/
def errorItems (transcript : Transcript) : List String :=
  (ResultsTool.errors transcript).map fun e => "- " ++ e

/-- Lines, each with its line feed. -/
def unlines (lines : List String) : String := String.intercalate "\n" lines ++ "\n"

/-- A section that lists the failed queries, if there are any. -/
def errorSection (transcript : Transcript) : List String :=
  match errorItems transcript with
  | [] => []
  | items => ["", "## Query Errors"] ++ items

/-- The prompt for the supervisor. -/
def supervisor (q : Inquiry) (transcript : Transcript) : String :=
  unlines (["## User Question", q.question, "", "## Meet Results Retrieved So Far", rowsLine q] ++
    errorSection transcript ++
    ["", "## Tool Schema", RouteTool.name ++ ": " ++ Schema.routing.toJson, "",
      "Call " ++ RouteTool.name ++ " now."])

/-- The prompt for the analyst. -/
def analyst (q : Inquiry) : String :=
  unlines ["## User Question", q.question, "", "## Available Columns",
    String.intercalate ", " (Column.all.map Column.label), "", "## Tool",
    ResultsTool.name ++ ": " ++ ResultsTool.description,
    "Arguments schema: " ++ Schema.results.toJson, "",
    "Respond with the " ++ ResultsTool.name ++ " call as a JSON object."]

/-- The line that gives the reason for the routing decision, if there is one. -/
def reasoningLine (q : Inquiry) : List String :=
  match q.reasoning? with
  | none => []
  | some reason => if reason.isEmpty then [] else ["Routing reasoning: " ++ reason]

/-- What the summary agent is told about a question on powerlifting. -/
def inDomainLines (q : Inquiry) (transcript : Transcript) : List String :=
  ["", "This is a powerlifting-related question. Here is the data retrieved:", "",
    "## Meet Results", rowsLine q] ++ errorSection transcript ++
    ["", "Answer from this data. If it is empty or insufficient, explain what is needed."]

/-- What the summary agent is told about any other question. -/
def otherLines : List String :=
  ["", "This is not a powerlifting-related question. Respond helpfully and note " ++
    "that you specialize in powerlifting data analysis."]

/-- The prompt for the summary agent. -/
def summary (q : Inquiry) (transcript : Transcript) : String :=
  let related := decide (q.inDomain? ≠ some false)
  unlines (["## Original User Question", q.question, "",
      "Query type: " ++ (if related then "Powerlifting-related" else "Non-powerlifting")] ++
    reasoningLine q ++ (if related then inDomainLines q transcript else otherLines))

/-- The prompt for a participant. -/
def build : Participant → Inquiry → Transcript → String
  | .supervisor, q, transcript => supervisor q transcript
  | .analyst, q, _ => analyst q
  | .summary, q, transcript => summary q transcript

/-- The prompt for a participant, if the rows can be written. -/
def write? (room : Room) (p : Participant) (q : Inquiry) (transcript : Transcript) : Option String :=
  if ∀ row ∈ q.results, room.Writes row then some (build p q transcript) else none

end MeetDesk.Prompt
