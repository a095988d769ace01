import MeetDesk.Desk.Roster
import MeetDesk.Prompt.Instructions
import MeetDesk.Settings
import MeetDesk.Warehouse

/-!
# Assembly

What the settings make of the application: which services are set up and with what, where the
warehouse is, and how the desk, the archive and the reporter are configured.
-/

namespace MeetDesk

/-- A service that is set up, with its options. -/
structure ServiceCall where
  /-- What is set up. -/
  kind : String
  /-- Its options. -/
  options : Fields

/-- Who hears of the steps of a run. -/
inductive ReporterKind where
  /-- The progress log. -/
  | log
  /-- Nobody. -/
  | silent
  deriving DecidableEq, Repr

/-- The parts of the application. -/
structure Assembly where
  /-- The services, in the order in which they are set up. -/
  services : List ServiceCall
  /-- Where the warehouse is. -/
  address : WarehouseAddress
  /-- The results table. -/
  table : String
  /-- Whether a clause on an unknown column is an error. -/
  strict : Bool
  /-- The most turns of a run. -/
  maxTurns : Int
  /-- The most threads that the archive holds. -/
  capacity : Int
  /-- Who hears of the steps. -/
  reporter : ReporterKind

namespace Assembly

/-- The name under which an agent is set up. -/
def agentName : Participant → String
  | .supervisor => "supervisor-agent"
  | .analyst => "meet-analyst-agent"
  | .summary => "meet-summary-agent"

/-- What is said about an agent when it is set up. -/
def agentDescription : Participant → String
  | .supervisor => "I am a supervisor agent."
  | .analyst =>
    "Answers questions about powerlifting meet results by constructing detailed queries."
  | .summary => "I am a meet summary agent."

/-- The kind of the credential. -/
def credentialKind : String := "DefaultAzureCredential"

/-- The first text, if it is one that is not empty, else the second. -/
def orElse (first? : Option String) (second : String) : String :=
  (first?.filter fun s => s != "").getD second

/-- The model of a participant's agent. -/
def model (s : Settings) : Participant → String
  | .supervisor => orElse s.supervisorModel? s.modelDeployment
  | .analyst => orElse s.analystModel? s.modelDeployment
  | .summary => orElse s.summaryModel? s.modelDeployment

/-- The credential that the models are used with. -/
def credential (s : Settings) : ServiceCall :=
  { kind := credentialKind
    options := (s.clientId?.filter fun id => id != "").toList.map fun id =>
      ("managed_identity_client_id", .text id) }

/-- The two services of a participant: the model and the agent that uses it. -/
def agentServices (s : Settings) (p : Participant) : List ServiceCall :=
  [{ kind := "AzureAIClient"
     options := [("project_endpoint", .text s.projectEndpoint),
       ("credential", .text credentialKind), ("model_deployment_name", .text (model s p)),
       ("use_latest_version", .bool true)] },
   { kind := "ChatAgent"
     options := [("name", .text (agentName p)), ("description", .text (agentDescription p)),
       ("instructions", .text (Instructions.text p)), ("chat_client", .text (model s p))] }]

/-- Where the settings say the warehouse is. -/
def addressOf (s : Settings) : WarehouseAddress :=
  { host := s.warehouseHost, port := s.warehousePort, username := s.warehouseUser,
    password := s.warehousePassword, database := s.warehouseDatabase, secure := s.warehouseSecure }

/-- The parts that the settings ask for. A caller may bring its own archive, and its own reporter
that tells nobody. -/
def ofSettings (s : Settings) (ownCapacity? : Option Int) (silent : Bool) : Assembly :=
  { services := credential s :: Participant.all.flatMap (agentServices s)
    address := addressOf s
    table := s.table
    strict := s.strictColumns
    maxTurns := s.maxTurns
    capacity := ownCapacity?.getD s.maxThreads
    reporter := if silent then .silent else .log }

end Assembly

end MeetDesk
