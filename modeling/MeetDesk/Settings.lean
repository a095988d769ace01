import MeetDesk.Fault
import MeetDesk.Form.Slot
import MeetDesk.Query.Plan
import MeetDesk.Text.Stray
import MeetDesk.Value.Display

/-!
# Settings

The configuration of the application. Settings are named without regard to case; they come from the
environment and from the caller, and the caller's win. What neither gives has a standard value.
-/

namespace MeetDesk

/-- The configuration of the application. -/
structure Settings where
  /-- Where the model service is reached. -/
  projectEndpoint : String
  /-- The model that every agent uses unless it has its own. -/
  modelDeployment : String
  /-- The supervisor's own model. -/
  supervisorModel? : Option String
  /-- The analyst's own model. -/
  analystModel? : Option String
  /-- The summary agent's own model. -/
  summaryModel? : Option String
  /-- The identity under which the model service is used. -/
  clientId? : Option String
  /-- The host of the warehouse. -/
  warehouseHost : String
  /-- The port of the warehouse. -/
  warehousePort : Int
  /-- The user of the warehouse. -/
  warehouseUser : String
  /-- The user's password. -/
  warehousePassword : String
  /-- The database that holds the results table. -/
  warehouseDatabase : String
  /-- Whether the connection is encrypted. -/
  warehouseSecure : Bool
  /-- The results table. -/
  table : String
  /-- Whether a clause on an unknown column is an error. -/
  strictColumns : Bool
  /-- The most turns of a run. -/
  maxTurns : Int
  /-- The seconds that a run may take. -/
  timeoutSeconds : Float
  /-- The most threads that the archive holds. -/
  maxThreads : Int

namespace Settings

/-- A setting with a standard value. -/
def slot {α : Type} (name : String) (standard : α) (read : Coercion.Reader α) : Slot α :=
  .optional (.single name) standard read

/-- A setting that may be missing. -/
def textOrNone (name : String) : Slot (Option String) :=
  slot name none (Coercion.orNull Coercion.text)

/-- Reads the settings from fields with lower-case names. -/
def ofFields (fields : Fields) : Checked Settings :=
  Settings.mk <$> (slot "azure_ai_project_endpoint" "" Coercion.text).fill fields
    <*> (slot "azure_ai_model_deployment_name" "gpt-4o" Coercion.text).fill fields
    <*> (textOrNone "azure_ai_supervisor_model").fill fields
    <*> (textOrNone "azure_ai_meet_analyst_model").fill fields
    <*> (textOrNone "azure_ai_summary_model").fill fields
    <*> (textOrNone "azure_client_id").fill fields
    <*> (slot "clickhouse_host" "localhost" Coercion.text).fill fields
    <*> (slot "clickhouse_port" 8123 Coercion.integer).fill fields
    <*> (slot "clickhouse_username" "default" Coercion.text).fill fields
    <*> (slot "clickhouse_password" "" Coercion.text).fill fields
    <*> (slot "clickhouse_database" "default" Coercion.text).fill fields
    <*> (slot "clickhouse_secure" false Coercion.boolean).fill fields
    <*> (slot "meet_results_table" Plan.defaultTable Coercion.text).fill fields
    <*> (slot "strict_unknown_columns" true Coercion.boolean).fill fields
    <*> (slot "max_turns" 12 Coercion.integer).fill fields
    <*> (slot "run_timeout_seconds" 120 Coercion.number).fill fields
    <*> (slot "max_history_threads" 1000 Coercion.integer).fill fields

/-- A text as the environment keeps it. -/
def environmentText (v : Value) : Except Fault String :=
  match v.text? with
  | none => .error (.ordinary "TypeError" ("str expected, not " ++ v.shortTypeName))
  | some s =>
    match Text.unkeepable? s with
    | some run => .error (.ordinary "UnicodeEncodeError" run.message)
    | none => .ok (Text.throughOctets s)

/-- A variable as the environment keeps it. -/
def environmentVariable (name : String) (value : Value) : Except Fault (String × Value) := do
  let name ← environmentText (.text name)
  let value ← environmentText value
  if name.contains '\x00' || value.contains '\x00' then
    throw (.ordinary "ValueError" "embedded null byte")
  else if name.contains '=' then
    throw (.ordinary "ValueError" "illegal environment variable name")
  else if name.isEmpty then throw (.ordinary "OSError" "[Errno 22] Invalid argument")
  else return (name, .text value)

/-- The environment that holds the given variables. -/
def environmentOf (given : Fields) : Except Fault Fields :=
  given.mapM fun v => environmentVariable v.1 v.2

/-- A name in lower case. -/
def lowerName (name : String) : String := String.ofList (Text.lower name.toList)

/-- The environment's and the caller's values under lower-case names. Of several values for a name
the caller's count, and of those the first; without one, the last of the environment's counts. -/
def merge (environment given : Fields) : Fields :=
  Fields.ofPairs ((environment ++ given.reverse).map fun field => (lowerName field.1, field.2))

/-- Reads the settings from the environment and from what the caller gives. -/
def read (environment given : Fields) : Checked Settings := ofFields (merge environment given)

/-- The settings as fields of an object. -/
def toFields (s : Settings) : Fields :=
  [("azure_ai_project_endpoint", .text s.projectEndpoint),
   ("azure_ai_model_deployment_name", .text s.modelDeployment),
   ("azure_ai_supervisor_model", .ofText? s.supervisorModel?),
   ("azure_ai_meet_analyst_model", .ofText? s.analystModel?),
   ("azure_ai_summary_model", .ofText? s.summaryModel?),
   ("azure_client_id", .ofText? s.clientId?),
   ("clickhouse_host", .text s.warehouseHost),
   ("clickhouse_port", .int s.warehousePort),
   ("clickhouse_username", .text s.warehouseUser),
   ("clickhouse_password", .text s.warehousePassword),
   ("clickhouse_database", .text s.warehouseDatabase),
   ("clickhouse_secure", .bool s.warehouseSecure),
   ("meet_results_table", .text s.table),
   ("strict_unknown_columns", .bool s.strictColumns),
   ("max_turns", .int s.maxTurns),
   ("run_timeout_seconds", .float s.timeoutSeconds),
   ("max_history_threads", .int s.maxThreads)]

end Settings

end MeetDesk
