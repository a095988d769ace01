import MeetDesk.Store
import MeetDesk.Value.Display

/-!
# The warehouse

The store behind the results tool in production. A client is opened, asked, and closed; the store
opens a fresh client for every query and closes it whatever happens. Failures of the warehouse and of
the system are turned into failures of the store; any other failure is passed on. Cells that are
neither null, truth values, numbers nor texts become texts.

What passes between the library and the warehouse is a list of contacts, in order.
-/

namespace MeetDesk

/-- Where the warehouse is and how it is entered. -/
structure WarehouseAddress where
  /-- The host. -/
  host : String
  /-- The port. -/
  port : Int := 8123
  /-- The user. -/
  username : String := "default"
  /-- The user's password. -/
  password : String := ""
  /-- The database for tables that are named without one. -/
  database : String := "default"
  /-- Whether the connection is encrypted. -/
  secure : Bool := false
  deriving DecidableEq, Repr

/-- The address as fields of an object. -/
def WarehouseAddress.toFields (a : WarehouseAddress) : Fields :=
  [("host", .text a.host), ("port", .int a.port), ("username", .text a.username),
   ("password", .text a.password), ("database", .text a.database), ("secure", .bool a.secure)]

/-- Who connects to the warehouse. -/
inductive Connector where
  /-- A client, which has a standard value for everything but the host. -/
  | client
  /-- A store, which has one for the encryption only. -/
  | store
  deriving DecidableEq, Repr

namespace Connector

/-- The parts of an address. -/
def parts : List String := ["host", "port", "username", "password", "database", "secure"]

/-- The name of who connects, in messages. -/
def label : Connector → String
  | client => "ClickHouseClient"
  | store => "ClickHouseResultStore"

/-- The parts of an address that must be given. -/
def required : Connector → List String
  | client => ["host"]
  | store => ["host", "port", "username", "password", "database"]

/-- Names in quotes, as a sentence lists them. -/
def listed : List String → String
  | [] => ""
  | [one] => "'" ++ one ++ "'"
  | [one, other] => "'" ++ one ++ "' and '" ++ other ++ "'"
  | names =>
    String.intercalate ", " (names.dropLast.map fun n => "'" ++ n ++ "'") ++ ", and '" ++
      names.getLastD "" ++ "'"

/-- Why an address with the given parts does not do, if that is so: a part is not known, or parts
are missing. -/
def fault? (c : Connector) (given : List String) : Option Fault :=
  let missing := c.required.filter fun name => !given.contains name
  match given.find? fun name => !parts.contains name with
  | some name =>
    some (.ordinary "TypeError"
      (c.label ++ ".__init__() got an unexpected keyword argument '" ++ name ++ "'"))
  | none =>
    if missing.isEmpty then none
    else
      let noun := if missing.length = 1 then "argument" else "arguments"
      some (.ordinary "TypeError" (c.label ++ ".__init__() missing " ++ toString missing.length ++
        " required positional " ++ noun ++ ": " ++ listed missing))

end Connector

/-- Something that passes between the library and the warehouse. -/
inductive Contact where
  /-- An attempt to connect. -/
  | connect (address : WarehouseAddress)
  /-- A query over an open connection. -/
  | query (call : StoreCall)
  /-- The end of a connection, which may have been awaited. -/
  | close (awaited : Bool)

/-- A warehouse: what it answers after the given contacts, the latest one last. -/
structure Warehouse where
  /-- Whether the latest attempt to connect succeeds. -/
  admits : List Contact → Except Fault Unit
  /-- What the latest query returns. -/
  answers : List Contact → Except Fault (List Row)
  /-- Whether the connection takes time to end, so that its end has to be awaited. -/
  lingers : List Contact → Bool := fun _ => true

namespace Warehouse

/-- A failure of the store. -/
def storeFault (message : String) : Fault := .ordinary "StoreExecutionError" message

/-- Whether a failure is the warehouse's or the system's own. -/
def isOwn (f : Fault) : Bool :=
  match f.family with
  | .warehouse | .system | .timeout => true
  | _ => false

/-- A cell in plain form. -/
def plainCell (v : Value) : Value :=
  match v with
  | .null | .bool _ | .int _ | .float _ | .text _ | .participant _ => v
  | other => .text other.display

/-- A row with its cells in plain form. -/
def plainRow (row : Row) : Row := row.map fun cell => (cell.1, plainCell cell.2)

/-- The failure of a client that has no connection. -/
def notOpen : Fault :=
  storeFault "ClickHouse connection not established. Use 'async with' context manager."

/-- A client of the warehouse. -/
structure Client where
  /-- Where it connects to. -/
  address : WarehouseAddress
  /-- Whether it is connected. -/
  isOpen : Bool := false
  deriving DecidableEq, Repr

namespace Client

/-- Opens a client. A client without a host does not even try. -/
def openOn (w : Warehouse) (c : Client) (past : List Contact) :
    Except Fault Client × List Contact :=
  if c.address.host.isEmpty then
    (.error (.ordinary "ValueError" "CLICKHOUSE_HOST environment variable is required"), past)
  else
    let past := past ++ [.connect c.address]
    match w.admits past with
    | .ok () => (.ok { c with isOpen := true }, past)
    | .error f =>
      if isOwn f then (.error (storeFault ("Could not connect to ClickHouse: " ++ f.message)), past)
      else (.error f, past)

/-- Sends a query. -/
def query (w : Warehouse) (c : Client) (call : StoreCall) (past : List Contact) :
    Except Fault (List Row) × List Contact :=
  if !c.isOpen then (.error notOpen, past)
  else
    let past := past ++ [.query call]
    match w.answers past with
    | .ok rows => (.ok (rows.map plainRow), past)
    | .error f => (.error (if isOwn f then storeFault f.message else f), past)

/-- Closes a client, and awaits the end of the connection if that has to be. A client that is not open
stays as it is. -/
def close (w : Warehouse) (c : Client) (past : List Contact) : Client × List Contact :=
  if c.isOpen then ({ c with isOpen := false }, past ++ [.close (w.lingers past)]) else (c, past)

end Client

/-- Answers one query over a connection of its own. -/
def ask (w : Warehouse) (address : WarehouseAddress) (call : StoreCall) (past : List Contact) :
    Except Fault (List Row) × List Contact :=
  match Client.openOn w { address } past with
  | (.error f, past) => (.error f, past)
  | (.ok client, past) =>
    let answered := client.query w call past
    (answered.1, (client.close w answered.2).2)

end Warehouse

/-- The addresses of the attempts to connect, in order. -/
def Contact.connects (past : List Contact) : List WarehouseAddress :=
  past.filterMap fun
    | .connect address => some address
    | _ => none

/-- The queries, in order. -/
def Contact.queries (past : List Contact) : List StoreCall :=
  past.filterMap fun
    | .query call => some call
    | _ => none

/-- The number of connections that were closed. -/
def Contact.closes (past : List Contact) : Nat :=
  (past.filter fun
    | .close _ => true
    | _ => false).length

end MeetDesk
