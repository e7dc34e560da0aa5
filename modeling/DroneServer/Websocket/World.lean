import DroneServer.Json
import DroneServer.Lib.Throwing
import DroneServer.Rtmp.Host

/-! # The process with its websocket side

`World` puts next to the streaming side what the websocket clients share: the
connections, the client pool, the registered string handlers and the handlers' own
maps. A handler runs on its client's thread as a computation that may throw; what
it makes the libraries do is noted in the order it happens.
-/

namespace DroneServer

/-- A `websocketpp::connection_hdl`. -/
abbrev ConnId := Nat

/-- The object behind a `shared_ptr<Client>`. -/
abbrev ClientRef := Nat

/-- The object behind a `shared_ptr<FlightDatabase>`. -/
abbrev DatabaseRef := Nat

/-- `Client::Type`. A number that is none of its enumerators is kept as it is. -/
inductive ClientType where
  | invalid
  | drone
  | operator
  | other (value : Int32)
  deriving DecidableEq

namespace ClientType

def ofInt (value : Int32) : ClientType :=
  if value = -1 then .invalid
  else if value = 0 then .drone
  else if value = 1 then .operator
  else .other value

end ClientType

/-- `WebsocketClient`, with the fields of `Client`. -/
structure WebsocketClient where
  id : ClientId := 0
  type : ClientType := .invalid
  droneName : Bytes := []
  serial : Bytes := []
  handshakeDone : Bool := false

/-- `client_pool`. -/
structure ClientPool where
  clients : List ClientRef := []
  drones : List ClientRef := []
  /-- `client_ids_`, where an entry can be null. -/
  clientIds : ClientId → Option (Option ClientRef) := fun _ => none

namespace ClientPool

def add (pool : ClientPool) (ref : ClientRef) (c : WebsocketClient) : ClientPool where
  clients := pool.clients ++ [ref]
  drones := if c.type = .drone then pool.drones ++ [ref] else pool.drones
  clientIds := Function.update pool.clientIds c.id (some (some ref))

/-- The test `client_ids_[cp->id]` leaves a null entry where there was none. -/
def del (pool : ClientPool) (ref : ClientRef) (c : WebsocketClient) : ClientPool where
  clients := pool.clients.filter (· ≠ ref)
  drones := if c.type = .drone then pool.drones.filter (· ≠ ref) else pool.drones
  clientIds := Function.update pool.clientIds c.id
    (if (pool.clientIds c.id).join.isSome then none else some none)

/-- `count(id) > 0`. -/
def count (pool : ClientPool) (id : ClientId) : Bool := (pool.clientIds id).isSome

/-- `client_ids_.at(id)`. -/
def client (pool : ClientPool) (id : ClientId) : Except Failure (Option ClientRef) :=
  match pool.clientIds id with
  | some entry => .ok entry
  | none => .error .outOfRange

end ClientPool

structure VehicleDetector where
  writer : WriterId
  dsts : List ClientId := []

namespace VehicleDetector

def count (d : VehicleDetector) (cid : ClientId) : Bool := cid ∈ d.dsts

/-- `dsts` is a set. -/
def add (d : VehicleDetector) (cid : ClientId) : VehicleDetector :=
  if cid ∈ d.dsts then d else { d with dsts := d.dsts ++ [cid] }

def del (d : VehicleDetector) (cid : ClientId) : VehicleDetector :=
  { d with dsts := d.dsts.filter (· ≠ cid) }

end VehicleDetector

/-- The kinds of `StringHandler` the program registers. -/
inductive StringHandler where
  | recorderController
  | flightDatabaseController
  | vehicleDetectionController
  | flightDatabase (db : DatabaseRef)
  deriving DecidableEq

inductive CloseStatus where
  | badGateway
  | invalidPayload
  deriving DecidableEq

/-- What the libraries were made to do. -/
inductive Effect where
  | sent (conn : ConnId) (msg : Bytes)
  | closed (conn : ConnId) (status : CloseStatus) (reason : Bytes)
  | inserted (db : DatabaseRef) (statement : Bytes)
  deriving DecidableEq

/-- What the libraries answer while one message is handled: a message makes the server send on a
    connection once at most, so one answer a connection is enough. -/
structure Outside where
  /-- The text of the exception that sending on a connection throws, if it does. -/
  sendThrows : ConnId → Option Bytes := fun _ => none
  closeThrows : ConnId → Bool := fun _ => false
  /-- Loading the cascade classifier throws. -/
  classifierThrows : Bool := false
  /-- Connecting to the database or looking for its table throws. -/
  connectThrows : Bool := false
  insertThrows : DatabaseRef → Bool := fun _ => false

structure World where
  /-- The streaming side; the media pipes are shared. -/
  host : Host := {}
  /-- The setting `rtmp_port`. -/
  rtmpPort : Option Int32 := none
  objects : ClientRef → WebsocketClient := fun _ => {}
  nextClient : ClientRef := 0
  /-- `WebsocketServer::clients`. -/
  clients : Table ConnId (Option ClientRef) := .empty
  pool : ClientPool := {}
  /-- The handlers `flight_data_manager` holds. They are called in the order of their addresses,
      which may be any. -/
  recs : Table StringHandler Unit := .empty
  /-- `RecorderController::recorders`. -/
  recorders : ClientId → Option WriterId := fun _ => none
  /-- `VehicleDetectionController::detectors`. -/
  detectors : ClientId → Option VehicleDetector := fun _ => none
  /-- `FlightDatabaseController::fd_ptr`. -/
  fdPtr : Option DatabaseRef := none
  nextDatabase : DatabaseRef := 0
  effects : List Effect := []

/-- A computation on a client's thread. -/
abbrev Handling := EStateM Failure World

namespace Handling

/-- Go on with a value, or throw. -/
def attempt {α : Type} : Except Failure α → Handling α
  | .ok value => pure value
  | .error e => throw e

end Handling

namespace World

def note (w : World) (effect : Effect) : World := { w with effects := w.effects ++ [effect] }

def update (w : World) (ref : ClientRef) (c : WebsocketClient) : World :=
  { w with objects := Function.update w.objects ref c }

/-- `media_manager::get()`. -/
def media (w : World) : MediaManager := w.host.server.media

/-- Replace the media pipes. -/
def setMedia (w : World) (media : MediaManager) : World :=
  { w with host := { w.host with server := { w.host.server with media } } }

/-- The writer that is made next. -/
def nextWriter (w : World) : WriterId := w.host.server.nextWriter

/-- Make a writer and add it to the drone's pipe. -/
def attach (w : World) (cid : ClientId) : World :=
  { w with host := { w.host with server := { w.host.server with
    media := w.media.addWriter cid w.nextWriter, nextWriter := w.nextWriter + 1 } } }

end World

namespace WebsocketServer

/-- `kick` closes every connection of the client. -/
def kick (out : Outside) (dst : ClientRef) (status : CloseStatus) (reason : Bytes) :
    Handling Unit := do
  let w ← get
  w.clients.entries.forM fun c =>
    if c.2 = some dst then
      if out.closeThrows c.1 then throw .endpoint
      else modify (·.note (.closed c.1 status reason))
    else pure ()

/-- `send`. A connection that cannot be sent on has its client kicked, outside the clause that caught
    the exception. -/
def send (out : Outside) (dst : ClientRef) (msg : Bytes) : Handling Unit := do
  let w ← get
  w.clients.entries.forM fun c =>
    if c.2 = some dst then
      match out.sendThrows c.1 with
      | none => modify (·.note (.sent c.1 msg))
      | some what => kick out dst .badGateway what
    else pure ()

end WebsocketServer

end DroneServer
