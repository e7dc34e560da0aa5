import DroneServer.Websocket.Handlers

/-! # The websocket clients and the events of their connections

`WebsocketClient.handle` is the job a client's thread does for one text. `web` is
the whole process: any interleaving of the streaming side's steps with the events
of any number of websocket connections, where a text is handled before the next
event. An exception that leaves `handle` ends the process.
-/

namespace DroneServer

open Handling

namespace WebsocketClient

/-- The object behind `this`. -/
def this (ref : ClientRef) : Handling WebsocketClient := do
  let w ← get
  pure (w.objects ref)

/-- Assign to members of `this`. -/
def assign (ref : ClientRef) (f : WebsocketClient → WebsocketClient) : Handling Unit :=
  modify fun w => w.update ref (f (w.objects ref))

/-- `on_hello`. -/
def onHello (json : JsonText) (out : Outside) (ref : ClientRef) : Handling Unit := do
  let c ← this ref
  let w ← get
  let clientId := (ascii "client_id", Json.string (cidToHex c.id))
  let data :=
    if c.type = .operator then
      [clientId, (ascii "rtmp_port", .integer (w.rtmpPort.getD 0).toInt64)]
    else [clientId]
  WebsocketServer.send out ref (json.dump (Json.reply "hello_resp" (.object data)))

/-- `on_data`. -/
def onData (out : Outside) (data : Bytes) : Handling Unit := do
  let w ← get
  w.pool.clients.forM fun c => WebsocketServer.send out c data

/-- `to_json` of a client. -/
def toJson (c : WebsocketClient) : Json :=
  .object [(ascii "client_id", .string (cidToHex c.id)),
    (ascii "drone_name", .string c.droneName), (ascii "serial", .string c.serial)]

/-- `on_drone_list`. -/
def onDroneList (json : JsonText) (out : Outside) (ref : ClientRef) : Handling Unit := do
  let w ← get
  let drones := .array (w.pool.drones.map fun c => toJson (w.objects c))
  WebsocketServer.send out ref (json.dump (Json.reply "drone_list_resp" drones))

/-- The first branch of `handle`. The type is stored before the rest of the message is looked at. -/
def hello (json : JsonText) (out : Outside) (ref : ClientRef) (j : Json) : Handling Unit := do
  let ctype ← attempt j.ctype
  assign ref fun c => { c with type := .ofInt ctype }
  if ClientType.ofInt ctype = .drone then
    let droneName ← attempt (j.dataString "drone_name")
    assign ref fun c => { c with droneName }
    let serial ← attempt (j.dataString "serial")
    assign ref fun c => { c with serial }
  modify fun w => { w with pool := w.pool.add ref (w.objects ref) }
  assign ref fun c => { c with handshakeDone := true }
  onHello json out ref

/-- `handle`. -/
def handle (json : JsonText) (out : Outside) (ref : ClientRef) (msg : Bytes) : Handling Unit :=
  let body : Handling Unit := do
    let j ← parse json msg
    let type ← attempt (j.field "type")
    let c ← this ref
    if type.Is "hello" ∧ !c.handshakeDone then hello json out ref j
    else if type.Is "data_broadcast" ∧ c.handshakeDone then
      let str := json.dump j
      let _ ← FlightDataManager.handle json out c.id str
      onData out str
    else if type.Is "drone_list" ∧ c.handshakeDone then onDroneList json out ref
    else if ← FlightDataManager.handle json out c.id msg then pure ()
    else WebsocketServer.kick out ref .invalidPayload (ascii "unsupported request")
  tryCatch body fun e =>
    if e = .json then WebsocketServer.kick out ref .invalidPayload (ascii "parsing error")
    else throw e

end WebsocketClient

/-- An event of the process. -/
inductive Happening where
  /-- A step of the streaming side. -/
  | rtmp (l : Label)
  /-- `on_open`, with the id the new client draws. -/
  | opened (conn : ConnId) (id : ClientId)
  /-- `on_message`, and what the libraries answer meanwhile. -/
  | message (conn : ConnId) (msg : Bytes) (out : Outside)
  /-- `on_close`. -/
  | closed (conn : ConnId)
  /-- `on_fail`. -/
  | failed (conn : ConnId)

/-- The process: its state, and how it ended if an exception left a client's `handle`. -/
structure Process where
  world : World := {}
  terminated : Option Failure := none

namespace World

/-- The client of a connection; none if the entry is null or missing. -/
def client (w : World) (conn : ConnId) : Option ClientRef := (w.clients.get? conn).join

/-- `clients[conn]` where there is no client: the entry is made if it is missing. -/
def looked (w : World) (conn : ConnId) : World :=
  { w with clients := w.clients.insertNew conn none }

/-- `on_open`: whatever the connection had is replaced by a new client. -/
def onOpen (w : World) (conn : ConnId) (id : ClientId) : World :=
  { w with
    objects := Function.update w.objects w.nextClient { id }
    nextClient := w.nextClient + 1
    clients := (w.clients.erase conn).insertNew conn (some w.nextClient) }

/-- `on_close` and `on_fail`. -/
def onClose (w : World) (conn : ConnId) : World :=
  match w.client conn with
  | some ref =>
      { w with pool := w.pool.del ref (w.objects ref), clients := w.clients.erase conn }
  | none => w.looked conn

end World

namespace Process

/-- Go on where a client's job ended. -/
def after (p : Process) : EStateM.Result Failure World Unit → Process
  | .ok _ world => { p with world }
  | .error e world => { world, terminated := some e }

/-- `on_message`. -/
def onMessage (json : JsonText) (p : Process) (conn : ConnId) (msg : Bytes) (out : Outside) :
    Process :=
  match p.world.client conn with
  | some ref => p.after (WebsocketClient.handle json out ref msg p.world)
  | none => { p with world := p.world.looked conn }

def perform (json : JsonText) (p : Process) : Happening → Process
  | .rtmp l => { p with world := { p.world with host := p.world.host.step l } }
  | .opened conn id => { p with world := p.world.onOpen conn id }
  | .message conn msg out => p.onMessage json conn msg out
  | .closed conn | .failed conn => { p with world := p.world.onClose conn }

/-- Nothing happens any more once the process has ended, on either side. -/
def step (json : JsonText) (p : Process) (h : Happening) : Process :=
  if p.terminated = none ∧ p.world.host.server.crashed = none then p.perform json h else p

end Process

/-- How the program was built and started. -/
structure Setup where
  recordForce : Bool := false
  rtmpPort : Option Int32 := none
  /-- `COMPILE_RECORDER`, `COMPILE_FLIGHT_DATABASE` and `COMPILE_VEHICLE_DETECTION`. -/
  recorder : Bool := true
  flightDatabase : Bool := true
  vehicleDetection : Bool := true

namespace Setup

/-- The handlers `run` registers. -/
def recs (setup : Setup) : Table StringHandler Unit :=
  let add (built : Bool) (h : StringHandler) (recs : Table StringHandler Unit) :=
    if built then recs.insertNew h () else recs
  add setup.vehicleDetection .vehicleDetectionController
    (add setup.flightDatabase .flightDatabaseController
      (add setup.recorder .recorderController .empty))

end Setup

/-- The process, started with nothing but its setup. -/
def web (json : JsonText) (setup : Setup) : Machine Process Happening where
  start :=
    { world :=
        { host := { server := { recordForce := setup.recordForce } }
          rtmpPort := setup.rtmpPort
          recs := setup.recs } }
  step := Process.step json

end DroneServer
