import DroneServer.Websocket.World

/-! # The string handlers

A text that is none of the client's own requests goes to every registered handler:
the recorder's controller, the vehicle detection's, the flight database's, and the
database itself while saving is on. Each parses the text anew, tells by its type
whether it is concerned, and says whether it handled it.
-/

namespace DroneServer

open Handling

/-- `json::parse`. -/
def Handling.parse (json : JsonText) (msg : Bytes) : Handling Json :=
  match json.parse msg with
  | some j => pure j
  | none => throw .json

/-- The clause `catch (json::exception const&)` of a handler, and the `return false` after it. -/
def Handling.unlessJson (body : Handling Bool) : Handling Bool :=
  tryCatch body fun e => if e = .json then pure false else throw e

/-- `cpool.client(cid)->send(msg)`, where the pointer found may be null. -/
def Handling.answer (out : Outside) (cid : ClientId) (msg : Bytes) : Handling Unit := do
  let w ← get
  match ← attempt (w.pool.client cid) with
  | some ref => WebsocketServer.send out ref msg
  | none => throw .nullDereference

/-- The same, if the id is counted. -/
def Handling.answerCounted (out : Outside) (cid : ClientId) (msg : Bytes) : Handling Unit := do
  let w ← get
  if w.pool.count cid then answer out cid msg else pure ()

namespace RecorderController

/-- Start recording the drone. -/
def start (w : World) (drone : ClientId) : World :=
  { w.attach drone with recorders := Function.update w.recorders drone (some w.nextWriter) }

/-- Stop the recorder of the drone. -/
def stop (w : World) (drone : ClientId) (recorder : WriterId) : World :=
  { w.setMedia (w.media.delWriter drone recorder) with
    recorders := Function.update w.recorders drone none }

/-- The two branches of `media_record_set`; nothing is done when the state asked for is there. -/
def set (w : World) (drone : ClientId) (state : Bool) : World :=
  match w.recorders drone, state with
  | none, true => start w drone
  | some recorder, false => stop w drone recorder
  | _, _ => w

/-- `RecorderController::handle_string`. -/
def handleString (json : JsonText) (out : Outside) (cid : ClientId) (msg : Bytes) :
    Handling Bool :=
  unlessJson do
    let j ← parse json msg
    let type ← attempt (j.field "type")
    if type.Is "media_record_get" then
      let drone ← attempt j.droneId
      let w ← get
      let j := Json.reply "media_record_get_resp" (.boolean (w.recorders drone).isSome)
      answerCounted out cid (json.dump j)
      pure true
    else if type.Is "media_record_set" then
      let drone ← attempt j.droneId
      let state ← attempt j.droneState
      modify (set · drone state)
      answer out cid (json.dump (Json.reply "media_record_set_resp" .null))
      pure true
    else pure false

end RecorderController

namespace VehicleDetectionController

/-- Store a drone's detector. -/
def put (w : World) (drone : ClientId) (d : VehicleDetector) : World :=
  { w with detectors := Function.update w.detectors drone (some d) }

/-- The drone's detector, made and attached if there is none yet, whatever state is asked for. -/
def detector (out : Outside) (drone : ClientId) : Handling VehicleDetector := do
  let w ← get
  match w.detectors drone with
  | some d => pure d
  | none =>
      if out.classifierThrows then throw .classifier
      let d := { writer := w.nextWriter }
      modify fun w => put (w.attach drone) drone d
      pure d

/-- The two branches of `vehicle_detection_set` once there is a detector. -/
def set (d : VehicleDetector) (cid : ClientId) (state : Bool) : VehicleDetector :=
  if !d.count cid && state then d.add cid
  else if d.count cid && !state then d.del cid
  else d

/-- Whether detecting is on for this client. -/
def watches (w : World) (drone cid : ClientId) : Bool :=
  match w.detectors drone with
  | some d => d.count cid
  | none => false

/-- `VehicleDetectionController::handle_string`. -/
def handleString (json : JsonText) (out : Outside) (cid : ClientId) (msg : Bytes) :
    Handling Bool :=
  unlessJson do
    let j ← parse json msg
    let type ← attempt (j.field "type")
    if type.Is "vehicle_detection_get" then
      let drone ← attempt j.droneId
      let w ← get
      let j := Json.reply "vehicle_detection_get_resp" (.boolean (watches w drone cid))
      answerCounted out cid (json.dump j)
      pure true
    else if type.Is "vehicle_detection_set" then
      let drone ← attempt j.droneId
      let state ← attempt j.droneState
      let d ← detector out drone
      modify fun w => put w drone (set d cid state)
      answerCounted out cid (json.dump (Json.reply "vehicle_detection_set_resp" .null))
      pure true
    else pure false

end VehicleDetectionController

namespace FlightDatabase

/-- The columns between altitude and timestamp, as the members they are read from. -/
def columns : List (String × String) :=
  [("gps", "latitude"), ("gps", "longitude"),
    ("aircraft_orientation", "pitch"), ("aircraft_orientation", "roll"),
    ("aircraft_orientation", "yaw"), ("aircraft_orientation", "compass"),
    ("aircraft_velocity", "velocity_x"), ("aircraft_velocity", "velocity_y"),
    ("aircraft_velocity", "velocity_z"),
    ("gimbal_orientation", "pitch"), ("gimbal_orientation", "roll"),
    ("gimbal_orientation", "yaw"), ("gimbal_orientation", "yaw_relative")]

/-- The `INSERT` for a `data_broadcast`. -/
def statement (json : JsonText) (j : Json) : Except Failure Bytes := do
  let clientId ← j.dataString "client_id"
  let altitude ← j.field₂ "data" "altitude"
  let values ← columns.mapM fun (group, name) => do (← j.field₂ "data" group).field name
  let timestamp ← j.dataString "timestamp"
  pure (ascii "INSERT INTO flight_data VALUES ('" ++ clientId ++ ascii "'," ++
    (ascii ",").intercalate ((altitude :: values).map json.dump) ++
    ascii ",'" ++ timestamp ++ ascii "');")

/-- `FlightDatabase::handle_string`. -/
def handleString (json : JsonText) (out : Outside) (db : DatabaseRef) (msg : Bytes) :
    Handling Bool :=
  unlessJson do
    let j ← parse json msg
    let type ← attempt (j.field "type")
    if type.Is "data_broadcast" then
      let ins ← attempt (statement json j)
      if out.insertThrows db then throw .database
      modify (·.note (.inserted db ins))
      pure true
    else pure false

end FlightDatabase

namespace FlightDatabaseController

/-- Start saving: a new database is registered. -/
def start (w : World) : World :=
  { w with
    fdPtr := some w.nextDatabase
    nextDatabase := w.nextDatabase + 1
    recs := w.recs.insertNew (.flightDatabase w.nextDatabase) () }

/-- Stop saving. -/
def stop (w : World) (db : DatabaseRef) : World :=
  { w with fdPtr := none, recs := w.recs.erase (.flightDatabase db) }

/-- `FlightDatabaseController::handle_string`. The second clause makes every other exception a
    handled message. -/
def handleString (json : JsonText) (out : Outside) (cid : ClientId) (msg : Bytes) :
    Handling Bool :=
  let body : Handling Bool := do
    let j ← parse json msg
    let type ← attempt (j.field "type")
    if type.Is "flight_data_save_get" then
      let w ← get
      answerCounted out cid
        (json.dump (Json.reply "flight_data_save_get_resp" (.boolean w.fdPtr.isSome)))
      pure true
    else if type.Is "flight_data_save_set" then
      -- One of the two conditions reads the member, whichever way the pointer is.
      let state ← attempt j.saveState
      let w ← get
      match w.fdPtr, state with
      | none, true =>
          if out.connectThrows then throw .database
          modify start
          answer out cid (json.dump (Json.reply "flight_data_save_set_resp" .null))
          pure true
      | some db, false =>
          modify (stop · db)
          answer out cid (json.dump (Json.reply "flight_data_save_set_resp" .null))
          pure true
      | _, _ => pure false
    else pure false
  tryCatch body fun e =>
    match e with
    | .json => pure false
    | .nullDereference => throw .nullDereference
    | _ => pure true

end FlightDatabaseController

/-- `handle_string` of a registered handler. -/
def StringHandler.handleString (json : JsonText) (out : Outside) (cid : ClientId) (msg : Bytes) :
    StringHandler → Handling Bool
  | .recorderController => RecorderController.handleString json out cid msg
  | .flightDatabaseController => FlightDatabaseController.handleString json out cid msg
  | .vehicleDetectionController => VehicleDetectionController.handleString json out cid msg
  | .flightDatabase db => FlightDatabase.handleString json out db msg

namespace FlightDataManager

/-- The text goes to every handler, whatever the ones before made of it. -/
def each (json : JsonText) (out : Outside) (cid : ClientId) (msg : Bytes) :
    List StringHandler → Handling Bool
  | [] => pure false
  | h :: rest => do
      let handled ← h.handleString json out cid msg
      let later ← each json out cid msg rest
      pure (handled || later)

/-- `flight_data_manager::handle`. The controller that registers or removes a database on the way does
    so for a message no database is concerned with, so that it makes no difference whether that one
    is still called. -/
def handle (json : JsonText) (out : Outside) (cid : ClientId) (msg : Bytes) : Handling Bool := do
  let w ← get
  each json out cid msg (w.recs.entries.map Prod.fst)

end FlightDataManager

end DroneServer
