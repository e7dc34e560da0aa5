import DroneServer.Amf0.Value
import DroneServer.Rtmp.Session
import DroneServer.Rtmp.Stream

/-! # The server: sessions, the stream registry and the message handlers

Everything a handler can reach: every session, `streams_`, the media pipes, and
a log of the calls the properties speak about. A handler either returns or
faults; a fault stops the process and is recorded in `crashed`.
-/

namespace DroneServer

/-- What the log records, in the order it happens. -/
inductive Event where
  /-- `handle_chunk_stream` is called. -/
  | call (x : SessionId) (csid : UInt16) (type : UInt8) (len streamId time : UInt32)
      (payload : Bytes)
  /-- `handle_chunk_stream` returned. -/
  | result (x : SessionId) (ret : Ret)
  /-- `send_set_chunk_size`. -/
  | announce (x : SessionId) (size : UInt32)
  /-- A Set Chunk Size message of the peer took effect. -/
  | announced (x : SessionId) (size : UInt32)
  | handshakeDone (x : SessionId)
  | connected (x : SessionId)
  | streamCreated (x : SessionId)
  /-- `join` on the stream object `ref` returned. -/
  | join (x : SessionId) (ref : Nat) (publisher : Bool) (ret : Ret)
  /-- A publish command was answered with NetStream.Publish.Start. -/
  | published (x : SessionId)
  | played (x : SessionId)
  /-- `leave` on the stream object `ref`. -/
  | leave (x : SessionId) (ref : Nat)
  /-- A media message of `x` was inserted in the cache of the stream object `ref`. -/
  | cached (x : SessionId) (ref : Nat) (pkt : MediaPacket)
  /-- A media message of `x` made the stream object `ref` write a packet to `peer`. -/
  | relayed (x : SessionId) (ref : Nat) (peer : SessionId) (pkt : MediaPacket)
  deriving DecidableEq

structure Server where
  /-- The setting `record_force`. -/
  recordForce : Bool := false
  sessions : SessionId → RtmpSession := fun _ => {}
  /-- `streams_`. -/
  streams : Bytes → Option RtmpStream := fun _ => none
  media : MediaManager := {}
  nextRef : Nat := 0
  nextWriter : WriterId := 0
  crashed : Option Fault := none
  log : List Event := []

namespace Server

def emit (srv : Server) (e : Event) : Server := { srv with log := srv.log ++ [e] }

def crash (srv : Server) (f : Fault) : Server := { srv with crashed := some f }

def set (srv : Server) (x : SessionId) (s : RtmpSession) : Server :=
  { srv with sessions := Function.update srv.sessions x s }

def setStream (srv : Server) (url : Bytes) (st : Option RtmpStream) : Server :=
  { srv with streams := Function.update srv.streams url st }

/-- Run a session's own function on session `x`. -/
def within (srv : Server) (x : SessionId) (f : RtmpSession → Except Fault RtmpSession) :
    Except Fault Server := do
  let s ← f (srv.sessions x)
  pure (srv.set x s)

/-- `leave` on the stream the session's url names, if it is registered; the stream goes when its
    last peer does. -/
def leaveStream (srv : Server) (x : SessionId) : Except Fault Server :=
  let url := (srv.sessions x).url
  match srv.streams url with
  | none => pure srv
  | some st => do
      let st' := st.leave x
      let srv := (srv.setStream url (some st')).emit (.leave x st.ref)
      let srv ←
        if st.publisher = some x then
          st'.peers.entries.foldlM (fun srv peer => srv.within peer.1 (·.sendStreamEof mediaStreamId))
            { srv with media := srv.media.erase st.cid }
        else pure srv
      pure (if st'.count = 0 then srv.setStream url none else srv)

/-- `on_close`. -/
def onClose (srv : Server) (x : SessionId) : Except Fault Server := do
  let srv ← srv.leaveStream x
  pure (srv.set x { srv.sessions x with state := .close })

/-- `tcp_session::close`. -/
def close (srv : Server) (x : SessionId) : Server :=
  if (srv.sessions x).isOpen then
    let srv := srv.set x { srv.sessions x with isOpen := false }
    match srv.onClose x with
    | .ok srv => srv
    | .error f => srv.crash f
  else srv

/-- Pass the packets a stream wrote to its peers, in order. -/
def relay (srv : Server) (x : SessionId) (ref : Nat) (writes : List (SessionId × MediaPacket)) :
    Except Fault Server :=
  writes.foldlM (fun srv (peer, pkt) => do
    let srv ← srv.within peer (·.writeMediaPacket pkt)
    pure (srv.emit (.relayed x ref peer pkt))) srv

/-- `rtmp_stream::send` on the stream registered under `url`. -/
def sendMedia (srv : Server) (x : SessionId) (url : Bytes) (st : RtmpStream)
    (cs : RtmpChunkStream) : Except Fault Server := do
  match ← st.send srv.media x cs with
  | none => pure srv
  | some (st', media, pkt, writes) =>
      let srv := ({ srv with media }.setStream url (some st')).emit (.cached x st.ref pkt)
      srv.relay x st.ref writes

def handleMediaMessage (srv : Server) (x : SessionId) : Except Fault (Ret × Server) := do
  let s := srv.sessions x
  if s.state ≠ .mediaTransfer then pure (.fail, srv)
  else match srv.streams s.url with
    | some st =>
        let srv ← srv.sendMedia x s.url st s.current
        let srv ← srv.within x (·.clearCurrent)
        pure (.ok, srv)
    | none =>
        let srv ← srv.within x (·.clearCurrent)
        pure (.fail, srv)

def handleControlMessage (srv : Server) (x : SessionId) : Except Fault (Ret × Server) := do
  let type := (srv.sessions x).current.type
  let srv ← srv.within x (·.handleControlMessage)
  pure (.ok, if type = 1 then srv.emit (.announced x (srv.sessions x).maxChunkSize) else srv)

def str (text : String) : Amf0Data := .string (ascii text)

/-- The bits of the doubles the replies contain. -/
def num0 : Amf0Data := .number 0
def num1 : Amf0Data := .number 0x3FF0000000000000
def num30 : Amf0Data := .number 0x403E000000000000
def num31 : Amf0Data := .number 0x403F000000000000

def connectProps : Amf0Data :=
  .object [(ascii "fmsVer", str "FMS/3,0,1,123"), (ascii "capabilities", num31)]

def connectInfo : Amf0Data :=
  .object [(ascii "level", str "status"), (ascii "code", str "NetConnection.Connect.Success"),
    (ascii "description", str "Connection succeeded"), (ascii "objectEncoding", num0)]

/-- The values written one after the other. -/
def encode (values : List Amf0Data) : Except Fault Bytes := do
  let parts ← values.mapM Amf0Data.write
  pure parts.flatten

/-- `send_onStatus`, always with transaction id 0. -/
def sendOnStatus (srv : Server) (x : SessionId) (level code desc : String) :
    Except Fault Server := do
  let buf ← encode [str "onStatus", num0, .null,
    .object [(ascii "level", str level), (ascii "code", str code), (ascii "description", str desc)]]
  srv.within x (·.writeChunk 3 0 0 20 0 buf false)

/-- `send_set_chunk_size`. -/
def sendSetChunkSize (srv : Server) (x : SessionId) : Except Fault Server := do
  let srv ← srv.within x (·.sendSetChunkSize)
  pure (srv.emit (.announce x (srv.sessions x).maxChunkSize))

/-- The string after a null, which is how every stream command carries its name. -/
def readName (sb : SimpleBuffer) : Except Fault (Bytes × SimpleBuffer) := do
  let (_, sb) ← Amf0Data.readNull sb
  let (name, sb) ← Amf0Data.readString sb
  pure (name.getD [], sb)

/-- `app + '/' + cid`. -/
def urlOf (app cid : Bytes) : Bytes := app ++ 0x2f :: cid

/-- The `connect` branch of `handle_command_message`. -/
def commandConnect (srv : Server) (x : SessionId) (sb : SimpleBuffer) : Except Fault Server := do
  let (_, co, _) ← Amf0Data.readObject (Amf0Data.readFuel sb) sb
  match Amf0Properties.valueAt co (ascii "app") with
  | some (.string app) =>
      let srv := srv.set x { srv.sessions x with app, maxChunkSize := 4096 }
      let srv ← srv.sendSetChunkSize x
      let srv ← srv.within x (·.sendWindowAck)
      let srv ← srv.within x (·.sendSetPeerBandwidth)
      let buf ← encode [str "_result", num1, connectProps, connectInfo]
      let srv ← srv.within x fun s => s.writeChunk s.csid 0 0 20 0 buf false
      pure ((srv.set x { srv.sessions x with state := .createStream }).emit (.connected x))
  | _ => .error .nullDereference

/-- The reply to `createStream`. The transaction id goes back with the marker that was read, which
    `Amf0Number::read` keeps even if it is not a number's. -/
def createStreamReply (marker : UInt8) (tid : UInt64) : Except Fault Bytes := do
  let command ← encode [str "_result"]
  let rest ← encode [.null, num30]
  pure (command ++ marker :: Endian.toBE64 tid ++ rest)

/-- The `createStream` branch; `marker` and `tid` are what was read into the transaction id. -/
def commandCreateStream (srv : Server) (x : SessionId) (marker : UInt8) (tid : UInt64) :
    Except Fault Server := do
  let buf ← createStreamReply marker tid
  let srv ← srv.within x (·.writeChunk 3 0 0 20 0 buf false)
  pure ((srv.set x { srv.sessions x with state := .publishPlay }).emit (.streamCreated x))

/-- The `releaseStream` branch: the registered stream goes whoever its peers are. -/
def commandReleaseStream (srv : Server) (x : SessionId) (sb : SimpleBuffer) :
    Except Fault Server := do
  let (cid, _) ← readName sb
  let url := urlOf (srv.sessions x).app cid
  pure ((srv.set x { srv.sessions x with cid, url }).setStream url none)

/-- The `FCPublish` branch. -/
def commandFCPublish (srv : Server) (x : SessionId) (sb : SimpleBuffer) : Except Fault Server := do
  let (cid, _) ← readName sb
  pure (srv.set x { srv.sessions x with cid, url := urlOf (srv.sessions x).app cid })

/-- The `FCUnpublish` branch. -/
def commandFCUnpublish (srv : Server) (x : SessionId) (sb : SimpleBuffer) :
    Except Fault Server := do
  let (cid, _) ← readName sb
  if (srv.sessions x).cid = cid then srv.leaveStream x else pure srv

/-- The stream registered under the session's url, made if there is none. `on_stream_create` adds a
    recorder to the drone's pipe when recording is forced. -/
def findStream (srv : Server) (url : Bytes) : Except Fault (RtmpStream × Server) :=
  match srv.streams url with
  | some st => pure (st, srv)
  | none => do
      let st ← RtmpStream.create srv.nextRef url
      let srv := { srv with nextRef := srv.nextRef + 1 }
      let srv :=
        if srv.recordForce then
          { srv with
            media := srv.media.addWriter st.cid srv.nextWriter
            nextWriter := srv.nextWriter + 1 }
        else srv
      pure (st, srv)

/-- `join` on the stream under the session's url, as `publish` and `play` do it. -/
def joinStream (srv : Server) (x : SessionId) (publisher : Bool) : Except Fault Server := do
  let url := (srv.sessions x).url
  let (st, srv) ← srv.findStream url
  let (ret, st') := st.join x publisher
  pure ((srv.setStream url (some st')).emit (.join x st.ref publisher ret))

/-- The `publish` branch. The publishing type replaces `app`. -/
def commandPublish (srv : Server) (x : SessionId) (sb : SimpleBuffer) : Except Fault Server := do
  let (cid, sb) ← readName sb
  let (app, _) ← Amf0Data.readString sb
  let app := app.getD []
  let srv := srv.set x { srv.sessions x with app, cid, url := urlOf app cid }
  let srv ← srv.joinStream x true
  let srv ← srv.within x fun s => s.sendStreamBegin s.current.streamId
  let srv ← srv.sendOnStatus x "status" "NetStream.Publish.Start" "Start publishing"
  pure ((srv.set x { srv.sessions x with state := .mediaTransfer }).emit (.published x))

/-- The `play` branch. -/
def commandPlay (srv : Server) (x : SessionId) (sb : SimpleBuffer) : Except Fault Server := do
  let (cid, _) ← readName sb
  let srv := srv.set x { srv.sessions x with cid, url := urlOf (srv.sessions x).app cid }
  let srv ← srv.joinStream x false
  let srv ← srv.within x fun s => s.sendStreamBegin s.current.streamId
  let srv ← srv.sendOnStatus x "status" "NetStream.Play.Reset" "Reset play"
  let srv ← srv.sendOnStatus x "status" "NetStream.Play.Start" "Start play"
  pure ((srv.set x { srv.sessions x with state := .mediaTransfer }).emit (.played x))

/-- A command message up to its arguments: the name, empty when it does not decode, the
    transaction id's marker and its value, if one was read, and the rest of the payload. -/
structure Command where
  name : Bytes
  marker : UInt8
  tid : Option UInt64
  args : SimpleBuffer

def readCommand (payload : Bytes) : Except Fault Command := do
  let (name, sb) ← Amf0Data.readString (SimpleBuffer.ofBytes payload)
  -- the marker of a new `Amf0Number`, if there is no byte to read
  let marker := sb.rest.headD Amf0Marker.number
  let (tid, args) ← Amf0Data.readNumber sb
  pure { name := name.getD [], marker, tid, args }

/-- The chain of branches of `handle_command_message`. -/
def runCommand (env : Env) (srv : Server) (x : SessionId) (c : Command) : Except Fault Server :=
  let state := (srv.sessions x).state
  if c.name = ascii "connect" ∧ state = .connect then srv.commandConnect x c.args
  else if c.name = ascii "createStream" ∧ state = .createStream then
    srv.commandCreateStream x c.marker (c.tid.getD env.indeterminate)
  else if c.name = ascii "releaseStream" then srv.commandReleaseStream x c.args
  else if c.name = ascii "deleteStream" then do
    let (_, sb) ← Amf0Data.readNull c.args
    let _ ← Amf0Data.readNumber sb
    pure srv
  else if c.name = ascii "FCPublish" then srv.commandFCPublish x c.args
  else if c.name = ascii "FCUnpublish" then srv.commandFCUnpublish x c.args
  else if c.name = ascii "getStreamLength" then pure srv
  else if c.name = ascii "publish" ∧ state = .publishPlay then srv.commandPublish x c.args
  else if c.name = ascii "play" ∧ state = .publishPlay then srv.commandPlay x c.args
  else pure srv

def handleCommandMessage (env : Env) (srv : Server) (x : SessionId) :
    Except Fault (Ret × Server) := do
  let payload := (srv.sessions x).current.data
  let srv ← srv.within x (·.clearCurrent)
  let c ← readCommand payload
  let srv ← srv.runCommand env x c
  pure (.ok, srv)

def handleChunkStream (env : Env) (srv : Server) (x : SessionId) : Except Fault (Ret × Server) :=
  let cs := (srv.sessions x).current
  if cs.type < 7 ∧ cs.streamId = 0 then srv.handleControlMessage x
  else if cs.type = 8 ∨ cs.type = 9 ∨ cs.type = 18 then srv.handleMediaMessage x
  else if cs.type = 20 then srv.handleCommandMessage env x
  else pure (.fail, srv)

/-- The part of `handle`'s loop that follows a chunk completing a message: count, acknowledge, call
    `handle_chunk_stream`, and close the session when it fails. -/
def dispatch (env : Env) (srv : Server) (x : SessionId) : Ret × Server :=
  match srv.within x (·.acknowledge) with
  | .error f => (.fail, srv.crash f)
  | .ok srv =>
      let cs := (srv.sessions x).current
      let srv := srv.emit
        (.call x (srv.sessions x).csid cs.type cs.len cs.streamId cs.time cs.data)
      match srv.handleChunkStream env x with
      | .error f => (.fail, srv.crash f)
      | .ok (ret, srv) =>
          let srv := srv.emit (.result x ret)
          (ret, if ret = .fail then srv.close x else srv)

end Server

end DroneServer
