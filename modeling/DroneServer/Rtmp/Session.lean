import DroneServer.Media
import DroneServer.Rtmp.ChunkStream
import DroneServer.Rtmp.Handshake

/-! # `rtmp_session`: the state of one connection

The session's own fields and the functions that touch nothing else: reading the
next chunk, cutting an outgoing message, handling a protocol control message.
Its `recv_buf` is kept beside the sessions, because only the read path may touch
it: no handler can.
-/

namespace DroneServer

open Endian

inductive SessionState where
  | init
  | handshakeC2
  | connect
  | createStream
  | publishPlay
  | mediaTransfer
  | close
  deriving DecidableEq, Repr

/-- Position in the order the states are declared in. -/
def SessionState.rank : SessionState → Nat
  | .init => 0
  | .handshakeC2 => 1
  | .connect => 2
  | .createStream => 3
  | .publishPlay => 4
  | .mediaTransfer => 5
  | .close => 6

structure RtmpSession where
  /-- `socket_.is_open()`; not so before the connection is accepted. -/
  isOpen : Bool := false
  state : SessionState := .init
  hs : RtmpHandshake := {}
  csIn : UInt16 → Option RtmpChunkStream := fun _ => none
  csOut : UInt16 → Option RtmpChunkStream := fun _ => none
  maxChunkSize : UInt32 := 128
  windowSize : UInt32 := 2500000
  peerBandwidth : UInt32 := 2500000
  peerBandwidthType : UInt8 := 0
  ackRecv : UInt32 := 0
  ackRecvTotal : UInt32 := 0
  headerRead : Bool := false
  csid : UInt16 := 0
  fmt : UInt8 := 0
  app : Bytes := []
  cid : Bytes := []
  url : Bytes := []
  /-- The buffers handed to `async_write`, in order. -/
  written : List Bytes := []

namespace RtmpSession

/-- `handle` reads chunks in every state but the two of the handshake and `CLOSE`. -/
def InChunkPhase (s : RtmpSession) : Prop :=
  s.state ≠ .init ∧ s.state ≠ .handshakeC2 ∧ s.state ≠ .close

instance (s : RtmpSession) : Decidable s.InChunkPhase := by
  unfold InChunkPhase
  infer_instance

/-- `cs_in[csid_]`, made on first use. -/
def current (s : RtmpSession) : RtmpChunkStream := (s.csIn s.csid).getD { csid := s.csid }

def setCurrent (s : RtmpSession) (cs : RtmpChunkStream) : RtmpSession :=
  { s with csIn := Function.update s.csIn s.csid (some cs) }

/-- The basic header, unless it was read already. -/
def readBasicHeader (s : RtmpSession) (buf : Bytes) : RtmpSession × Bytes :=
  if s.headerRead then (s, buf)
  else
    let bh := buf.getD 0 0
    ({ s with
        fmt := (bh >>> 6) &&& 0x3, csid := (bh &&& 0x3f).toUInt16, headerRead := true },
      buf.drop 1)

def readChunkStream (s : RtmpSession) (buf : Bytes) : Except Fault (Ret × RtmpSession × Bytes) :=
  if buf.length < 1 then .ok (.more, s, buf)
  else do
    let (s, buf) := s.readBasicHeader buf
    let (ret, cs, buf) ← s.current.readHeader s.fmt buf
    if ret ≠ .ok then pure (ret, s.setCurrent cs, buf)
    else
      let (ret, cs, buf) ← cs.readPayload s.maxChunkSize buf
      let s := s.setCurrent cs
      pure (ret, if ret = .ok then { s with headerRead := false } else s, buf)

def writeChunk (s : RtmpSession) (csid : UInt16) (time dtime : UInt32) (typeId : UInt8)
    (streamId : UInt32) (msg : Bytes) (forceF0 : Bool) : Except Fault RtmpSession := do
  let cs := (s.csOut csid).getD { csid }
  let (cs, buffers, _) ← cs.writeChunk s.maxChunkSize time dtime typeId streamId msg forceF0
  pure { s with
    csOut := Function.update s.csOut csid (some cs)
    written := s.written ++ buffers }

/-- The chunk stream `write_media_packet` uses; none for a packet of unknown type. -/
def mediaCsid : MediaType → Option UInt16
  | .video | .metadata => some 6
  | .audio => some 4
  | .unknown => none

def writeMediaPacket (s : RtmpSession) (pkt : MediaPacket) : Except Fault RtmpSession :=
  match mediaCsid pkt.type with
  | some csid =>
      s.writeChunk csid (UInt32.ofNat (pkt.dts % 2 ^ 32).toNat) 0 pkt.rtmpType pkt.streamId
        pkt.data true
  | none => .ok s

/-- A message on chunk stream 2 with a full header, as every `send_` of a control message. -/
def sendControl (s : RtmpSession) (typeId : UInt8) (msg : Bytes) : Except Fault RtmpSession :=
  s.writeChunk 2 0 0 typeId 0 msg true

def sendSetChunkSize (s : RtmpSession) : Except Fault RtmpSession :=
  s.sendControl 1 (toBE32 s.maxChunkSize)

def sendAck (s : RtmpSession) : Except Fault RtmpSession :=
  s.sendControl 3 (toBE32 s.ackRecvTotal)

def sendStreamBegin (s : RtmpSession) (streamId : UInt32) : Except Fault RtmpSession :=
  s.sendControl 4 ([0, 0] ++ toBE32 streamId)

def sendStreamEof (s : RtmpSession) (streamId : UInt32) : Except Fault RtmpSession :=
  s.sendControl 4 ([0, 1] ++ toBE32 streamId)

def sendWindowAck (s : RtmpSession) : Except Fault RtmpSession :=
  s.sendControl 5 (toBE32 s.windowSize)

def sendSetPeerBandwidth (s : RtmpSession) : Except Fault RtmpSession :=
  s.sendControl 6 (toBE32 s.peerBandwidth ++ [s.peerBandwidthType])

/-- Four payload bytes through a raw pointer, most significant first. -/
def wordAt (data : Bytes) (i : Nat) : Except Fault UInt32 :=
  if i + 4 ≤ data.length then
    .ok (be32 (data.getD i 0) (data.getD (i + 1) 0) (data.getD (i + 2) 0) (data.getD (i + 3) 0))
  else .error .outOfBounds

/-- `cs_in[csid_]->clear()` at the end of a handler; an erased entry is a null pointer. -/
def clearCurrent (s : RtmpSession) : Except Fault RtmpSession :=
  match s.csIn s.csid with
  | some cs => .ok (s.setCurrent cs.clear)
  | none => .error .nullDereference

/-- The user control event of a type 4 message: what follows the event type is only logged. -/
def readUserControl (data : Bytes) : Except Fault Unit :=
  if data.length < 2 then .error .outOfBounds
  else
    let et := (data.getD 0 0).toNat * 256 + (data.getD 1 0).toNat
    if et = 3 then do
      let _ ← wordAt data 2
      let _ ← wordAt data 6
      pure ()
    else if et = 7 then do
      let _ ← wordAt data 2
      pure ()
    else pure ()

/-- `handle_control_message` up to the final `clear`. -/
def controlBody (s : RtmpSession) : Except Fault RtmpSession := do
  let type := s.current.type
  let data := s.current.data
  if type = 1 then
    let maxChunkSize ← wordAt data 0
    pure { s with maxChunkSize }
  else if type = 2 then
    let csid ← wordAt data 0
    pure { s with csIn := Function.update s.csIn csid.toUInt16 none }
  else if type = 3 then
    let _ ← wordAt data 0
    pure s
  else if type = 4 then
    readUserControl data
    pure s
  else if type = 5 then
    let windowSize ← wordAt data 0
    pure { s with windowSize }
  else if type = 6 then
    let peerBandwidth ← wordAt data 0
    -- `at(4)` is checked, unlike the raw reads
    match data[4]? with
    | some peerBandwidthType => pure { s with peerBandwidth, peerBandwidthType }
    | none => .error .outOfRange
  else pure s

def handleControlMessage (s : RtmpSession) : Except Fault RtmpSession := do
  let s ← s.controlBody
  s.clearCurrent

/-- Counting of received payload in `handle`, and the acknowledgement it may send. -/
def acknowledge (s : RtmpSession) : Except Fault RtmpSession := do
  let size := UInt32.ofNat s.current.data.length
  let s := { s with ackRecv := s.ackRecv + size, ackRecvTotal := s.ackRecvTotal + size }
  if s.ackRecv > s.windowSize then
    let s ← s.sendAck
    pure { s with ackRecv := 0 }
  else pure s

end RtmpSession

end DroneServer
