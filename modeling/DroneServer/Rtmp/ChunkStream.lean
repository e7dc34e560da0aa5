import DroneServer.Core

/-! # `rtmp_chunk_stream`

One chunk stream of a session: the header fields remembered from chunk to chunk,
the payload collected so far, and where in a chunk the reader stands. The same
class serves the writer, which keeps its own memory of the headers it sent.

`rem_` and `fmt_` have no initialiser in the source. They are optional here, and
reading one before a header has assigned it is a fault.
-/

namespace DroneServer

open Endian

inductive ChunkPhase where
  | header
  | payload
  deriving DecidableEq, Repr

structure RtmpChunkStream where
  csid : UInt16
  time : UInt32 := 0xffffffff
  dtime : UInt32 := 0xffffffff
  len : UInt32 := 0
  streamId : UInt32 := 0xffffffff
  type : UInt8 := 0
  extTs : Bool := false
  fmt : Option UInt8 := none
  data : Bytes := []
  rem : Option UInt32 := none
  ready : Bool := false
  state : ChunkPhase := .header
  deriving DecidableEq, Repr

namespace RtmpChunkStream

/-- What `read_f0`, `read_f1` and `read_f2` share: wait for a header of `size` bytes, look at its
    24-bit time field, wait for four more bytes when that is 0xFFFFFF, and only then consume. -/
def readFull (size : Nat) (assign : Bytes → UInt32 → RtmpChunkStream → RtmpChunkStream)
    (cs : RtmpChunkStream) (buf : Bytes) : Ret × RtmpChunkStream × Bytes :=
  if buf.length < size then (.more, cs, buf)
  else
    let mh := buf.take size
    let rest := buf.drop size
    let ts := be24 (mh.getD 0 0) (mh.getD 1 0) (mh.getD 2 0)
    if ts = 0xffffff then
      if buf.length < size + 4 then (.more, { cs with extTs := true }, buf)
      else
        let ts := le32 (rest.getD 0 0) (rest.getD 1 0) (rest.getD 2 0) (rest.getD 3 0)
        (.ok, assign mh ts { cs with extTs := true }, rest.drop 4)
    else (.ok, assign mh ts cs, rest)

def headerLen (mh : Bytes) : UInt32 := be24 (mh.getD 3 0) (mh.getD 4 0) (mh.getD 5 0)

def headerType (mh : Bytes) : UInt8 := mh.getD 6 0

def headerStream (mh : Bytes) : UInt32 :=
  le32 (mh.getD 7 0) (mh.getD 8 0) (mh.getD 9 0) (mh.getD 10 0)

def assignF0 (mh : Bytes) (ts : UInt32) (cs : RtmpChunkStream) : RtmpChunkStream :=
  { cs with
    time := ts, dtime := 0, len := headerLen mh, type := headerType mh,
    streamId := headerStream mh, rem := some (headerLen mh) }

def assignF1 (mh : Bytes) (ts : UInt32) (cs : RtmpChunkStream) : RtmpChunkStream :=
  { cs with
    time := cs.time + ts, dtime := ts, len := headerLen mh, type := headerType mh,
    rem := some (headerLen mh) }

def assignF2 (_ : Bytes) (ts : UInt32) (cs : RtmpChunkStream) : RtmpChunkStream :=
  { cs with time := cs.time + ts, dtime := ts, rem := some cs.len }

def readF0 : RtmpChunkStream → Bytes → Ret × RtmpChunkStream × Bytes := readFull 11 assignF0

def readF1 : RtmpChunkStream → Bytes → Ret × RtmpChunkStream × Bytes := readFull 7 assignF1

def readF2 : RtmpChunkStream → Bytes → Ret × RtmpChunkStream × Bytes := readFull 3 assignF2

/-- `read_f3` once it has decided to start a message: `time` is the new time. -/
def restart (cs : RtmpChunkStream) (time : UInt32) : RtmpChunkStream :=
  { cs with time, data := [], rem := some cs.len, ready := false }

def readF3 (cs : RtmpChunkStream) (buf : Bytes) : Except Fault (Ret × RtmpChunkStream × Bytes) :=
  let ts := le32 (buf.getD 0 0) (buf.getD 1 0) (buf.getD 2 0) (buf.getD 3 0)
  match cs.rem with
  | none => .error .uninitialised
  | some rem =>
      if rem = 0 then
        match cs.fmt with
        | none => .error .uninitialised
        | some fmt =>
            if fmt = 0 then
              if cs.extTs then
                if buf.length < 4 then .ok (.more, cs, buf)
                else .ok (.ok, cs.restart ts, buf.drop 4)
              else .ok (.ok, cs.restart cs.time, buf)
            else if fmt = 1 ∨ fmt = 2 then
              if cs.extTs then
                if buf.length < 4 then .ok (.more, cs, buf)
                else .ok (.ok, cs.restart (cs.time + ts), buf.drop 4)
              else .ok (.ok, cs.restart (cs.time + cs.dtime), buf)
            else .ok (.ok, cs.restart cs.time, buf)
      else if cs.extTs then
        if buf.length < 4 then .ok (.more, cs, buf)
        else .ok (.ok, cs, if ts = cs.time then buf.drop 4 else buf)
      else .ok (.ok, cs, buf)

/-- `read_header`: nothing to do past the header; otherwise `fmt_` is set whatever the outcome. -/
def readHeader (cs : RtmpChunkStream) (fmt : UInt8) (buf : Bytes) :
    Except Fault (Ret × RtmpChunkStream × Bytes) := do
  if cs.state ≠ .header then pure (.ok, cs, buf)
  else
    let (ret, cs, buf) ←
      if fmt = 0 then pure (cs.readF0 buf)
      else if fmt = 1 then pure (cs.readF1 buf)
      else if fmt = 2 then pure (cs.readF2 buf)
      else if fmt = 3 then cs.readF3 buf
      else pure (.fail, cs, buf)
    let cs := { cs with fmt := some fmt }
    pure (ret, if ret = .ok then { cs with state := .payload } else cs, buf)

def readPayload (cs : RtmpChunkStream) (maxChunkSize : UInt32) (buf : Bytes) :
    Except Fault (Ret × RtmpChunkStream × Bytes) :=
  if cs.state ≠ .payload then .ok (.ok, cs, buf)
  else match cs.rem with
    | none => .error .uninitialised
    | some rem =>
        let req := if rem > maxChunkSize then maxChunkSize else rem
        if buf.length < req.toNat then .ok (.more, cs, buf)
        else
          .ok (.ok,
            { cs with
              data := cs.data ++ buf.take req.toNat
              rem := some (rem - req)
              ready := if rem - req = 0 then true else cs.ready
              state := .header },
            buf.drop req.toNat)

def clear (cs : RtmpChunkStream) : RtmpChunkStream :=
  { cs with state := .header, ready := false, data := [] }

/-- `ChunkBasicHeader1`: the format in the high two bits, the low six bits of the id below. -/
def basicHeader (fmt : UInt8) (csid : UInt16) : UInt8 := fmt <<< 6 ||| (csid.toUInt8 &&& 0x3f)

/-- The header `write_chunk` chooses from what it remembers, the memory it leaves, and the size it
    counts. A type 0 header does not touch `dtime_`. -/
def writeHeader (cs : RtmpChunkStream) (time dtime : UInt32) (typeId : UInt8) (streamId : UInt32)
    (msgSize : UInt32) (forceF0 : Bool) : Bytes × RtmpChunkStream × UInt32 :=
  if cs.dtime = dtime ∧ cs.len = msgSize ∧ cs.type = typeId ∧ cs.streamId = streamId ∧ !forceF0 then
    ([basicHeader 3 cs.csid], cs, 1)
  else if cs.len = msgSize ∧ cs.type = typeId ∧ cs.streamId = streamId ∧ !forceF0 then
    (basicHeader 2 cs.csid :: toBE24 dtime, { cs with dtime }, 4)
  else if cs.streamId = streamId ∧ !forceF0 then
    (basicHeader 1 cs.csid :: toBE24 dtime ++ toBE24 msgSize ++ [typeId],
      { cs with dtime, len := msgSize, type := typeId }, 8)
  else
    (basicHeader 0 cs.csid :: toBE24 time ++ toBE24 msgSize ++ [typeId] ++ toLE32 streamId,
      { cs with time, len := msgSize, type := typeId, streamId }, 12)

/-- The `while (msg_size > 0)` loop over the rest of a split message: the buffers it hands to
    `async_write`. With a chunk size of zero the loop makes no progress. -/
def writeRest (maxChunkSize : UInt32) (bh : UInt8) : Nat → Bytes → Except Fault (List Bytes)
  | 0, msg => if msg.isEmpty then .ok [] else .error .diverges
  | fuel + 1, msg =>
      if msg.isEmpty then .ok []
      else do
        let rest ← writeRest maxChunkSize bh fuel (msg.drop maxChunkSize.toNat)
        pure ((bh :: msg.take maxChunkSize.toNat) :: rest)

/-- `write_chunk`: the new memory, the buffers handed to `async_write` in order, and the returned
    `data_len`. `msg_size` is the length of the message modulo 2^32. -/
def writeChunk (cs : RtmpChunkStream) (maxChunkSize time dtime : UInt32) (typeId : UInt8)
    (streamId : UInt32) (msg : Bytes) (forceF0 : Bool) :
    Except Fault (RtmpChunkStream × List Bytes × UInt32) := do
  let msgSize := UInt32.ofNat msg.length
  let msg := msg.take msgSize.toNat
  let (header, cs, headerSize) := cs.writeHeader time dtime typeId streamId msgSize forceF0
  let first := cs.data ++ header
  let cs := { cs with data := [] }
  if msgSize > maxChunkSize then
    let rest ← writeRest maxChunkSize (basicHeader 3 cs.csid) msg.length (msg.drop maxChunkSize.toNat)
    pure (cs, (first ++ msg.take maxChunkSize.toNat) :: rest,
      headerSize + msgSize + UInt32.ofNat rest.length)
  else pure (cs, [first ++ msg], headerSize + msgSize)

end RtmpChunkStream

end DroneServer
