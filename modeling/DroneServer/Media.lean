import DroneServer.Core
import Mathlib.Logic.Function.Basic

/-! # Client ids, media pipes and media packets

The parts of `core` the streaming module rests on: a drone's id in hex, the
`media_manager` with one pipe per drone, and the packet the relay passes around.
Frames themselves are produced and consumed outside the repository.
-/

namespace DroneServer

/-- `ClientID_t`. -/
abbrev ClientId := UInt32

def hexDigit (c : UInt8) : Option Nat :=
  if 0x30 ≤ c ∧ c ≤ 0x39 then some (c.toNat - 0x30)
  else if 0x41 ≤ c ∧ c ≤ 0x46 then some (c.toNat - 0x41 + 10)
  else if 0x61 ≤ c ∧ c ≤ 0x66 then some (c.toNat - 0x61 + 10)
  else none

/-- Value of the leading hexadecimal digits. -/
def hexValue : Nat → Bytes → Nat
  | acc, [] => acc
  | acc, c :: rest =>
      match hexDigit c with
      | some digit => hexValue (acc * 16 + digit) rest
      | none => acc

/-- `cid_from_hex`: `stoul("0x" + hex, nullptr, 16)` kept to 32 bits. The prefix alone parses as
    zero and what follows the digits is ignored, so only a value past 64 bits throws. -/
def cidFromHex (hex : Bytes) : Except Fault ClientId :=
  let value := hexValue 0 hex
  if value < 2 ^ 64 then .ok (UInt32.ofNat value) else .error .outOfRange

/-- The object behind a `shared_ptr<AVFrameWriter>`. -/
abbrev WriterId := Nat

structure MediaCopypipe where
  cid : ClientId
  writers : List WriterId := []
  deriving DecidableEq

namespace MediaCopypipe

def count (p : MediaCopypipe) : Nat := p.writers.length

/-- `writers` is a set. -/
def addWriter (p : MediaCopypipe) (w : WriterId) : MediaCopypipe :=
  if w ∈ p.writers then p else { p with writers := p.writers ++ [w] }

def delWriter (p : MediaCopypipe) (w : WriterId) : MediaCopypipe :=
  { p with writers := p.writers.filter (· ≠ w) }

end MediaCopypipe

structure MediaManager where
  recs : ClientId → Option MediaCopypipe := fun _ => none

namespace MediaManager

/-- `pipe(cid)` creates the pipe it does not find. -/
def pipe (mm : MediaManager) (cid : ClientId) : MediaCopypipe × MediaManager :=
  match mm.recs cid with
  | some p => (p, mm)
  | none => ({ cid }, { recs := Function.update mm.recs cid (some { cid }) })

def erase (mm : MediaManager) (cid : ClientId) : MediaManager :=
  { recs := Function.update mm.recs cid none }

/-- `pipe(cid)->add_writer(w)`. -/
def addWriter (mm : MediaManager) (cid : ClientId) (w : WriterId) : MediaManager :=
  let (p, mm) := mm.pipe cid
  { recs := Function.update mm.recs cid (some (p.addWriter w)) }

/-- `pipe(cid)->del_writer(w)`. -/
def delWriter (mm : MediaManager) (cid : ClientId) (w : WriterId) : MediaManager :=
  let (p, mm) := mm.pipe cid
  { recs := Function.update mm.recs cid (some (p.delWriter w)) }

end MediaManager

inductive MediaType where
  | unknown
  | video
  | audio
  | metadata
  deriving DecidableEq, Repr

inductive Codec where
  | unknown
  | h264
  | h265
  | vp8
  | vp9
  | aac
  | opus
  deriving DecidableEq, Repr

structure MediaPacket where
  /-- Which object the `shared_ptr` points to: every `send` makes its own. -/
  ptr : Nat
  streamId : UInt32
  rtmpType : UInt8
  url : Bytes
  app : Bytes
  cid : ClientId
  type : MediaType := .unknown
  codec : Codec := .unknown
  dts : Int := 0
  pts : Int := 0
  keyFrame : Bool := false
  seqHeader : Bool := false
  data : Bytes := []
  deriving DecidableEq, Repr

end DroneServer
