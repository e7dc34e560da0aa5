import DroneServer.Core

/-! # `rtmp_handshake`

The version 3 handshake with Adobe's digests. The crypto library is outside the
repository: `Env` supplies the outcome of each of its calls, and of the other
reads the program does not control.
-/

namespace DroneServer

open Endian

structure Env where
  /-- The `n`-th HMAC-SHA256 of a callback, from a key and the data; none when it fails. -/
  hmac : Nat → Bytes → Bytes → Option Bytes
  /-- What `RAND_bytes` stores; none when it fails. -/
  rand : Option (Nat → UInt8)
  /-- What an `Amf0Number` holds when nothing was read into it. -/
  indeterminate : UInt64

namespace RtmpHandshake

def c0Size : Nat := 1
def c1Size : Nat := 1536
def c2Size : Nat := 1536

/-- `RTMP_HANDSHAKE_KEYLEN`. -/
def keyLen : Nat := 32

def keyTail : Bytes :=
  [0xF0, 0xEE, 0xC2, 0x4A, 0x80, 0x68, 0xBE, 0xE8, 0x2E, 0x00, 0xD0, 0xD1,
    0x02, 0x9E, 0x7E, 0x57, 0x6E, 0xEC, 0x5D, 0x2D, 0x29, 0x80, 0x6F, 0xAB,
    0x93, 0xB8, 0xE6, 0x36, 0xCF, 0xEB, 0x31, 0xAE]

def partialServerKey : Bytes := ascii "Genuine Adobe Flash Media Server 001"
def partialClientKey : Bytes := ascii "Genuine Adobe Flash Player 001"
def serverKey : Bytes := partialServerKey ++ keyTail
def clientKey : Bytes := partialClientKey ++ keyTail

end RtmpHandshake

structure RtmpHandshake where
  cdigest : Bytes := List.replicate RtmpHandshake.keyLen 0
  sdigest : Bytes := List.replicate RtmpHandshake.keyLen 0
  c0Version : UInt8 := 0
  c1Time : UInt32 := 0
  c1Zero : UInt32 := 0
  old : Bool := false
  m : Bytes := []

namespace RtmpHandshake

/-- `hmac_sha256`: the data without the digest at `skip`, when there is one to skip. -/
def hmacSha256 (env : Env) (n : Nat) (key data : Bytes) (skip : Option Nat) : Option Bytes :=
  let data := match skip with
    | some offs => data.take offs ++ data.drop (offs + keyLen)
    | none => data
  (env.hmac n key data).filter fun digest => digest.length = keyLen

/-- The sum of the four bytes a digest position is computed from. -/
def offsetSum (b : Bytes) (start : Nat) : Nat :=
  (b.getD start 0).toNat + (b.getD (start + 1) 0).toNat + (b.getD (start + 2) 0).toNat +
    (b.getD (start + 3) 0).toNat

/-- `find_digest`: the offset, none for `-1`. -/
def findDigest (env : Env) (n : Nat) (b key : Bytes) (base : Nat) : Option Nat :=
  let offs := offsetSum b base % 728 + base + 4
  match hmacSha256 env n key b (some offs) with
  | none => none
  | some digest => if digest = (b.drop offs).take keyLen then some offs else none

/-- `write_digest`: the buffer with the digest in place, and its offset. -/
def writeDigest (env : Env) (n : Nat) (b key : Bytes) (base : Nat) : Option (Bytes × Nat) :=
  let offs := offsetSum b (base + 8) % 728 + base + 12
  match hmacSha256 env n key b (some offs) with
  | none => none
  | some digest => some (b.take offs ++ digest ++ b.drop (offs + keyLen), offs)

def parseC0 (hs : RtmpHandshake) (buf : Bytes) : Ret × RtmpHandshake × Bytes :=
  let hs := { hs with c0Version := buf.getD 0 0 }
  (if hs.c0Version = 3 then .ok else .fail, hs, buf.drop 1)

def parseC1 (env : Env) (hs : RtmpHandshake) (buf : Bytes) : Ret × RtmpHandshake × Bytes :=
  let m := buf.take c1Size
  let buf := buf.drop c1Size
  let hs := { hs with
    m
    c1Time := le32 (m.getD 0 0) (m.getD 1 0) (m.getD 2 0) (m.getD 3 0)
    c1Zero := le32 (m.getD 4 0) (m.getD 5 0) (m.getD 6 0) (m.getD 7 0) }
  if hs.c1Zero = 0 then (.ok, { hs with old := true }, buf)
  else
    let found := (findDigest env 0 m partialClientKey 772).or (findDigest env 1 m partialClientKey 8)
    match found with
    | none => (.ok, { hs with old := true }, buf)
    | some offs =>
        match hmacSha256 env 2 serverKey ((m.drop offs).take keyLen) none with
        | none => (.fail, hs, buf)
        | some digest => (.ok, { hs with cdigest := digest }, buf)

/-- `parse_c2`: a digest that does not match is only logged. -/
def parseC2 (env : Env) (hs : RtmpHandshake) (buf : Bytes) : Ret × RtmpHandshake × Bytes :=
  if hs.old then (.ok, hs, buf.drop c2Size)
  else
    let m := buf.take c2Size
    let found := (findDigest env 0 m hs.sdigest 772).or (findDigest env 1 m hs.sdigest 8)
    let offs := found.getD (c2Size - keyLen)
    let ret := match hmacSha256 env 2 hs.sdigest (m.take offs) none with
      | none => .fail
      | some _ => .ok
    (ret, { hs with m }, buf.drop c2Size)

def handleC0C1 (env : Env) (hs : RtmpHandshake) (buf : Bytes) : Ret × RtmpHandshake × Bytes :=
  if buf.length < c0Size + c1Size then (.more, hs, buf)
  else
    let (ret, hs, buf) := hs.parseC0 buf
    if ret ≠ .ok then (.fail, hs, buf)
    else
      let (ret, hs, buf) := hs.parseC1 env buf
      (if ret ≠ .ok then .fail else .ok, hs, buf)

def handleC2 (env : Env) (hs : RtmpHandshake) (buf : Bytes) : Ret × RtmpHandshake × Bytes :=
  if buf.length < c2Size then (.more, hs, buf)
  else
    let (ret, hs, buf) := hs.parseC2 env buf
    (if ret ≠ .ok then .fail else .ok, hs, buf)

/-- `send_s0s1s2`: the reply handed to `async_write`, if it gets that far. -/
def sendS0S1S2 (env : Env) (hs : RtmpHandshake) : Ret × RtmpHandshake × Option Bytes :=
  match env.rand with
  | none => (.fail, hs, none)
  | some fill =>
      let random := (List.range (c1Size + c2Size)).map fun i => fill (i + c0Size)
      let s1 := random.take c1Size
      let s2 := random.drop c1Size
      if hs.old then
        let hs := { hs with m := toLE32 hs.c1Time ++ [0, 0, 0, 0] ++ hs.m.drop 8 }
        (.more, hs, some (3 :: ([0, 0, 0, 0, 0, 0, 0, 0] ++ s1.drop 8) ++ hs.m))
      else
        let s1 := toLE32 hs.c1Time ++ [10, 0, 12, 13] ++ s1.drop 8
        match writeDigest env 3 s1 partialServerKey 0 with
        | none => (.fail, hs, none)
        | some (s1, offs) =>
            match hmacSha256 env 4 clientKey ((s1.drop offs).take keyLen) none with
            | none => (.fail, hs, none)
            | some sdigest =>
                let hs := { hs with sdigest }
                let skip := c2Size - keyLen
                match hmacSha256 env 5 hs.cdigest (s2.take skip) none with
                | none => (.fail, hs, none)
                | some digest => (.more, hs, some (3 :: s1 ++ (s2.take skip ++ digest)))

end RtmpHandshake

end DroneServer
