import DroneServer.Core

/-! # `SimpleBuffer`

The byte buffer under the AMF0 reader and writer. It is kept as the bytes before
the read position and the bytes from it on, so that the position never leaves the
data. Every read asserts that the bytes it wants are there.
-/

namespace DroneServer

structure SimpleBuffer where
  /-- `_data[0 .. _pos)`. -/
  front : Bytes := []
  /-- `_data[_pos ..)`. -/
  rest : Bytes := []

namespace SimpleBuffer

def pos (sb : SimpleBuffer) : Nat := sb.front.length

def size (sb : SimpleBuffer) : Nat := sb.front.length + sb.rest.length

def empty (sb : SimpleBuffer) : Bool := sb.rest.isEmpty

/-- A buffer holding `bytes`, to be read from its start. -/
def ofBytes (bytes : Bytes) : SimpleBuffer := { rest := bytes }

/-- `require` asserts that the size asked for is not negative. -/
def require (sb : SimpleBuffer) (requiredSize : Int) : Except Fault Bool :=
  if requiredSize < 0 then .error .assertion
  else .ok (decide (requiredSize ≤ sb.rest.length))

/-- The next `n` bytes; what the `read_` functions share. -/
def take (sb : SimpleBuffer) (n : Nat) : Except Fault (Bytes × SimpleBuffer) :=
  if sb.rest.length < n then .error .assertion
  else .ok (sb.rest.take n, { front := sb.front ++ sb.rest.take n, rest := sb.rest.drop n })

def read1byte (sb : SimpleBuffer) : Except Fault (UInt8 × SimpleBuffer) := do
  let (bytes, sb) ← sb.take 1
  pure (bytes.getD 0 0, sb)

/-- Big endian, as a signed `int16_t`. -/
def read2bytes (sb : SimpleBuffer) : Except Fault (Int × SimpleBuffer) := do
  let (bytes, sb) ← sb.take 2
  let value : Nat := (bytes.getD 0 0).toNat * 256 + (bytes.getD 1 0).toNat
  pure (if value < 0x8000 then value else value - 0x10000, sb)

/-- Big endian, into an `int32_t` whose fourth byte stays zero. -/
def read3bytes (sb : SimpleBuffer) : Except Fault (UInt32 × SimpleBuffer) := do
  let (bytes, sb) ← sb.take 3
  pure (Endian.be24 (bytes.getD 0 0) (bytes.getD 1 0) (bytes.getD 2 0), sb)

def read4bytes (sb : SimpleBuffer) : Except Fault (UInt32 × SimpleBuffer) := do
  let (bytes, sb) ← sb.take 4
  pure (Endian.be32 (bytes.getD 0 0) (bytes.getD 1 0) (bytes.getD 2 0) (bytes.getD 3 0), sb)

/-- Big endian; the caller copies the bits into a `double`. -/
def read8bytes (sb : SimpleBuffer) : Except Fault (UInt64 × SimpleBuffer) := do
  let (bytes, sb) ← sb.take 8
  pure (UInt64.ofNat (bytes.foldl (fun value b => value * 256 + b.toNat) 0), sb)

def readString (sb : SimpleBuffer) (len : Int) : Except Fault (Bytes × SimpleBuffer) :=
  if len < 0 then .error .assertion else sb.take len.toNat

/-- `push_back` of every byte; what the `write_` functions share. -/
def push (sb : SimpleBuffer) (bytes : Bytes) : SimpleBuffer := { sb with rest := sb.rest ++ bytes }

def write1byte (sb : SimpleBuffer) (val : UInt8) : SimpleBuffer := sb.push [val]

def write2bytes (sb : SimpleBuffer) (val : Int16) : SimpleBuffer :=
  sb.push [(val.toUInt16 >>> 8).toUInt8, val.toUInt16.toUInt8]

/-- The bits of an `int32_t`, of which the first byte is left out. -/
def write3bytes (sb : SimpleBuffer) (val : UInt32) : SimpleBuffer := sb.push (Endian.toBE24 val)

def write4bytes (sb : SimpleBuffer) (val : UInt32) : SimpleBuffer := sb.push (Endian.toBE32 val)

def write8bytes (sb : SimpleBuffer) (val : UInt64) : SimpleBuffer := sb.push (Endian.toBE64 val)

def writeString (sb : SimpleBuffer) (val : Bytes) : SimpleBuffer := sb.push val

end SimpleBuffer

end DroneServer
