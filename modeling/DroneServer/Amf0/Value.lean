import DroneServer.Amf0.SimpleBuffer

/-! # AMF0 values

The kinds `create_amf0data` dispatches to, with their `read` and `write`. A
property's value is a pointer: reading an object stores whatever
`create_amf0data` returns, a null pointer included.
-/

namespace DroneServer

inductive Amf0Data where
  /-- The bits of the `double`. -/
  | number (bits : UInt64)
  | boolean (value : Bool)
  | string (value : Bytes)
  | null
  | undefined
  | object (properties : List (Bytes × Option Amf0Data))
  | ecmaArray (properties : List (Bytes × Option Amf0Data))

/-- `Amf0ObjectProperty::properties`. -/
abbrev Amf0Properties := List (Bytes × Option Amf0Data)

namespace Amf0Marker

def number : UInt8 := 0x00
def boolean : UInt8 := 0x01
def string : UInt8 := 0x02
def object : UInt8 := 0x03
def null : UInt8 := 0x05
def undefined : UInt8 := 0x06
def ecmaArray : UInt8 := 0x08
def objectEnd : UInt8 := 0x09

end Amf0Marker

namespace Amf0Properties

/-- `put` drops the first property of that name and appends the new one. -/
def put (properties : Amf0Properties) (key : Bytes) (value : Option Amf0Data) : Amf0Properties :=
  properties.eraseP (fun p => p.1 == key) ++ [(key, value)]

/-- `value_at(key)`: the stored pointer, null when there is no such property. -/
def valueAt (properties : Amf0Properties) (key : Bytes) : Option Amf0Data :=
  ((properties.find? fun p => p.1 == key).map Prod.snd).join

end Amf0Properties

namespace Amf0Data

/-- Consume a marker; `false` is `ERROR_AMF0_DECODE`. -/
def readMarker (marker : UInt8) (sb : SimpleBuffer) : Except Fault (Bool × SimpleBuffer) := do
  if ← sb.require 1 then
    let (found, sb) ← sb.read1byte
    pure (found == marker, sb)
  else pure (false, sb)

/-- `Amf0Number::read`; no value on `ERROR_AMF0_DECODE`. -/
def readNumber (sb : SimpleBuffer) : Except Fault (Option UInt64 × SimpleBuffer) := do
  let (isNumber, sb) ← readMarker Amf0Marker.number sb
  if !isNumber then pure (none, sb)
  else if ← sb.require 8 then
    let (bits, sb) ← sb.read8bytes
    pure (some bits, sb)
  else pure (none, sb)

/-- `Amf0Boolean::read`. -/
def readBoolean (sb : SimpleBuffer) : Except Fault (Option Bool × SimpleBuffer) := do
  let (isBoolean, sb) ← readMarker Amf0Marker.boolean sb
  if !isBoolean then pure (none, sb)
  else if ← sb.require 1 then
    let (byte, sb) ← sb.read1byte
    pure (some (byte != 0), sb)
  else pure (none, sb)

/-- `Amf0String::read`. The length is signed, so one of 2^15 or more fails the assertion of
    `require`. -/
def readString (sb : SimpleBuffer) : Except Fault (Option Bytes × SimpleBuffer) := do
  let (isString, sb) ← readMarker Amf0Marker.string sb
  if !isString then pure (none, sb)
  else if ← sb.require 2 then
    let (len, sb) ← sb.read2bytes
    if ← sb.require len then
      let (value, sb) ← sb.readString len
      pure (some value, sb)
    else pure (none, sb)
  else pure (none, sb)

/-- `Amf0Null::read` and `Amf0Undefined::read`: the marker alone. -/
def readNull (sb : SimpleBuffer) : Except Fault (Bool × SimpleBuffer) :=
  readMarker Amf0Marker.null sb

def readUndefined (sb : SimpleBuffer) : Except Fault (Bool × SimpleBuffer) :=
  readMarker Amf0Marker.undefined sb

mutual
/-- `create_amf0data`: look at the marker, step back, and let the kind read itself. A kind that
    fails to read itself gives a null pointer. -/
def createAmf0data : Nat → SimpleBuffer → Except Fault (Option Amf0Data × SimpleBuffer)
  | 0, _ => .error .diverges
  | fuel + 1, sb => do
      if ← sb.require 1 then
        let (marker, _) ← sb.read1byte
        if marker = Amf0Marker.number then
          let (value, sb) ← readNumber sb
          pure (value.map .number, sb)
        else if marker = Amf0Marker.boolean then
          let (value, sb) ← readBoolean sb
          pure (value.map .boolean, sb)
        else if marker = Amf0Marker.string then
          let (value, sb) ← readString sb
          pure (value.map .string, sb)
        else if marker = Amf0Marker.object then
          let (done, properties, sb) ← readObject fuel sb
          pure (if done then some (.object properties) else none, sb)
        else if marker = Amf0Marker.null then
          let (done, sb) ← readNull sb
          pure (if done then some .null else none, sb)
        else if marker = Amf0Marker.undefined then
          let (done, sb) ← readUndefined sb
          pure (if done then some .undefined else none, sb)
        else if marker = Amf0Marker.ecmaArray then
          let (done, properties, sb) ← readEcmaArray fuel sb
          pure (if done then some (.ecmaArray properties) else none, sb)
        else pure (none, sb)
      else pure (none, sb)

/-- `Amf0Object::read`: whether it succeeded, and the properties put so far in either case. -/
def readObject : Nat → SimpleBuffer → Except Fault (Bool × Amf0Properties × SimpleBuffer)
  | 0, _ => .error .diverges
  | fuel + 1, sb => do
      let (isObject, sb) ← readMarker Amf0Marker.object sb
      if isObject then readProperties fuel [] sb else pure (false, [], sb)

/-- `Amf0EcmaArray::read`: four bytes of count are read and not used. -/
def readEcmaArray : Nat → SimpleBuffer → Except Fault (Bool × Amf0Properties × SimpleBuffer)
  | 0, _ => .error .diverges
  | fuel + 1, sb => do
      let (isArray, sb) ← readMarker Amf0Marker.ecmaArray sb
      if !isArray then pure (false, [], sb)
      else if ← sb.require 4 then
        let (_, sb) ← sb.read4bytes
        readProperties fuel [] sb
      else pure (false, [], sb)

/-- The loop the two share: `while (!sb->empty())` reads a name and a value. It also ends, with
    success, when the buffer runs out between two properties. -/
def readProperties : Nat → Amf0Properties → SimpleBuffer →
    Except Fault (Bool × Amf0Properties × SimpleBuffer)
  | 0, _, _ => .error .diverges
  | fuel + 1, properties, sb => do
      if sb.empty then pure (true, properties, sb)
      else if ← sb.require 2 then
        let (len, sb) ← sb.read2bytes
        if ← sb.require len then
          -- an empty name must be followed by the object-end marker
          if len = 0 then
            if ← sb.require 1 then
              let (marker, sb) ← sb.read1byte
              pure (marker == Amf0Marker.objectEnd, properties, sb)
            else pure (false, properties, sb)
          else
            let (name, sb) ← sb.readString len
            let (value, sb) ← createAmf0data fuel sb
            readProperties fuel (Amf0Properties.put properties name value) sb
        else pure (false, properties, sb)
      else pure (false, properties, sb)
end

/-- Calls of the object reader allowed for a buffer: each consumes a byte. -/
def readFuel (sb : SimpleBuffer) : Nat := 2 * sb.rest.length + 2

/-- A length as `write_2bytes` stores it. -/
def write2bytes (n : Nat) : Bytes := [UInt8.ofNat (n / 256), UInt8.ofNat n]

mutual
/-- `write` of each kind. A null property value is dereferenced. -/
def write : Amf0Data → Except Fault Bytes
  | .number bits => pure (Amf0Marker.number :: Endian.toBE64 bits)
  | .boolean value => pure [Amf0Marker.boolean, if value then 1 else 0]
  | .string value => pure (Amf0Marker.string :: write2bytes value.length ++ value)
  | .null => pure [Amf0Marker.null]
  | .undefined => pure [Amf0Marker.undefined]
  | .object properties => do
      let body ← writeProperties properties
      pure (Amf0Marker.object :: body ++ [0, 0, Amf0Marker.objectEnd])
  | .ecmaArray properties => do
      let body ← writeProperties properties
      pure (Amf0Marker.ecmaArray :: Endian.toBE32 (UInt32.ofNat properties.length) ++ body ++
        [0, 0, Amf0Marker.objectEnd])

def writeProperties : Amf0Properties → Except Fault Bytes
  | [] => pure []
  | (_, none) :: _ => .error .nullDereference
  | (name, some value) :: rest => do
      let head ← write value
      let tail ← writeProperties rest
      pure (write2bytes name.length ++ name ++ head ++ tail)
end

end Amf0Data

end DroneServer
