import DroneServer.Amf0.RoundTrip

/-! # What is written into a buffer is read in order

The writer of an AMF0 value fills a `SimpleBuffer` field by field and the reader empties
it, each with the functions of the widths it expects. Where the reader asks for the kinds
that were written, the buffer is a queue of fields, however writing and reading take
turns; only a number of three bytes may come back as another one.
-/

namespace DroneServer

/-- What a `write_` function takes and a `read_` function returns. -/
inductive BufferField where
  | byte (value : UInt8)
  | short (value : Int16)
  /-- Three bytes of an `int32_t`, given by its bits. -/
  | medium (value : UInt32)
  | word (value : UInt32)
  | long (value : UInt64)
  | string (value : Bytes)
  deriving DecidableEq

/-- Which `read_` function is called; the length of a string is its argument. -/
inductive FieldKind where
  | byte
  | short
  | medium
  | word
  | long
  | string (length : Nat)
  deriving DecidableEq

namespace BufferField

def kind : BufferField → FieldKind
  | .byte _ => .byte
  | .short _ => .short
  | .medium _ => .medium
  | .word _ => .word
  | .long _ => .long
  | .string value => .string value.length

/-- What comes back: of three bytes the number below 2^24, so that a negative one is not the same. -/
def back : BufferField → BufferField
  | .medium value => .medium (value % 0x1000000)
  | f => f

end BufferField

namespace SimpleBuffer

def write (sb : SimpleBuffer) : BufferField → SimpleBuffer
  | .byte value => sb.write1byte value
  | .short value => sb.write2bytes value
  | .medium value => sb.write3bytes value
  | .word value => sb.write4bytes value
  | .long value => sb.write8bytes value
  | .string value => sb.writeString value

def read (sb : SimpleBuffer) : FieldKind → Except Fault (BufferField × SimpleBuffer)
  | .byte => do
      let (value, sb) ← sb.read1byte
      pure (.byte value, sb)
  | .short => do
      let (value, sb) ← sb.read2bytes
      pure (.short (Int16.ofInt value), sb)
  | .medium => do
      let (value, sb) ← sb.read3bytes
      pure (.medium value, sb)
  | .word => do
      let (value, sb) ← sb.read4bytes
      pure (.word value, sb)
  | .long => do
      let (value, sb) ← sb.read8bytes
      pure (.long value, sb)
  | .string length => do
      let (value, sb) ← sb.readString length
      pure (.string value, sb)

/-- A call of one or the other. -/
inductive Call where
  | write (f : BufferField)
  | read (kind : FieldKind)
  deriving DecidableEq

/-- The calls one after the other, and what the reads returned. -/
def calls (sb : SimpleBuffer) : List Call → Except Fault (List BufferField × SimpleBuffer)
  | [] => pure ([], sb)
  | .write f :: later => (sb.write f).calls later
  | .read kind :: later => do
      let (f, sb) ← sb.read kind
      let (fields, sb) ← sb.calls later
      pure (f :: fields, sb)

end SimpleBuffer

/-- The queue a buffer stands for. A read takes the field in front, if it is of the kind asked for. -/
def queued (queue : List BufferField) :
    List SimpleBuffer.Call → Option (List BufferField × List BufferField)
  | [] => some ([], queue)
  | .write f :: later => queued (queue ++ [f]) later
  | .read kind :: later =>
      match queue with
      | [] => none
      | f :: queue =>
          if f.kind = kind then
            (queued queue later).map fun (fields, left) => (f.back :: fields, left)
          else none

namespace BufferField

/-- The bytes of a field. -/
def bytes (f : BufferField) : Bytes := (SimpleBuffer.write {} f).rest

end BufferField

namespace SimpleBuffer

open BufferField

theorem write_push (sb : SimpleBuffer) (f : BufferField) : sb.write f = sb.push f.bytes := by
  cases f <;> rfl

theorem read2bytes_write2bytes (front rest : Bytes) (value : Int16) :
    read2bytes ⟨front, (BufferField.short value).bytes ++ rest⟩ =
      .ok (value.toInt, ⟨front ++ (BufferField.short value).bytes, rest⟩) := by
  have taken := @take_append (BufferField.short value).bytes front rest
  change (SimpleBuffer.take _ 2 : Except Fault _) = _ at taken
  have fits := value.toUInt16.toNat_lt
  have number : (value.toUInt16 >>> 8).toUInt8.toNat * 256 + value.toUInt16.toUInt8.toNat =
      value.toUInt16.toNat := by
    simp [Nat.shiftRight_eq_div_pow]
    omega
  have signed : (if value.toUInt16.toNat < 0x8000 then (value.toUInt16.toNat : Int)
      else value.toUInt16.toNat - 0x10000) = value.toInt := by
    change _ = value.toBitVec.toInt
    rw [BitVec.toInt_eq_toNat_cond]
    change _ = if 2 * value.toUInt16.toNat < 2 ^ 16 then (value.toUInt16.toNat : Int)
      else (value.toUInt16.toNat : Int) - (2 ^ 16 : Nat)
    split <;> split <;> omega
  rw [read2bytes, taken]
  change Except.ok _ = _
  simp only [bytes, write, write2bytes, push, List.nil_append, List.getD_cons_zero,
    List.getD_cons_succ, number]
  rw [← signed]

theorem read3bytes_write3bytes (front rest : Bytes) (value : UInt32) :
    read3bytes ⟨front, (BufferField.medium value).bytes ++ rest⟩ =
      .ok (value % 0x1000000, ⟨front ++ (BufferField.medium value).bytes, rest⟩) := by
  have low : (value % 0x1000000).toNat = value.toNat % 2 ^ 24 := rfl
  have lower : (BufferField.medium value).bytes = Endian.toBE24 (value % 0x1000000) :=
    Endian.toBE24_congr (by rw [low, Nat.mod_mod])
  rw [lower]
  have taken := @take_append (Endian.toBE24 (value % 0x1000000)) front rest
  change (SimpleBuffer.take _ 3 : Except Fault _) = _ at taken
  have small : (value % 0x1000000).toNat < 2 ^ 24 := by
    rw [low]
    exact Nat.mod_lt _ (by decide)
  rw [read3bytes, taken]
  exact congrArg (fun v => Except.ok (v, SimpleBuffer.mk _ rest)) (Endian.be24_toBE24 small)

theorem read4bytes_write4bytes (front rest : Bytes) (value : UInt32) :
    read4bytes ⟨front, (BufferField.word value).bytes ++ rest⟩ =
      .ok (value, ⟨front ++ (BufferField.word value).bytes, rest⟩) := by
  have taken := @take_append (BufferField.word value).bytes front rest
  change (SimpleBuffer.take _ 4 : Except Fault _) = _ at taken
  rw [read4bytes, taken]
  exact congrArg (fun v => Except.ok (v, SimpleBuffer.mk _ rest)) (Endian.be32_toBE32 value)

theorem read_bytes (f : BufferField) (front rest : Bytes) :
    read ⟨front, f.bytes ++ rest⟩ f.kind = .ok (f.back, ⟨front ++ f.bytes, rest⟩) := by
  cases f with
  | byte value =>
      have read := read1byte_cons front rest value
      change read1byte ⟨front, (BufferField.byte value).bytes ++ rest⟩ = _ at read
      rw [kind, SimpleBuffer.read, read]
      rfl
  | short value =>
      rw [kind, SimpleBuffer.read, read2bytes_write2bytes]
      change Except.ok (BufferField.short (Int16.ofInt value.toInt), _) = _
      rw [Int16.ofInt_toInt]
      rfl
  | medium value =>
      rw [kind, SimpleBuffer.read, read3bytes_write3bytes]
      rfl
  | word value =>
      rw [kind, SimpleBuffer.read, read4bytes_write4bytes]
      rfl
  | long value =>
      have read := read8bytes_write front rest value
      change read8bytes ⟨front, (BufferField.long value).bytes ++ rest⟩ = _ at read
      rw [kind, SimpleBuffer.read, read]
      rfl
  | string value =>
      have read := @readString_append value front rest
      change readString ⟨front, (BufferField.string value).bytes ++ rest⟩ value.length = _ at read
      rw [kind, SimpleBuffer.read, read]
      rfl

/-- However writing and reading take turns, what is unread is the bytes of the fields in the queue. -/
theorem calls_queued {sb : SimpleBuffer} {queue fields left : List BufferField} {turns : List Call}
    (holds : sb.rest = queue.flatMap BufferField.bytes)
    (goes : queued queue turns = some (fields, left)) :
    ∃ sb', sb.calls turns = .ok (fields, sb') ∧ sb'.rest = left.flatMap BufferField.bytes := by
  induction turns generalizing sb queue fields with
  | nil =>
      cases goes
      exact ⟨sb, rfl, holds⟩
  | cons call later ih =>
      cases call with
      | write f =>
          refine ih ?_ goes
          rw [write_push, push, holds, List.flatMap_append, List.flatMap_singleton]
      | read kind =>
          cases queue with
          | nil => cases goes
          | cons f queue =>
              simp only [queued] at goes
              split at goes
              · next asked =>
                  obtain ⟨⟨fields', left'⟩, later', same⟩ := Option.map_eq_some_iff.mp goes
                  cases same
                  have front := read_bytes f sb.front (queue.flatMap BufferField.bytes)
                  rw [← List.flatMap_cons, ← holds, asked] at front
                  have unread : (SimpleBuffer.mk (sb.front ++ f.bytes)
                      (queue.flatMap BufferField.bytes)).rest = queue.flatMap BufferField.bytes := rfl
                  obtain ⟨sb', ran, rest⟩ := ih unread later'
                  refine ⟨sb', ?_, rest⟩
                  change (sb.read kind >>= _) = _
                  rw [show sb.read kind = _ from front]
                  change (calls _ later >>= _) = _
                  rw [ran]
                  rfl
              · cases goes

end SimpleBuffer

/-- A buffer that starts empty returns, for any sequence of writes and reads in which every read asks
    for the kind of the oldest field not yet read, these fields in the order they were written, each
    as it was written but for numbers that three bytes do not hold. -/
theorem buffer_returns_written (turns : List SimpleBuffer.Call) {fields left : List BufferField}
    (goes : queued [] turns = some (fields, left)) :
    ∃ sb, SimpleBuffer.calls {} turns = .ok (fields, sb) ∧
      sb.rest = left.flatMap BufferField.bytes :=
  SimpleBuffer.calls_queued rfl goes

/-- A negative number of two bytes comes back, and one of three bytes does not; a string is written
    before it is its turn. -/
theorem buffer_returns_written_mixed :
    ∃ sb, SimpleBuffer.calls {} [.write (.short (-2)), .write (.medium 0xffffffff), .read .short,
        .write (.string (ascii "ab")), .write (.byte 7), .read .medium, .read (.string 2)] =
          .ok ([.short (-2), .medium 0x00ffffff, .string (ascii "ab")], sb) ∧
      sb.rest = [7] :=
  buffer_returns_written _ (show queued [] _ = some (_, [BufferField.byte 7]) by decide)

end DroneServer
