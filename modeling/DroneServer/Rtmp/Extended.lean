import DroneServer.Rtmp.OneStream
import DroneServer.Rtmp.Waiting

/-! # Extended times

A peer whose times do not fit three bytes puts 0xFFFFFF in their place and the
time behind the header, and repeats the four bytes in every type 3 chunk. The
reader takes them for little endian, tells a type 3 chunk that goes on with a
message by comparing the field with the time it has, and looks for no field in a
type 3 chunk that starts a message behind another one. `Clock.Meets` says when none
of this matters.
-/

namespace DroneServer

open Endian

/-- A word whose bytes are taken in the other order. -/
def byteSwap (v : UInt32) : UInt32 :=
  le32 (v >>> 24).toUInt8 (v >>> 16).toUInt8 (v >>> 8).toUInt8 v.toUInt8

/-- The bytes of a header with an extended time; a type 3 header repeats the field. -/
def MessageHeader.encodeExtended (field : UInt32) : MessageHeader → Bytes
  | .f0 time len type streamId =>
      toBE24 0xffffff ++ toBE24 len ++ [type] ++ toLE32 streamId ++ toBE32 time
  | .f1 dtime len type => toBE24 0xffffff ++ toBE24 len ++ [type] ++ toBE32 dtime
  | .f2 dtime => toBE24 0xffffff ++ toBE32 dtime
  | .f3 => toBE32 field

/-- The header as the reader understands it. -/
def MessageHeader.swapped : MessageHeader → MessageHeader
  | .f0 time len type streamId => .f0 (byteSwap time) len type streamId
  | .f1 dtime len type => .f1 (byteSwap dtime) len type
  | .f2 dtime => .f2 (byteSwap dtime)
  | .f3 => .f3

theorem MessageHeader.swapped_fmt (h : MessageHeader) : h.swapped.fmt = h.fmt := by
  cases h <;> rfl

theorem Progress.Entered.of_swapped {p : Progress} {h : MessageHeader} {cs : RtmpChunkStream}
    (entered : p.Entered h.swapped cs) : p.Entered h cs := by
  cases h with
  | f0 => exact { entered with rem := entered.rem, len := entered.len }
  | f1 => exact { entered with rem := entered.rem, len := entered.len }
  | f2 => exact { entered with rem := entered.rem, len := entered.len }
  | f3 => exact entered

/-- What counts for the time of the next chunk: the time of the last message, the value of the last
    header of type 0, 1 or 2, and the format of the last chunk. -/
structure Clock where
  time : UInt32 := 0xffffffff
  value : UInt32 := 0
  format : Option UInt8 := none

namespace Clock

def next (k : Clock) (p : Progress) (c : StreamChunk) : Clock :=
  match c.header with
  | .f0 time _ _ _ => ⟨time, time, some 0⟩
  | .f1 dtime _ _ => ⟨k.time + dtime, dtime, some 1⟩
  | .f2 dtime => ⟨k.time + dtime, dtime, some 2⟩
  | .f3 =>
      { k with
        time := if p.left ≠ 0 then k.time else if k.format = some 0 then k.value
          else k.time + k.value
        format := some 3 }

/-- A value reads the same in both byte orders; a chunk that goes on with a message finds the time
    of the message equal to the value; a chunk that repeats the header of the message before
    follows a chunk of type 0, 1 or 2. -/
def Meets (k : Clock) (p : Progress) (c : StreamChunk) : Prop :=
  match c.header with
  | .f0 value _ _ _ | .f1 value _ _ | .f2 value => byteSwap value = value
  | .f3 =>
      if p.left ≠ 0 then k.time = k.value
      else k.format = some 0 ∨ k.format = some 1 ∨ k.format = some 2

instance (k : Clock) (p : Progress) (c : StreamChunk) : Decidable (k.Meets p c) := by
  unfold Meets
  cases c.header <;> infer_instance

/-- All of these chunks do. -/
def AllMeet (k : Clock) (p : Progress) : List StreamChunk → Prop
  | [] => True
  | c :: chunks => k.Meets p c ∧ (k.next p c).AllMeet (p.next c) chunks

instance decidableAllMeet : (k : Clock) → (p : Progress) → (chunks : List StreamChunk) →
    Decidable (k.AllMeet p chunks)
  | _, _, [] => .isTrue trivial
  | k, p, c :: chunks =>
      have := decidableAllMeet (k.next p c) (p.next c) chunks
      inferInstanceAs (Decidable (_ ∧ _))

/-- The time that a chunk should leave behind, where `time` was the one before it. -/
def Times (p : Progress) (time time' : UInt32) : MessageHeader → Prop
  | .f0 value _ _ _ => time' = value
  | .f1 value _ _ | .f2 value => time' = time + value
  | .f3 => p.left ≠ 0 → time' = time

/-- The reader takes this chunk as it is meant, whatever follows: all of its bytes, its part of the
    payload and nothing else into the payload, and the time. -/
structure Takes (k : Clock) (p : Progress) (cs : RtmpChunkStream) (c : StreamChunk)
    (cs' : RtmpChunkStream) : Prop where
  read : ∀ rest, cs.readOn c.size c.header.fmt
    (c.header.encodeExtended k.value ++ (c.piece ++ rest)) = .ok (.ok, cs', rest)
  data : cs'.data = p.sent ++ c.piece
  time : Times p cs.time cs'.time c.header

/-- It so takes all of these chunks. -/
def TakesAll (k : Clock) (p : Progress) (cs : RtmpChunkStream) : List StreamChunk → Prop
  | [] => True
  | c :: chunks => ∃ cs', k.Takes p cs c cs' ∧ (k.next p c).TakesAll (p.next c) cs'.handled chunks

/-- The memory has the time, the format, and the mark of an extended time. -/
structure Tells (k : Clock) (cs : RtmpChunkStream) : Prop where
  time : cs.time = k.time
  fmt : cs.fmt = k.format
  ext : cs.fmt.isSome → cs.extTs = true ∧ byteSwap k.value = k.value

end Clock

namespace RtmpChunkStream

theorem readFull_marked {size : Nat} (assign : Bytes → UInt32 → RtmpChunkStream → RtmpChunkStream)
    (cs : RtmpChunkStream) (value : UInt32) (tail rest : Bytes) (length : tail.length + 3 = size) :
    readFull size assign cs (toBE24 0xffffff ++ tail ++ (toBE32 value ++ rest)) =
      (.ok, assign (toBE24 0xffffff ++ tail) (byteSwap value) { cs with extTs := true }, rest) := by
  have header : (toBE24 0xffffff ++ tail).length = size := by
    simp only [List.length_append, toBE24_length]
    omega
  have enough : ¬ (toBE24 0xffffff ++ tail ++ (toBE32 value ++ rest)).length < size := by
    rw [List.length_append, header]
    omega
  have extended : ¬ (toBE24 0xffffff ++ tail ++ (toBE32 value ++ rest)).length < size + 4 := by
    rw [List.length_append, header, List.length_append, toBE32_length]
    omega
  have front : (toBE24 0xffffff ++ tail ++ (toBE32 value ++ rest)).take size =
      toBE24 0xffffff ++ tail := List.take_left' header
  have back : (toBE24 0xffffff ++ tail ++ (toBE32 value ++ rest)).drop size =
      toBE32 value ++ rest := List.drop_left' header
  have mark : be24 ((toBE24 0xffffff ++ tail).getD 0 0) ((toBE24 0xffffff ++ tail).getD 1 0)
      ((toBE24 0xffffff ++ tail).getD 2 0) = 0xffffff := be24_toBE24 (by decide)
  simp only [readFull, enough, extended, if_false, front, back, mark, if_true]
  rfl

theorem readHeader_extended {cs : RtmpChunkStream} {h : MessageHeader} {p : Progress}
    (idle : cs.state = .header) (full : h ≠ .f3) (short : ∀ len ∈ p.announced h, len.toNat < 2 ^ 24)
    (field : UInt32) (rest : Bytes) :
    cs.readHeader h.fmt (h.encodeExtended field ++ rest) =
      .ok (.ok, h.swapped.apply { cs with extTs := true }, rest) := by
  obtain ⟨zero, one, two, -⟩ := readHeader_idle idle (h.encodeExtended field ++ rest)
  cases h with
  | f0 time len type streamId =>
      have read : cs.readF0 ((MessageHeader.f0 time len type streamId).encodeExtended field ++ rest) =
          (.ok, assignF0 (MessageHeader.f0 0xffffff len type streamId).encode (byteSwap time)
            { cs with extTs := true }, rest) :=
        readFull_marked assignF0 cs time (toBE24 len ++ [type] ++ toLE32 streamId) rest rfl
      have lenRead : headerLen (MessageHeader.f0 0xffffff len type streamId).encode = len :=
        be24_toBE24 (short len rfl)
      have streamRead :
          headerStream (MessageHeader.f0 0xffffff len type streamId).encode = streamId :=
        be32_toBE32 streamId
      refine zero.trans ?_
      rw [read, assignF0, lenRead, streamRead]
      rfl
  | f1 dtime len type =>
      have read : cs.readF1 ((MessageHeader.f1 dtime len type).encodeExtended field ++ rest) =
          (.ok, assignF1 (MessageHeader.f1 0xffffff len type).encode (byteSwap dtime)
            { cs with extTs := true }, rest) :=
        readFull_marked assignF1 cs dtime (toBE24 len ++ [type]) rest rfl
      have lenRead : headerLen (MessageHeader.f1 0xffffff len type).encode = len :=
        be24_toBE24 (short len rfl)
      refine one.trans ?_
      rw [read, assignF1, lenRead]
      rfl
  | f2 dtime =>
      have read : cs.readF2 ((MessageHeader.f2 dtime).encodeExtended field ++ rest) =
          (.ok, assignF2 (MessageHeader.f2 0xffffff).encode (byteSwap dtime)
            { cs with extTs := true }, rest) := readFull_marked assignF2 cs dtime [] rest rfl
      refine two.trans ?_
      rw [read]
      rfl
  | f3 => exact absurd rfl full

/-- A type 3 header that goes on with a message takes the field if it is the time. -/
theorem readHeader_going_on {cs : RtmpChunkStream} {rem : UInt32} (idle : cs.state = .header)
    (ext : cs.extTs = true) (left : cs.rem = some rem) (unfinished : rem ≠ 0) (field : UInt32)
    (rest : Bytes) :
    cs.readHeader 3 (toBE32 field ++ rest) = .ok (.ok, { cs with fmt := some 3, state := .payload },
      if byteSwap field = cs.time then rest else toBE32 field ++ rest) := by
  have read : cs.readF3 (toBE32 field ++ rest) =
      .ok (.ok, cs, if byteSwap field = cs.time then rest else toBE32 field ++ rest) := by
    have enough : ¬ (toBE32 field ++ rest).length < 4 := by
      rw [List.length_append, toBE32_length]
      omega
    simp only [readF3, left, unfinished, if_false, ext, if_true, enough]
    rfl
  rw [(readHeader_idle idle _).2.2.2, read]
  rfl

/-- A type 3 header that starts a message takes the field behind a chunk of another type. -/
theorem readHeader_starting {cs : RtmpChunkStream} (idle : cs.state = .header)
    (ext : cs.extTs = true) (done : cs.rem = some 0)
    (full : cs.fmt = some 0 ∨ cs.fmt = some 1 ∨ cs.fmt = some 2) (field : UInt32) (rest : Bytes) :
    cs.readHeader 3 (toBE32 field ++ rest) = .ok (.ok,
      { cs.restart (if cs.fmt = some 0 then byteSwap field else cs.time + byteSwap field) with
        fmt := some 3, state := .payload }, rest) := by
  have enough : ¬ (toBE32 field ++ rest).length < 4 := by
    rw [List.length_append, toBE32_length]
    omega
  rw [(readHeader_idle idle _).2.2.2, readF3_field done ext full, if_neg enough]
  rfl

theorem readHeader_overlooking {cs : RtmpChunkStream} (idle : cs.state = .header)
    (done : cs.rem = some 0) {fmt : UInt8} (last : cs.fmt = some fmt)
    (other : fmt ≠ 0 ∧ fmt ≠ 1 ∧ fmt ≠ 2) (buf : Bytes) :
    cs.readHeader 3 buf =
      .ok (.ok, { cs.restart cs.time with fmt := some 3, state := .payload }, buf) := by
  rw [(readHeader_idle idle _).2.2.2, readF3_again done last other]
  rfl

end RtmpChunkStream

namespace Clock

open RtmpChunkStream

variable {k : Clock} {p : Progress} {cs hd : RtmpChunkStream} {c : StreamChunk}

theorem takes_header (entered : p.Entered c.header hd) (conforms : p.Conforms c)
    (fits : p.todo c.header < 2 ^ 24)
    (header : ∀ rest, cs.readHeader c.header.fmt (c.header.encodeExtended k.value ++ rest) =
      .ok (.ok, hd, rest)) (time : Times p cs.time hd.time c.header) :
    ∃ cs', k.Takes p cs c cs' ∧ (p.next c).Holds cs'.handled ∧ cs'.handled.time = hd.time ∧
      cs'.handled.fmt = some c.header.fmt ∧ cs'.handled.extTs = hd.extTs := by
  obtain ⟨cs', payload, data, -, holds, same, -, fmt, extTs⟩ := entered.payload conforms fits
  refine ⟨cs', ⟨fun rest => ?_, data, ?_⟩, holds, same, fmt.trans entered.fmt, extTs⟩
  · rw [readOn, header]
    exact payload rest
  · rwa [← (handled_keeps cs').1, same]

theorem Takes.header_time {cs' : RtmpChunkStream} (takes : k.Takes p cs c cs')
    (entered : p.Entered c.header hd) (conforms : p.Conforms c) (fits : p.todo c.header < 2 ^ 24)
    (header : ∀ rest, cs.readHeader c.header.fmt (c.header.encodeExtended k.value ++ rest) =
      .ok (.ok, hd, rest)) : Times p cs.time hd.time c.header := by
  obtain ⟨cs'', payload, -, -, -, same, -⟩ := entered.payload conforms fits
  have read := takes.read []
  rw [readOn, header] at read
  cases (payload []).symm.trans read
  rw [← same, (handled_keeps cs').1]
  exact takes.time

theorem Takes.field_taken {cs' : RtmpChunkStream} (takes : k.Takes p cs c cs')
    (entered : p.Entered c.header hd) (conforms : p.Conforms c) (fits : p.todo c.header < 2 ^ 24)
    (header : ∀ rest, cs.readHeader c.header.fmt (c.header.encodeExtended k.value ++ rest) =
      .ok (.ok, hd, toBE32 k.value ++ rest)) : False := by
  obtain ⟨rem, asks, -, length⟩ := entered.asks conforms fits
  have read := takes.read []
  have left : (toBE32 k.value ++ (c.piece ++ [])).length = 4 + c.piece.length := by
    rw [List.length_append, toBE32_length, List.append_nil]
  rw [readOn, header] at read
  change hd.readPayload c.size _ = _ at read
  rw [readPayload_eq entered.state asks, ← length, if_neg (by omega)] at read
  have rests : (toBE32 k.value ++ (c.piece ++ [])).drop c.piece.length = [] :=
    congrArg (fun read : Ret × RtmpChunkStream × Bytes => read.2.2) (Except.ok.inj read)
  have none := congrArg List.length rests
  rw [List.length_drop, left, List.length_nil] at none
  omega

/-- The reader's time is the one meant when the value is the same in both byte orders. -/
theorem times_swapped (full : c.header ≠ .f3) :
    Times p cs.time (c.header.swapped.apply { cs with extTs := true }).time c.header ↔
      k.Meets p c := by
  unfold Meets
  cases header : c.header with
  | f0 => exact .rfl
  | f1 | f2 => exact UInt32.add_right_inj _
  | f3 => exact absurd header full

theorem Tells.full (tells : k.Tells cs) (full : c.header ≠ .f3) (meets : k.Meets p c)
    {cs' : RtmpChunkStream}
    (time : cs'.time = (c.header.swapped.apply { cs with extTs := true }).time)
    (fmt : cs'.fmt = some c.header.fmt)
    (extTs : cs'.extTs = (c.header.swapped.apply { cs with extTs := true }).extTs) :
    (k.next p c).Tells cs' := by
  unfold Meets at meets
  unfold next
  cases header : c.header with
  | f0 value =>
      rw [header] at meets time fmt extTs
      exact ⟨time.trans meets, fmt, fun _ => ⟨extTs, meets⟩⟩
  | f1 value | f2 value =>
      rw [header] at meets time fmt extTs
      refine ⟨time.trans ?_, fmt, fun _ => ⟨extTs, meets⟩⟩
      exact congrArg₂ (· + ·) tells.time meets
  | f3 => exact absurd header full

theorem full_iff (holds : p.Holds cs) (conforms : p.Conforms c) (tells : k.Tells cs)
    (full : c.header ≠ .f3) :
    (k.Meets p c → ∃ cs', k.Takes p cs c cs' ∧ (p.next c).Holds cs'.handled ∧
        (k.next p c).Tells cs'.handled) ∧
      ∀ cs', k.Takes p cs c cs' → k.Meets p c := by
  have holdsExt : p.Holds { cs with extTs := true } := { holds with }
  have entered : p.Entered c.header (c.header.swapped.apply { cs with extTs := true }) :=
    (holdsExt.enter (c.header.swapped_fmt ▸ conforms.begun)).of_swapped
  have header := readHeader_extended holds.state full conforms.short k.value
  have fits := holds.todo_lt conforms
  constructor
  · intro meets
    obtain ⟨cs', takes, holds', time, fmt, extTs⟩ :=
      takes_header entered conforms fits header ((times_swapped full).mpr meets)
    exact ⟨cs', takes, holds', tells.full full meets time fmt extTs⟩
  · exact fun cs' takes => (times_swapped full).mp (takes.header_time entered conforms fits header)

theorem going_on_iff (holds : p.Holds cs) (conforms : p.Conforms c) (tells : k.Tells cs)
    (repeats : c.header = .f3) (under_way : p.left ≠ 0) :
    (k.Meets p c → ∃ cs', k.Takes p cs c cs' ∧ (p.next c).Holds cs'.handled ∧
        (k.next p c).Tells cs'.handled) ∧
      ∀ cs', k.Takes p cs c cs' → k.Meets p c := by
  obtain ⟨size, _, piece⟩ := c
  cases (repeats : _ = MessageHeader.f3)
  obtain ⟨len, there⟩ := Option.isSome_iff_exists.mp (conforms.begun (by simp [MessageHeader.fmt]))
  obtain ⟨-, rem, known⟩ := holds.known there
  obtain ⟨ext, same⟩ := tells.ext known
  have unfinished : UInt32.ofNat p.left ≠ 0 := mt (Progress.ofNat_eq_zero holds.small).mp under_way
  have entered := holds.repeats there cs.time
  have fits := holds.todo_lt conforms
  have header := readHeader_going_on holds.state ext rem unfinished k.value
  have meets : k.Meets p ⟨size, .f3, piece⟩ ↔ byteSwap k.value = cs.time := by
    simp only [Meets, under_way, ne_eq, not_false_eq_true, if_true, same, tells.time]
    exact eq_comm
  rw [if_neg under_way] at entered
  rw [meets]
  constructor
  · intro equal
    simp only [equal, if_true] at header
    obtain ⟨cs', takes, holds', time, fmt, extTs⟩ :=
      takes_header entered conforms fits header fun _ => rfl
    refine ⟨cs', takes, holds', time.trans ?_, fmt, fun _ => ⟨extTs.trans ext, same⟩⟩
    simp only [next, under_way, ne_eq, not_false_eq_true, if_true]
    exact tells.time
  · intro cs' takes
    by_contra differs
    simp only [differs, if_false] at header
    exact takes.field_taken entered conforms fits header

theorem starting_iff (holds : p.Holds cs) (conforms : p.Conforms c) (tells : k.Tells cs)
    (repeats : c.header = .f3) (ended : p.left = 0) :
    (k.Meets p c → ∃ cs', k.Takes p cs c cs' ∧ (p.next c).Holds cs'.handled ∧
        (k.next p c).Tells cs'.handled) ∧
      ∀ cs', k.Takes p cs c cs' → k.Meets p c := by
  obtain ⟨size, _, piece⟩ := c
  cases (repeats : _ = MessageHeader.f3)
  obtain ⟨len, there⟩ := Option.isSome_iff_exists.mp (conforms.begun (by simp [MessageHeader.fmt]))
  obtain ⟨-, -, known⟩ := holds.known there
  obtain ⟨ext, same⟩ := tells.ext known
  have done := (holds.done there).mpr ended
  have fits := holds.todo_lt conforms
  have entered := holds.repeats there
  have meets : k.Meets p ⟨size, .f3, piece⟩ ↔
      cs.fmt = some 0 ∨ cs.fmt = some 1 ∨ cs.fmt = some 2 := by
    simp only [Meets, ended, ne_eq, not_true_eq_false, if_false, tells.fmt]
  simp only [if_pos ended] at entered
  rw [meets]
  constructor
  · intro full
    obtain ⟨cs', takes, holds', time, fmt, extTs⟩ := takes_header (entered _) conforms fits
      (readHeader_starting holds.state ext done full k.value) fun under_way => absurd ended under_way
    refine ⟨cs', takes, holds', time.trans ?_, fmt, fun _ => ⟨extTs.trans ext, same⟩⟩
    simp only [next, ended, ne_eq, not_true_eq_false, if_false, ← tells.fmt, ← tells.time, same]
    rfl
  · intro cs' takes
    by_contra other
    obtain ⟨fmt, last⟩ := Option.isSome_iff_exists.mp known
    simp only [last, Option.some_inj, not_or] at other
    exact takes.field_taken (entered _) conforms fits fun rest =>
      readHeader_overlooking holds.state done last other _

theorem tells_fresh (csid : UInt16) : Tells {} { csid } :=
  ⟨rfl, rfl, fun known => by cases known⟩

/-- A run of chunks is taken as it is meant exactly if each chunk meets what the reader expects. -/
theorem takesAll_iff (holds : p.Holds cs) (tells : k.Tells cs) {chunks : List StreamChunk}
    (conformant : p.Conformant chunks) : k.TakesAll p cs chunks ↔ k.AllMeet p chunks := by
  induction chunks generalizing k p cs with
  | nil => exact .rfl
  | cons c chunks ih =>
      obtain ⟨conforms, later⟩ := conformant
      have step : (k.Meets p c → ∃ cs', k.Takes p cs c cs' ∧ (p.next c).Holds cs'.handled ∧
          (k.next p c).Tells cs'.handled) ∧ ∀ cs', k.Takes p cs c cs' → k.Meets p c := by
        by_cases repeats : c.header = .f3
        · by_cases ended : p.left = 0
          · exact starting_iff holds conforms tells repeats ended
          · exact going_on_iff holds conforms tells repeats ended
        · exact full_iff holds conforms tells repeats
      constructor
      · rintro ⟨cs', takes, rest⟩
        have meets := step.2 cs' takes
        obtain ⟨cs₁, takes₁, holds₁, tells₁⟩ := step.1 meets
        have same : cs' = cs₁ := by
          have read := (takes.read []).symm.trans (takes₁.read [])
          cases read
          rfl
        rw [same] at rest
        exact ⟨meets, (ih holds₁ tells₁ later).mp rest⟩
      · rintro ⟨meets, rest⟩
        obtain ⟨cs', takes, holds', tells'⟩ := step.1 meets
        exact ⟨cs', takes, (ih holds' tells' later).mpr rest⟩

end Clock

/-- A peer's chunks with extended times, on a chunk stream from its first chunk on, are all taken as
    they are meant exactly if each of them meets what the reader expects. -/
theorem extended_times_iff (csid : UInt16) {chunks : List StreamChunk}
    (conformant : ({} : Progress).Conformant chunks) :
    ({} : Clock).TakesAll {} { csid } chunks ↔ ({} : Clock).AllMeet {} chunks :=
  Clock.takesAll_iff (Progress.holds_fresh csid) (Clock.tells_fresh csid) conformant

/-- A message of two chunks whose time has the same bytes from either end. -/
theorem extended_times_symmetric : ({} : Clock).TakesAll {} { csid := 4 }
    [⟨2, .f0 0x02000002 3 8 1, [1, 2]⟩, ⟨2, .f3, [3]⟩] :=
  (extended_times_iff 4 (by decide)).mpr (by decide)

/-- The first time that is too long for three bytes and their mark is taken for 1. -/
theorem extended_time_reversed : ¬ ∀ (csid : UInt16) (chunks : List StreamChunk),
    ({} : Progress).Conformant chunks → ({} : Clock).TakesAll {} { csid } chunks := by
  intro all
  have conformant : ({} : Progress).Conformant [⟨128, .f0 0x01000000 1 8 1, [7]⟩] := by decide
  obtain ⟨cs', takes, -⟩ := all 4 _ conformant
  have meets := (Clock.full_iff (Progress.holds_fresh 4) conformant.1 (Clock.tells_fresh 4)
    (by decide)).2 cs' takes
  exact absurd meets (by decide)

end DroneServer
