import DroneServer.Rtmp.Segmentation

/-! # The chunks of one chunk stream

A peer that keeps to the protocol, seen on one chunk stream: which chunks it may
send next, and how much of which message it has sent by then. The reader's memory
holds this progress between two chunks, whatever the chunks say about the time and
whatever chunk size each of them was cut by.
-/

namespace DroneServer

instance (h : MessageHeader) : Decidable h.Plain := by
  unfold MessageHeader.Plain
  cases h <;> infer_instance

/-- A chunk without its basic header: the chunk size in force, the message header, and the part of
    the payload. -/
structure StreamChunk where
  size : UInt32
  header : MessageHeader
  piece : Bytes

/-- How far the peer has got. -/
structure Progress where
  /-- The length announced last, once a full header was sent. -/
  len : Option UInt32 := none
  /-- What is still to be sent of the message under way, and what was sent of it. -/
  left : Nat := 0
  sent : Bytes := []

namespace Progress

/-- The length of the message a chunk with this header belongs to. -/
def announced (p : Progress) : MessageHeader → Option UInt32
  | .f0 _ len _ _ | .f1 _ len _ => some len
  | .f2 _ | .f3 => p.len

/-- The header starts a message. -/
def Starts (p : Progress) (h : MessageHeader) : Prop := h ≠ .f3 ∨ p.left = 0

instance (p : Progress) (h : MessageHeader) : Decidable (p.Starts h) :=
  inferInstanceAs (Decidable (_ ∨ _))

/-- What is to be sent from this header on. -/
def todo (p : Progress) (h : MessageHeader) : Nat :=
  if p.Starts h then ((p.announced h).getD 0).toNat else p.left

/-- The peer may send this chunk next. -/
structure Conforms (p : Progress) (c : StreamChunk) : Prop where
  /-- The length fits its field. -/
  short : ∀ len ∈ p.announced c.header, len.toNat < 2 ^ 24
  /-- The first header is a full one. -/
  begun : c.header.fmt ≠ 0 → p.len.isSome
  /-- A message is sent to its end before the next. -/
  whole : c.header ≠ .f3 → p.left = 0
  piece : c.piece.length = min c.size.toNat (p.todo c.header)

instance (p : Progress) (c : StreamChunk) : Decidable (p.Conforms c) :=
  -- The test of the length is spelt out: a search for one may try every `UInt32`.
  decidable_of_iff ((p.announced c.header).all (fun len => len.toNat < 2 ^ 24) = true ∧
      (c.header.fmt ≠ 0 → p.len.isSome) ∧ (c.header ≠ .f3 → p.left = 0) ∧
      c.piece.length = min c.size.toNat (p.todo c.header))
    ⟨fun both => ⟨by simpa [Option.all_eq_true] using both.1, both.2.1, both.2.2.1, both.2.2.2⟩,
      fun conforms => ⟨by simpa [Option.all_eq_true] using conforms.short, conforms.begun,
        conforms.whole, conforms.piece⟩⟩

def next (p : Progress) (c : StreamChunk) : Progress where
  len := p.announced c.header
  left := p.todo c.header - c.piece.length
  sent := if p.todo c.header - c.piece.length = 0 then [] else p.sent ++ c.piece

/-- The peer may send these chunks, one after the other. -/
def Conformant (p : Progress) : List StreamChunk → Prop
  | [] => True
  | c :: chunks => p.Conforms c ∧ (p.next c).Conformant chunks

instance decidableConformant : (p : Progress) → (chunks : List StreamChunk) →
    Decidable (p.Conformant chunks)
  | _, [] => .isTrue trivial
  | p, c :: chunks =>
      have := decidableConformant (p.next c) chunks
      inferInstanceAs (Decidable (_ ∧ _))

def run (p : Progress) (chunks : List StreamChunk) : Progress := chunks.foldl next p

theorem conformant_append {p : Progress} {first second : List StreamChunk} :
    p.Conformant (first ++ second) ↔ p.Conformant first ∧ (p.run first).Conformant second := by
  induction first generalizing p with
  | nil => simp [Conformant, run]
  | cons c first ih =>
      simp only [List.cons_append, Conformant, ih, and_assoc]
      rfl

end Progress

namespace RtmpChunkStream

/-- What `read_chunk_stream` does past the basic header, to the chunk stream it is about. -/
def readOn (cs : RtmpChunkStream) (maxChunkSize : UInt32) (fmt : UInt8) (buf : Bytes) :
    Except Fault (Ret × RtmpChunkStream × Bytes) := do
  let (ret, cs, buf) ← cs.readHeader fmt buf
  if ret ≠ .ok then pure (ret, cs, buf) else cs.readPayload maxChunkSize buf

/-- A complete message has been handled. -/
def handled (cs : RtmpChunkStream) : RtmpChunkStream := if cs.ready then cs.clear else cs

theorem handled_keeps (cs : RtmpChunkStream) : cs.handled.time = cs.time ∧
    cs.handled.dtime = cs.dtime ∧ cs.handled.fmt = cs.fmt ∧ cs.handled.extTs = cs.extTs := by
  unfold handled
  split <;> exact ⟨rfl, rfl, rfl, rfl⟩

theorem readPayload_exact {cs : RtmpChunkStream} {rem : UInt32} (state : cs.state = .payload)
    (left : cs.rem = some rem) {maxChunkSize : UInt32} {piece : Bytes}
    (length : piece.length = (asked rem maxChunkSize).toNat) (rest : Bytes) :
    cs.readPayload maxChunkSize (piece ++ rest) = .ok (.ok,
      { cs with
        data := cs.data ++ piece
        rem := some (rem - asked rem maxChunkSize)
        ready := if rem - asked rem maxChunkSize = 0 then true else cs.ready
        state := .header }, rest) := by
  have enough : ¬ (piece ++ rest).length < piece.length := by
    rw [List.length_append]
    omega
  rw [readPayload_eq state left, ← length, if_neg enough, taken, ← length, List.take_left,
    List.drop_left]

end RtmpChunkStream

theorem RtmpSession.readBody_readOn (s : RtmpSession) (buf : Bytes) :
    s.readBody buf = (s.current.readOn s.maxChunkSize s.fmt buf).map s.afterPayload := by
  unfold readBody RtmpChunkStream.readOn
  cases header : s.current.readHeader s.fmt buf with
  | error f => rfl
  | ok read =>
      obtain ⟨ret, cs, rest⟩ := read
      by_cases done : ret = .ok
      · cases payload : cs.readPayload s.maxChunkSize rest with
        | error f =>
            simp [done, payload, bind, Except.bind, Except.map]
        | ok read =>
            obtain ⟨ret', cs', rest'⟩ := read
            by_cases done' : ret' = .ok <;>
              simp [done, payload, done', afterPayload, setCurrent, bind, Except.bind, Except.map,
                pure, Except.pure]
      · simp [done, afterPayload, setCurrent, bind, Except.bind, Except.map, pure, Except.pure]

namespace Progress

open RtmpChunkStream MessageHeader

/-- The reader's memory between two chunks holds what the peer has sent. -/
structure Holds (p : Progress) (cs : RtmpChunkStream) : Prop where
  state : cs.state = .header
  unready : cs.ready = false
  data : cs.data = p.sent
  rem : cs.rem.getD 0 = UInt32.ofNat p.left
  small : p.left < 2 ^ 24
  rest : p.left = 0 → p.sent = []
  len : ∀ len ∈ p.len, cs.len = len ∧ len.toNat < 2 ^ 24 ∧ cs.rem.isSome ∧ cs.fmt.isSome

theorem holds_fresh (csid : UInt16) : Holds {} { csid } where
  state := rfl
  unready := rfl
  data := rfl
  rem := rfl
  small := by decide
  rest _ := rfl
  len := by simp

theorem ofNat_eq_zero {n : Nat} (small : n < 2 ^ 24) : UInt32.ofNat n = 0 ↔ n = 0 := by
  rw [← UInt32.toNat_inj, UInt32.toNat_ofNat_of_lt' (small.trans (by decide))]
  rfl

/-- Its memory once the header of the next chunk is read. -/
structure Entered (p : Progress) (h : MessageHeader) (cs : RtmpChunkStream) : Prop where
  state : cs.state = .payload
  unready : cs.ready = false
  data : cs.data = p.sent
  rem : cs.rem = some (UInt32.ofNat (p.todo h))
  len : p.announced h = some cs.len
  fmt : cs.fmt = some h.fmt

section

variable {p : Progress} {cs : RtmpChunkStream} {c : StreamChunk}

theorem Holds.known (holds : p.Holds cs) {len : UInt32} (there : p.len = some len) :
    cs.len = len ∧ cs.rem = some (UInt32.ofNat p.left) ∧ cs.fmt.isSome := by
  obtain ⟨same, -, left, fmt⟩ := holds.len len there
  refine ⟨same, ?_, fmt⟩
  have rem := holds.rem
  cases some : cs.rem with
  | none => simp [some] at left
  | some rem' =>
      rw [some] at rem
      rw [show rem' = _ from rem]

theorem Holds.done (holds : p.Holds cs) {len : UInt32} (there : p.len = some len) :
    cs.rem = some 0 ↔ p.left = 0 := by
  rw [(holds.known there).2.1, Option.some_inj]
  exact ofNat_eq_zero holds.small

/-- A type 3 header goes on with the message under way, or starts one of the same length. -/
theorem Holds.repeats (holds : p.Holds cs) {len : UInt32} (there : p.len = some len)
    (time : UInt32) :
    p.Entered .f3 { (if p.left = 0 then cs.restart time else cs) with
      fmt := some 3, state := .payload } := by
  obtain ⟨same, rem, -⟩ := holds.known there
  by_cases done : p.left = 0
  · rw [if_pos done]
    exact {
      state := rfl
      unready := rfl
      data := (holds.rest done).symm
      rem := by simp [restart, todo, Starts, done, announced, there, same]
      len := there.trans (congrArg some same.symm)
      fmt := rfl }
  · rw [if_neg done]
    exact {
      state := rfl
      unready := holds.unready
      data := holds.data
      rem := by simp [rem, todo, Starts, done]
      len := there.trans (congrArg some same.symm)
      fmt := rfl }

theorem Holds.enter (holds : p.Holds cs) {h : MessageHeader} (begun : h.fmt ≠ 0 → p.len.isSome) :
    p.Entered h (h.apply cs) := by
  cases h with
  | f0 time len type streamId =>
      exact ⟨rfl, holds.unready, holds.data, by simp [apply, todo, Starts, announced], rfl, rfl⟩
  | f1 dtime len type =>
      exact ⟨rfl, holds.unready, holds.data, by simp [apply, todo, Starts, announced], rfl, rfl⟩
  | f2 dtime =>
      obtain ⟨len, there⟩ := Option.isSome_iff_exists.mp (begun (by simp [MessageHeader.fmt]))
      obtain ⟨same, -⟩ := holds.known there
      exact ⟨rfl, holds.unready, holds.data,
        by simp [apply, todo, Starts, announced, there, same],
        there.trans (congrArg some same.symm), rfl⟩
  | f3 =>
      obtain ⟨len, there⟩ := Option.isSome_iff_exists.mp (begun (by simp [MessageHeader.fmt]))
      simp only [apply, holds.done there]
      exact holds.repeats there _

theorem Holds.todo_lt (holds : p.Holds cs)
    (conforms : p.Conforms c) : p.todo c.header < 2 ^ 24 := by
  unfold todo
  split
  · cases announced : p.announced c.header with
    | none => simp
    | some len => exact conforms.short len announced
  · exact holds.small

theorem Entered.asks (entered : p.Entered c.header cs) (conforms : p.Conforms c)
    (fits : p.todo c.header < 2 ^ 24) :
    ∃ rem, cs.rem = some rem ∧ rem.toNat = p.todo c.header ∧
      c.piece.length = (asked rem c.size).toNat := by
  have size : (UInt32.ofNat (p.todo c.header)).toNat = p.todo c.header :=
    UInt32.toNat_ofNat_of_lt' (fits.trans (by decide))
  refine ⟨_, entered.rem, size, ?_⟩
  rw [asked_toNat, size]
  exact conforms.piece

/-- The payload of a chunk is read to its end, and the memory holds the peer's next progress. -/
theorem Entered.payload (entered : p.Entered c.header cs) (conforms : p.Conforms c)
    (fits : p.todo c.header < 2 ^ 24) :
    ∃ cs', (∀ rest, cs.readPayload c.size (c.piece ++ rest) = .ok (.ok, cs', rest)) ∧
      cs'.data = p.sent ++ c.piece ∧ (cs'.ready = true ↔ (p.next c).left = 0) ∧
      (p.next c).Holds cs'.handled ∧ cs'.handled.time = cs.time ∧ cs'.handled.dtime = cs.dtime ∧
      cs'.handled.fmt = cs.fmt ∧ cs'.handled.extTs = cs.extTs := by
  obtain ⟨rem, asks, size, length⟩ := entered.asks conforms fits
  have inside : c.piece.length ≤ p.todo c.header := conforms.piece.trans_le (Nat.min_le_right _ _)
  have less : (p.next c).left < 2 ^ 24 := (Nat.sub_le _ _).trans_lt fits
  have left : (UInt32.ofNat (p.next c).left).toNat = (p.next c).left :=
    UInt32.toNat_ofNat_of_lt' (less.trans (by decide))
  have remaining : rem - asked rem c.size = UInt32.ofNat (p.next c).left := by
    apply UInt32.toNat_inj.mp
    rw [left, UInt32.toNat_sub_of_le _ _ (UInt32.le_iff_toNat_le.mpr ?_), ← length, size]
    · rfl
    · rw [← length, size]
      exact inside
  have done := ofNat_eq_zero less
  have announced : ∀ len ∈ (p.next c).len, cs.len = len ∧ len.toNat < 2 ^ 24 := by
    intro len there
    have same := Option.some.inj (entered.len.symm.trans there)
    exact ⟨same, conforms.short len there⟩
  refine ⟨_, readPayload_exact entered.state asks length, ?_, ?_, ?_, ?_⟩
  · simp only [entered.data]
  · simp only [remaining, done, entered.unready]
    split <;> simp [*]
  · simp only [remaining, done, entered.unready, entered.data, entered.fmt, handled]
    by_cases finished : (p.next c).left = 0
    · have sent : (p.next c).sent = [] := if_pos finished
      exact {
        state := by simp [finished, clear]
        unready := by simp [finished, clear]
        data := by simp [finished, clear, sent]
        rem := by simp [finished, clear]
        small := less
        rest := fun _ => sent
        len := fun len there => by
          simpa [finished, clear, and_assoc] using announced len there }
    · have sent : (p.next c).sent = p.sent ++ c.piece := if_neg finished
      exact {
        state := by simp [finished]
        unready := by simp [finished]
        data := by simp [finished, sent]
        rem := by simp [finished]
        small := less
        rest := fun finished' => absurd finished' finished
        len := fun len there => by simpa [finished, and_assoc] using announced len there }
  · exact handled_keeps _

end

end Progress

end DroneServer
