import DroneServer.Rtmp.Chunk

/-! # Messages that take several chunks

A message is cut into pieces of the chunk size, the first behind a header of its
own and the others behind a type 3 header. `Expecting` is what the reader's memory
looks like on the way and `Rested` what it looks like between two messages;
`readChunkStream_piece` takes it one chunk further.
-/

namespace DroneServer

/-- A message, with its time where that is of interest. -/
structure Message where
  type : UInt8
  streamId : UInt32
  payload : Bytes
  time : Option UInt32 := none
  deriving DecidableEq

namespace Message

/-- The length fits the header. -/
def Fits (m : Message) : Prop := m.payload.length < 2 ^ 24

def len (m : Message) : UInt32 := UInt32.ofNat m.payload.length

theorem Fits.len_toNat {m : Message} (fits : m.Fits) : m.len.toNat = m.payload.length := by
  have wide : m.payload.length < 2 ^ 32 := by
    have small : m.payload.length < 2 ^ 24 := fits
    omega
  exact UInt32.toNat_ofNat_of_lt' wide

end Message

namespace RtmpChunkStream

/-- The chunk stream holds the header of this message. -/
structure Heads (cs : RtmpChunkStream) (m : Message) : Prop where
  len : cs.len = m.len
  type : cs.type = m.type
  streamId : cs.streamId = m.streamId
  time : ∀ t ∈ m.time, cs.time = t
  noExt : cs.extTs = false
  known : cs.fmt.isSome

/-- It has collected part of the message and expects `left`. -/
structure Expecting (cs : RtmpChunkStream) (m : Message) (left : Bytes) : Prop extends
    cs.Heads m where
  whole : cs.data ++ left = m.payload
  rem : cs.rem = some (UInt32.ofNat left.length)
  unready : cs.ready = false

/-- It is between two messages. -/
structure Idle (cs : RtmpChunkStream) : Prop where
  idle : cs.state = .header
  noExt : cs.extTs = false
  empty : cs.data = []
  unready : cs.ready = false
  done : cs.rem.getD 0 = 0

/-- It is between two messages, the first of which was this one. -/
structure Rested (cs : RtmpChunkStream) (m : Message) : Prop extends cs.Idle, cs.Heads m where
  rem : cs.rem = some 0

/-- The memory repeats what the header of this message would say; its time is not said then. -/
structure Repeats (cs : RtmpChunkStream) (m : Message) : Prop where
  len : cs.len = m.len
  type : cs.type = m.type
  streamId : cs.streamId = m.streamId
  time : m.time = none

theorem Rested.repeats {cs : RtmpChunkStream} {last m : Message} (rested : cs.Rested last)
    (len : last.len = m.len) (type : last.type = m.type) (streamId : last.streamId = m.streamId)
    (time : m.time = none) : cs.Repeats m :=
  ⟨rested.len.trans len, rested.type.trans type, rested.streamId.trans streamId, time⟩

end RtmpChunkStream

/-- On a chunk stream with this memory, the header is one for this message. -/
def MessageHeader.Starts (cs : RtmpChunkStream) (m : Message) : MessageHeader → Prop
  | .f0 time len type streamId =>
      len = m.len ∧ type = m.type ∧ streamId = m.streamId ∧ ∀ t ∈ m.time, time = t
  | .f1 _ len type =>
      len = m.len ∧ type = m.type ∧ cs.streamId = m.streamId ∧ m.time = none
  | .f2 _ => cs.Repeats m
  | .f3 => cs.Repeats m ∧ cs.rem = some 0 ∧ cs.fmt.isSome

/-- A type 3 header starts a message only on a chunk stream that has seen one. -/
theorem MessageHeader.Starts.known {h : MessageHeader} {cs : RtmpChunkStream} {m : Message}
    (starts : h.Starts cs m) : h = .f3 → cs.rem.isSome ∧ cs.fmt.isSome := by
  rintro rfl
  obtain ⟨_, done, known⟩ := starts
  exact ⟨by rw [done]; rfl, known⟩

namespace RtmpChunkStream

/-- Between two messages, a header makes the chunk stream expect all of its message. -/
theorem Idle.starts {cs : RtmpChunkStream} {m : Message} {h : MessageHeader} (idle : cs.Idle)
    (starts : h.Starts cs m) : (h.apply cs).Expecting m m.payload := by
  have started : cs.data ++ m.payload = m.payload := by rw [idle.empty, List.nil_append]
  cases h with
  | f0 time len type streamId =>
      obtain ⟨rfl, rfl, rfl, told⟩ := starts
      exact ⟨⟨rfl, rfl, rfl, told, idle.noExt, rfl⟩, started, rfl, idle.unready⟩
  | f1 dtime len type =>
      obtain ⟨rfl, rfl, streamId, untold⟩ := starts
      refine ⟨⟨rfl, rfl, streamId, ?_, idle.noExt, rfl⟩, started, rfl, idle.unready⟩
      rw [untold]
      exact nofun
  | f2 dtime =>
      obtain ⟨len, type, streamId, untold⟩ := starts
      refine ⟨⟨len, type, streamId, ?_, idle.noExt, rfl⟩, started, ?_, idle.unready⟩
      · rw [untold]
        exact nofun
      · exact congrArg Option.some len
  | f3 =>
      obtain ⟨⟨len, type, streamId, untold⟩, done, known⟩ := starts
      simp only [MessageHeader.apply, if_pos done]
      refine ⟨⟨len, type, streamId, ?_, idle.noExt, rfl⟩, rfl, ?_, rfl⟩
      · rw [untold]
        exact nofun
      · exact congrArg Option.some len

namespace Expecting

variable {cs : RtmpChunkStream} {m : Message} {left : Bytes}

theorem length_lt (expecting : cs.Expecting m left) (fits : m.Fits) : left.length < 2 ^ 32 := by
  have small : m.payload.length < 2 ^ 24 := fits
  rw [← expecting.whole, List.length_append] at small
  omega

theorem continued (expecting : cs.Expecting m left) (fits : m.Fits) (unfinished : left ≠ []) :
    (MessageHeader.f3.apply cs).Expecting m left := by
  have more : UInt32.ofNat left.length ≠ 0 := by
    rw [← UInt32.toNat_inj.ne, UInt32.toNat_ofNat_of_lt' (expecting.length_lt fits)]
    exact mt List.length_eq_zero_iff.mp unfinished
  have going : cs.rem ≠ some 0 := by
    rw [expecting.rem]
    exact fun same => more (Option.some.inj same)
  have same : MessageHeader.f3.apply cs = { cs with fmt := some 3, state := .payload } := by
    simp only [MessageHeader.apply, if_neg going]
    rfl
  rw [same]
  exact { expecting with known := rfl }

theorem piece (expecting : cs.Expecting m left) {n : UInt32} (unfinished : left.drop n.toNat ≠ []) :
    (cs.collect n left).Expecting m (left.drop n.toNat) := by
  refine { expecting with whole := ?_, rem := rfl, unready := ?_ }
  · simp only [collect, List.append_assoc, List.take_append_drop]
    exact expecting.whole
  · simp only [collect, unfinished, if_false]
    exact expecting.unready

theorem last (expecting : cs.Expecting m left) {n : UInt32} (finished : left.drop n.toNat = []) :
    (cs.collect n left).ready = true ∧ (cs.collect n left).data = m.payload ∧
      (cs.collect n left).Heads m ∧ (cs.collect n left).clear.Rested m := by
  have all : left.take n.toNat = left := by
    have parts := List.take_append_drop n.toNat left
    rwa [finished, List.append_nil] at parts
  have rem : (cs.collect n left).clear.rem = some 0 := by
    simp only [clear, collect, finished]
    rfl
  have heads : (cs.collect n left).Heads m := { expecting.toHeads with }
  refine ⟨by simp only [collect, finished, if_true], ?_, heads, ?_⟩
  · simp only [collect, all]
    exact expecting.whole
  · exact { heads with
      idle := rfl, noExt := expecting.noExt, empty := rfl, unready := rfl,
      done := by rw [rem]; rfl, rem }

end Expecting

end RtmpChunkStream

namespace RtmpSession

open RtmpChunkStream

@[simp] theorem stored_current (s : RtmpSession) (csid : UInt16) (fmt : UInt8)
    (cs : RtmpChunkStream) : (s.stored csid fmt cs).current = cs := by
  simp only [current, stored, Function.update_self, Option.getD_some]

@[simp] theorem stored_setCurrent (s : RtmpSession) (csid : UInt16) (fmt : UInt8)
    (cs cs' : RtmpChunkStream) :
    (s.stored csid fmt cs).setCurrent cs' = s.stored csid fmt cs' := by
  simp only [setCurrent, stored, Function.update_idem]

@[simp] theorem stored_memory (s : RtmpSession) (csid : UInt16) (fmt : UInt8)
    (cs : RtmpChunkStream) : (s.stored csid fmt cs).memory csid = cs := by
  simp only [memory, stored, Function.update_self, Option.getD_some]

theorem stored_other (s : RtmpSession) {csid other : UInt16} (fmt : UInt8) (cs : RtmpChunkStream)
    (apart : other ≠ csid) : (s.stored csid fmt cs).memory other = s.memory other := by
  simp only [memory, stored, Function.update_of_ne apart]

/-- A chunk with the next piece of a message takes the memory one piece further. -/
theorem readChunkStream_piece {s : RtmpSession} {csid : UInt16} {h : MessageHeader} {m : Message}
    {left : Bytes} (fits : m.Fits) (between : s.headerRead = false) (narrow : csid < 64)
    (plain : h.Plain) (idle : (s.memory csid).state = .header)
    (noExt : (s.memory csid).extTs = false)
    (known : h = .f3 → (s.memory csid).rem.isSome ∧ (s.memory csid).fmt.isSome)
    (expecting : (h.apply (s.memory csid)).Expecting m left) :
    ∃ cs, (∀ rest, s.readChunkStream (chunk csid h (left.take s.maxChunkSize.toNat) ++ rest) =
        .ok (.ok, s.stored csid h.fmt cs, rest)) ∧
      ((left.drop s.maxChunkSize.toNat ≠ [] ∧ cs.state = .header ∧
          cs.Expecting m (left.drop s.maxChunkSize.toNat)) ∨
        (left.drop s.maxChunkSize.toNat = [] ∧ cs.ready = true ∧ cs.data = m.payload ∧
          cs.Heads m ∧ cs.clear.Rested m)) := by
  refine ⟨(h.apply (s.memory csid)).collect s.maxChunkSize left, fun rest => ?_, ?_⟩
  · exact readChunkStream_chunk between narrow plain idle noExt known (expecting.length_lt fits)
      expecting.rem rest
  · by_cases finished : left.drop s.maxChunkSize.toNat = []
    · exact .inr ⟨finished, expecting.last finished⟩
    · exact .inl ⟨finished, rfl, expecting.piece finished⟩

end RtmpSession

end DroneServer
