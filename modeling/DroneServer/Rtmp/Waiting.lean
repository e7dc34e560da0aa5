import DroneServer.Rtmp.Peer

/-! # Taking up a header that waits

`read_header` returns 1 when the bytes of a header are not all there, and is
called again with the same format when more have arrived. By then it has recorded
the format and perhaps that the time is extended. A header of type 0, 1 or 2 reads
neither of them back. A type 3 header that starts a message does: it asks the
format of the chunk before whether a time field follows.
-/

namespace DroneServer

open Endian

namespace RtmpChunkStream

/-- The memory of a chunk stream in some run of the process. -/
def Reached (cs : RtmpChunkStream) : Prop :=
  ∃ recordForce host x csid, (machine recordForce).Reachable host ∧
    (host.server.sessions x).csIn csid = some cs

/-- The buffer begins with a header of `size` bytes whose time is the mark of an extended one. -/
def Extended (size : Nat) (buf : Bytes) : Prop :=
  size ≤ buf.length ∧ timeField (buf.take size) = 0xffffff

theorem Extended.append {size : Nat} {now : Bytes} (extended : Extended size now) (later : Bytes) :
    Extended size (now ++ later) := by
  obtain ⟨enough, mark⟩ := extended
  refine ⟨?_, ?_⟩
  · rw [List.length_append]
    omega
  · rwa [List.take_append_of_le_length enough]

/-- A header that waits takes nothing, and notes no more than the mark. -/
theorem readFull_waits {size : Nat} {assign : Bytes → UInt32 → RtmpChunkStream → RtmpChunkStream}
    {cs waiting : RtmpChunkStream} {buf rest : Bytes}
    (waits : readFull size assign cs buf = (.more, waiting, rest)) :
    rest = buf ∧
      ∃ ext, waiting = { cs with extTs := ext } ∧ (ext = cs.extTs ∨ Extended size buf) := by
  unfold readFull at waits
  simp only at waits
  split at waits
  · cases waits
    exact ⟨rfl, cs.extTs, rfl, .inl rfl⟩
  next enough =>
  split at waits
  · next mark =>
      split at waits <;> cases waits
      exact ⟨rfl, true, rfl, .inr ⟨Nat.not_lt.mp enough, mark⟩⟩
  · cases waits

theorem readFull_noted {fmt : UInt8} {size : Nat}
    {assign : Bytes → UInt32 → RtmpChunkStream → RtmpChunkStream}
    (format : FullFormat fmt size assign) {cs : RtmpChunkStream} {ext : Bool} {buf : Bytes}
    (noted : ext = cs.extTs ∨ Extended size buf) :
    entered fmt (readFull size assign { cs with extTs := ext, fmt := some fmt } buf) =
      entered fmt (readFull size assign cs buf) := by
  unfold readFull
  simp only
  split
  · next short =>
      obtain rfl | ⟨enough, _⟩ := noted
      · rfl
      · exact absurd short (Nat.not_lt.mpr enough)
  split
  · split
    · rfl
    · cases format <;> rfl
  · next plain =>
      obtain rfl | ⟨_, mark⟩ := noted
      · cases format <;> rfl
      · exact absurd mark plain

theorem readF3_waits {cs waiting : RtmpChunkStream} {buf rest : Bytes}
    (waits : cs.readF3 buf = .ok (.more, waiting, rest)) :
    waiting = cs ∧ rest = buf ∧ cs.extTs = true ∧ buf.length < 4 ∧
      ((∃ rem, cs.rem = some rem ∧ rem ≠ 0) ∨
        cs.rem = some 0 ∧ (cs.fmt = some 0 ∨ cs.fmt = some 1 ∨ cs.fmt = some 2)) := by
  unfold readF3 at waits
  grind

theorem readF3_continues {cs : RtmpChunkStream} {rem : UInt32} (left : cs.rem = some rem)
    (unfinished : rem ≠ 0) (fmt : Option UInt8) (buf : Bytes) :
    ({ cs with fmt } : RtmpChunkStream).readF3 buf =
      (cs.readF3 buf).map fun read => (read.1, { read.2.1 with fmt }, read.2.2) := by
  obtain ⟨csid, time, dtime, len, streamId, type, extTs, last, data, _, ready, state⟩ := cs
  cases left
  simp only [readF3, unfinished, if_false]
  split
  · split <;> rfl
  · rfl

theorem readF3_again {cs : RtmpChunkStream} (done : cs.rem = some 0) {fmt : UInt8}
    (last : cs.fmt = some fmt) (other : fmt ≠ 0 ∧ fmt ≠ 1 ∧ fmt ≠ 2) (buf : Bytes) :
    cs.readF3 buf = .ok (.ok, cs.restart cs.time, buf) := by
  simp [readF3, done, last, other]

theorem readF3_field {cs : RtmpChunkStream} (done : cs.rem = some 0) (ext : cs.extTs = true)
    (full : cs.fmt = some 0 ∨ cs.fmt = some 1 ∨ cs.fmt = some 2) (buf : Bytes) :
    cs.readF3 buf = if buf.length < 4 then .ok (.more, cs, buf)
      else .ok (.ok, cs.restart (if cs.fmt = some 0
        then le32 (buf.getD 0 0) (buf.getD 1 0) (buf.getD 2 0) (buf.getD 3 0)
        else cs.time + le32 (buf.getD 0 0) (buf.getD 1 0) (buf.getD 2 0) (buf.getD 3 0)),
        buf.drop 4) := by
  obtain zero | one | two := full
  · simp [readF3, done, ext, zero]
  · simp [readF3, done, ext, one]
  · simp [readF3, done, ext, two]

/-- A type 3 header that waits comes to the same when taken up again, unless it starts a message: then
    it takes itself for the chunk before and no longer asks for the field. -/
theorem readF3_retried {cs waiting : RtmpChunkStream} {now rest : Bytes}
    (waits : cs.readF3 now = .ok (.more, waiting, rest)) (later : Bytes) :
    (({ cs with fmt := some 3 } : RtmpChunkStream).readF3 (now ++ later)).map (entered 3) =
      (cs.readF3 (now ++ later)).map (entered 3) ↔ cs.rem ≠ some 0 := by
  obtain ⟨-, -, ext, short, ⟨rem, left, unfinished⟩ | ⟨done, full⟩⟩ := readF3_waits waits
  · have continues : cs.rem ≠ some 0 := by
      rw [left]
      exact fun zero => unfinished (Option.some.inj zero)
    refine iff_of_true ?_ continues
    rw [readF3_continues left unfinished]
    cases cs.readF3 (now ++ later) <;> rfl
  · refine iff_of_false ?_ (not_not.mpr done)
    have again := @readF3_again { cs with fmt := some 3 } done 3 rfl (by decide) (now ++ later)
    rw [again, readF3_field done ext full]
    intro same
    split at same
    · cases same
    · next enough =>
      have dropped : now ++ later = (now ++ later).drop 4 :=
        congrArg (fun read : Ret × RtmpChunkStream × Bytes => read.2.2) (Except.ok.inj same)
      have lengths := congrArg List.length dropped
      rw [List.length_drop] at lengths
      omega

end RtmpChunkStream

/-- A header for which `read_header` asked for more data is read, on the same data and what follows,
    as it would have been without asking, unless it is a type 3 header that starts a message. -/
theorem header_read_again {cs waiting : RtmpChunkStream} {fmt : UInt8} {now rest : Bytes}
    (idle : cs.state = .header) (type : fmt < 4)
    (waits : cs.readHeader fmt now = .ok (.more, waiting, rest)) (later : Bytes) :
    waiting.readHeader fmt (now ++ later) = cs.readHeader fmt (now ++ later) ↔
      ¬ (fmt = 3 ∧ cs.rem = some 0) := by
  generalize same : (Ret.more, waiting, rest) = result at waits
  cases RtmpChunkStream.readHeader_cases waits with
  | past busy => exact absurd idle busy
  | unknown => cases same
  | @full size assign _ format =>
      generalize read : RtmpChunkStream.readFull size assign cs now = outcome at same
      obtain ⟨ret, waiting', rest'⟩ := outcome
      cases same
      obtain ⟨-, ext, rfl, noted⟩ := RtmpChunkStream.readFull_waits read
      have agree := RtmpChunkStream.readFull_noted format
        (noted.imp_right fun extended => extended.append later)
      have once := RtmpChunkStream.readHeader_idle idle (now ++ later)
      have retried := @RtmpChunkStream.readHeader_idle
        { cs with extTs := ext, fmt := some fmt } idle (now ++ later)
      refine iff_of_true ?_ fun both => by cases format <;> cases both.1
      cases format with
      | f0 => exact retried.1.trans ((congrArg Except.ok agree).trans once.1.symm)
      | f1 => exact retried.2.1.trans ((congrArg Except.ok agree).trans once.2.1.symm)
      | f2 => exact retried.2.2.1.trans ((congrArg Except.ok agree).trans once.2.2.1.symm)
  | @repeated outcome _ format done =>
      obtain ⟨ret, waiting', rest'⟩ := outcome
      cases same
      subst format
      obtain ⟨rfl, -⟩ := RtmpChunkStream.readF3_waits done
      have once := (RtmpChunkStream.readHeader_idle idle (now ++ later)).2.2.2
      have retried := (@RtmpChunkStream.readHeader_idle
        { waiting' with fmt := some 3 } idle (now ++ later)).2.2.2
      refine Iff.trans ?_ ((RtmpChunkStream.readF3_retried done later).trans (by simp))
      rw [once]
      exact Eq.congr_left retried

/-- A Window Acknowledgement Size message with an extended time. -/
def extendedMessage : Bytes :=
  RtmpChunkStream.basicHeader 0 5 :: toBE24 0xffffff ++ toBE24 4 ++ [5] ++ toLE32 0 ++
    [0, 1, 0, 0] ++ toBE32 2500000

/-- What chunk stream 5 remembers of it. -/
def extendedMemory : RtmpChunkStream :=
  { csid := 5, time := 256, dtime := 0, len := 4, streamId := 0, type := 5, extTs := true,
    fmt := some 0, rem := some 0 }

set_option maxRecDepth 4000 in
theorem extendedMemory_reached : extendedMemory.Reached := by
  refine ⟨false, _, 1, 5, .run _ (Peer.greet 1 ++ Peer.deliver 1 extendedMessage), ?_⟩
  decide +kernel

theorem header_read_again_type1 :
    ({ extendedMemory with fmt := some 1 } : RtmpChunkStream).readHeader 1
        ([0, 0, 40] ++ [0, 0, 0, 9]) =
      extendedMemory.readHeader 1 ([0, 0, 40] ++ [0, 0, 0, 9]) :=
  (@header_read_again extendedMemory { extendedMemory with fmt := some 1 } 1 [0, 0, 40] [0, 0, 40]
    rfl (by decide) rfl [0, 0, 0, 9]).mpr (by decide)

/-- A type 3 header whose time field arrives late: asking for it is what loses it. -/
theorem repeated_header_read_wrong : ¬ ∀ (cs waiting : RtmpChunkStream) (fmt : UInt8)
    (now rest later : Bytes), cs.Reached → cs.state = .header → fmt < 4 →
    cs.readHeader fmt now = .ok (.more, waiting, rest) →
    waiting.readHeader fmt (now ++ later) = cs.readHeader fmt (now ++ later) := by
  intro all
  have same := all extendedMemory { extendedMemory with fmt := some 3 } 3 [] [] [0, 2, 0, 0]
    extendedMemory_reached rfl (by decide) rfl
  exact absurd same (by decide)

end DroneServer
