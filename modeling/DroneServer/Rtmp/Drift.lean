import DroneServer.Rtmp.OneStream

/-! # The time of messages that repeat a delta

A type 3 header that starts a message stands for the delta of the last header of
type 1 or 2. The reader keeps that delta, but adds it only if the chunk right
before was of type 1 or 2, for it goes by the type of the last chunk and type 3
chunks overwrite it.
-/

namespace DroneServer

/-- The delta that a header announces. -/
def MessageHeader.delta : MessageHeader → Option UInt32
  | .f1 dtime _ _ | .f2 dtime => some dtime
  | .f0 .. | .f3 => none

/-- The last header of type 0, 1 or 2 among these chunks. -/
def lastFull (chunks : List StreamChunk) : Option MessageHeader :=
  ((chunks.map (·.header)).filter (· ≠ .f3)).getLast?

/-- The delta in force after these chunks: that of the last header, if it announced one. -/
def lastDelta (chunks : List StreamChunk) : Option UInt32 := (lastFull chunks).bind (·.delta)

/-- The format of the last chunk. -/
def lastFormat (chunks : List StreamChunk) : Option UInt8 := chunks.getLast?.map (·.header.fmt)

theorem lastFull_snoc (chunks : List StreamChunk) (c : StreamChunk) :
    lastFull (chunks ++ [c]) = if c.header = .f3 then lastFull chunks else some c.header := by
  by_cases repeats : c.header = .f3 <;> simp [lastFull, repeats]

/-- None of these chunks starts a message. -/
def Progress.Continues (p : Progress) : List StreamChunk → Prop
  | [] => True
  | c :: chunks => ¬ p.Starts c.header ∧ (p.next c).Continues chunks

namespace RtmpChunkStream

/-- The reader takes these chunks, each as it is whatever follows, and has every message handled as
    soon as it is complete. -/
inductive Receives : RtmpChunkStream → List StreamChunk → RtmpChunkStream → Prop where
  | none (cs : RtmpChunkStream) : Receives cs [] cs
  | chunk {cs cs' cs'' : RtmpChunkStream} {c : StreamChunk} {chunks : List StreamChunk}
      (read : ∀ rest, cs.readOn c.size c.header.fmt (c.header.encode ++ (c.piece ++ rest)) =
        .ok (.ok, cs', rest))
      (later : Receives cs'.handled chunks cs'') : Receives cs (c :: chunks) cs''

theorem Receives.append {cs cs' cs'' : RtmpChunkStream} {first second : List StreamChunk}
    (former : Receives cs first cs') (latter : Receives cs' second cs'') :
    Receives cs (first ++ second) cs'' := by
  induction former with
  | none => exact latter
  | chunk read _ ih => exact .chunk read (ih latter)

/-- No chunk had an extended time, and the memory knows the type of the last chunk and the delta of
    the last header. -/
structure Timed (before : List StreamChunk) (cs : RtmpChunkStream) : Prop where
  noExt : cs.extTs = false
  fmt : cs.fmt = lastFormat before
  delta : ∀ d ∈ lastDelta before, cs.dtime = d

theorem timed_fresh (csid : UInt16) : Timed [] { csid } :=
  ⟨rfl, rfl, by simp [lastDelta, lastFull]⟩

theorem apply_extTs (h : MessageHeader) (cs : RtmpChunkStream) : (h.apply cs).extTs = cs.extTs := by
  cases h with
  | f0 | f1 | f2 => rfl
  | f3 =>
      simp only [MessageHeader.apply]
      split <;> rfl

theorem apply_dtime {h : MessageHeader} {cs : RtmpChunkStream} {full : Option MessageHeader}
    (before : ∀ d ∈ full.bind (·.delta), cs.dtime = d) :
    ∀ d ∈ (if h = .f3 then full else some h).bind (·.delta), (h.apply cs).dtime = d := by
  cases h with
  | f0 => simp [MessageHeader.delta]
  | f1 | f2 => simp [MessageHeader.delta, MessageHeader.apply]
  | f3 =>
      have kept : (MessageHeader.f3.apply cs).dtime = cs.dtime := by
        simp only [MessageHeader.apply]
        split <;> rfl
      rw [if_pos rfl, kept]
      exact before

end RtmpChunkStream

namespace Progress

open RtmpChunkStream MessageHeader

variable {p : Progress} {cs : RtmpChunkStream} {c : StreamChunk}

theorem Holds.receive (holds : p.Holds cs) (conforms : p.Conforms c) (plain : c.header.Plain)
    {before : List StreamChunk} (timed : Timed before cs) :
    ∃ cs', Receives cs [c] cs' ∧ (p.next c).Holds cs' ∧ Timed (before ++ [c]) cs' ∧
      cs'.time = (c.header.apply cs).time := by
  have entered := holds.enter conforms.begun
  have header : ∀ rest, cs.readHeader c.header.fmt (c.header.encode ++ (c.piece ++ rest)) =
      .ok (.ok, c.header.apply cs, c.piece ++ rest) := by
    refine fun rest => readHeader_encode plain holds.state timed.noExt (fun repeats => ?_) _
    obtain ⟨len, there⟩ := Option.isSome_iff_exists.mp (conforms.begun (by rw [repeats]; decide))
    obtain ⟨-, rem, known⟩ := holds.known there
    exact ⟨by rw [rem]; rfl, known⟩
  obtain ⟨cs', payload, -, -, next, time, dtime, fmt, extTs⟩ :=
    entered.payload conforms (holds.todo_lt conforms)
  have read : ∀ rest, cs.readOn c.size c.header.fmt (c.header.encode ++ (c.piece ++ rest)) =
      .ok (.ok, cs', rest) := by
    intro rest
    rw [readOn, header]
    exact payload rest
  refine ⟨cs'.handled, .chunk read (.none _), next, ⟨?_, ?_, ?_⟩, time⟩
  · rw [extTs, apply_extTs, timed.noExt]
  · rw [fmt, entered.fmt, lastFormat, List.getLast?_concat]
    rfl
  · rw [dtime, lastDelta, lastFull_snoc]
    exact apply_dtime timed.delta

theorem Holds.repeated_time (holds : p.Holds cs) (conforms : p.Conforms c)
    (repeats : c.header = .f3) :
    (c.header.apply cs).time = if p.left = 0 then repeatedTime cs else cs.time := by
  obtain ⟨len, there⟩ := Option.isSome_iff_exists.mp (conforms.begun (by rw [repeats]; decide))
  rw [repeats]
  simp only [apply, holds.done there]
  split <;> rfl

theorem Holds.receives {p : Progress} {cs : RtmpChunkStream} (holds : p.Holds cs)
    {before chunks : List StreamChunk} (timed : Timed before cs) (conformant : p.Conformant chunks)
    (plain : ∀ c ∈ chunks, c.header.Plain) :
    ∃ cs', Receives cs chunks cs' ∧ (p.run chunks).Holds cs' ∧ Timed (before ++ chunks) cs' := by
  induction chunks generalizing p cs before with
  | nil => exact ⟨cs, .none cs, holds, by rwa [List.append_nil]⟩
  | cons c chunks ih =>
      obtain ⟨conforms, later⟩ := conformant
      obtain ⟨cs', first, holds', timed', -⟩ :=
        holds.receive conforms (plain c List.mem_cons_self) timed
      obtain ⟨cs'', rest, holds'', timed''⟩ :=
        ih holds' timed' later fun c' there => plain c' (List.mem_cons_of_mem _ there)
      refine ⟨cs'', first.append rest, holds'', ?_⟩
      rwa [List.append_assoc, List.singleton_append] at timed''

theorem Holds.continues {p : Progress} {cs : RtmpChunkStream} (holds : p.Holds cs)
    {before chunks : List StreamChunk} (timed : Timed before cs) (conformant : p.Conformant chunks)
    (plain : ∀ c ∈ chunks, c.header.Plain) (continues : p.Continues chunks) :
    ∃ cs', Receives cs chunks cs' ∧ cs'.time = cs.time := by
  induction chunks generalizing p cs before with
  | nil => exact ⟨cs, .none cs, rfl⟩
  | cons c chunks ih =>
      obtain ⟨conforms, later⟩ := conformant
      obtain ⟨under_way, rest⟩ := continues
      obtain ⟨cs₁, first, holds₁, timed₁, time⟩ :=
        holds.receive conforms (plain c List.mem_cons_self) timed
      obtain ⟨cs₂, others, same⟩ :=
        ih holds₁ timed₁ later (fun c' there => plain c' (List.mem_cons_of_mem _ there)) rest
      obtain ⟨repeats, left⟩ := not_or.mp under_way
      rw [holds.repeated_time conforms (not_not.mp repeats), if_neg left] at time
      exact ⟨cs₂, first.append others, same.trans time⟩

end Progress

section Repeating

variable {before more : List StreamChunk} {c : StreamChunk} {d : UInt32}

/-- What a type 3 header that starts a message behind a delta makes of the time. -/
theorem repeated_delta (csid : UInt16)
    (conformant : ({} : Progress).Conformant (before ++ c :: more))
    (plain : ∀ c' ∈ before ++ c :: more, c'.header.Plain) (repeats : c.header = .f3)
    (starts : (({} : Progress).run before).left = 0)
    (continues : ((({} : Progress).run before).next c).Continues more)
    (delta : lastDelta before = some d) :
    ∃ cs cs', RtmpChunkStream.Receives { csid } before cs ∧
      RtmpChunkStream.Receives { csid } (before ++ c :: more) cs' ∧
      cs'.time = if lastFormat before = some 1 ∨ lastFormat before = some 2 then cs.time + d
        else cs.time := by
  obtain ⟨former, conforms, latter⟩ := Progress.conformant_append.mp conformant
  have plainly : ∀ c' ∈ before, c'.header.Plain :=
    fun c' there => plain c' (List.mem_append_left _ there)
  have plainLater : ∀ c' ∈ c :: more, c'.header.Plain :=
    fun c' there => plain c' (List.mem_append_right before there)
  obtain ⟨cs, received, holds, timed⟩ :=
    (Progress.holds_fresh csid).receives (RtmpChunkStream.timed_fresh csid) former plainly
  rw [List.nil_append] at timed
  obtain ⟨cs₁, first, holds₁, timed₁, time⟩ :=
    holds.receive conforms (plainLater c List.mem_cons_self) timed
  obtain ⟨cs', rest, same⟩ := holds₁.continues timed₁ latter
    (fun c' there => plainLater c' (List.mem_cons_of_mem _ there)) continues
  refine ⟨cs, cs', received, received.append (first.append rest), ?_⟩
  rw [same, time, holds.repeated_time conforms repeats, if_pos starts, MessageHeader.repeatedTime,
    timed.fmt, timed.delta d delta]

/-- A type 3 header that starts a message behind a delta gives it the time of the message before it
    and the delta exactly if the chunk before was the one with the delta, or the delta is zero. -/
theorem time_advances_iff (csid : UInt16)
    (conformant : ({} : Progress).Conformant (before ++ c :: more))
    (plain : ∀ c' ∈ before ++ c :: more, c'.header.Plain) (repeats : c.header = .f3)
    (starts : (({} : Progress).run before).left = 0)
    (continues : ((({} : Progress).run before).next c).Continues more)
    (delta : lastDelta before = some d) :
    ∃ cs cs', RtmpChunkStream.Receives { csid } before cs ∧
      RtmpChunkStream.Receives { csid } (before ++ c :: more) cs' ∧
      (cs'.time = cs.time + d ↔
        (lastFormat before = some 1 ∨ lastFormat before = some 2) ∨ d = 0) := by
  obtain ⟨cs, cs', former, latter, time⟩ :=
    repeated_delta csid conformant plain repeats starts continues delta
  refine ⟨cs, cs', former, latter, ?_⟩
  rw [time]
  by_cases behind : lastFormat before = some 1 ∨ lastFormat before = some 2
  · rw [if_pos behind]
    exact iff_of_true rfl (.inl behind)
  · rw [if_neg behind, UInt32.left_eq_add]
    exact ⟨.inr, fun either => either.resolve_left behind⟩

end Repeating

/-- Audio frames of two bytes, 20 ms apart: one with a full header, one with a delta, and two that
    repeat it. -/
def audioFrames : List StreamChunk :=
  [⟨128, .f0 0 2 8 1, [1, 1]⟩, ⟨128, .f2 20, [2, 2]⟩, ⟨128, .f3, [3, 3]⟩, ⟨128, .f3, [4, 4]⟩]

theorem time_advances_once :
    ∃ cs cs', RtmpChunkStream.Receives { csid := 4 } (audioFrames.take 2) cs ∧
      RtmpChunkStream.Receives { csid := 4 } (audioFrames.take 3) cs' ∧ cs'.time = cs.time + 20 := by
  obtain ⟨cs, cs', former, latter, time⟩ :=
    @time_advances_iff (audioFrames.take 2) [] ⟨128, .f3, [3, 3]⟩ 20 4 (by decide) (by decide) rfl
      (by decide) trivial rfl
  exact ⟨cs, cs', former, latter, time.mpr (by decide)⟩

/-- The second frame that repeats the delta gets the time of the first. -/
theorem time_stands_still : ¬ ∀ (before more : List StreamChunk) (c : StreamChunk) (d : UInt32)
    (csid : UInt16), ({} : Progress).Conformant (before ++ c :: more) →
    (∀ c' ∈ before ++ c :: more, c'.header.Plain) → c.header = .f3 →
    (({} : Progress).run before).left = 0 →
    ((({} : Progress).run before).next c).Continues more → lastDelta before = some d →
    ∀ cs cs', RtmpChunkStream.Receives { csid } before cs →
      RtmpChunkStream.Receives { csid } (before ++ c :: more) cs' → cs'.time = cs.time + d := by
  intro all
  have conformant : ({} : Progress).Conformant
      (audioFrames.take 3 ++ (⟨128, .f3, [4, 4]⟩ : StreamChunk) :: []) := by decide
  have plain : ∀ c ∈ audioFrames.take 3 ++ (⟨128, .f3, [4, 4]⟩ : StreamChunk) :: [],
      c.header.Plain := by decide
  obtain ⟨cs, cs', former, latter, time⟩ :=
    repeated_delta 4 conformant plain rfl (by decide) trivial rfl
  have same := all _ _ _ _ 4 conformant plain rfl (by decide) trivial rfl cs cs' former latter
  rw [time, if_neg (by decide), UInt32.left_eq_add] at same
  exact absurd same (by decide)

end DroneServer
