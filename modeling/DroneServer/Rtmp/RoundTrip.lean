import DroneServer.Lib.Feed
import DroneServer.Rtmp.Message

/-! # Chunk decode undoes chunk encode

The writer leaves out of a header what it sent before on the same chunk stream,
and the reader fills it in from what it read. `InStep` is the agreement of the
two memories between messages; every message keeps it, whichever header it is
given and however many chunks it takes.
-/

namespace DroneServer

/-- The arguments of a call of `write_chunk`. -/
structure Outgoing where
  csid : UInt16
  time : UInt32
  dtime : UInt32
  typeId : UInt8
  streamId : UInt32
  msg : Bytes
  forceF0 : Bool

/-- The fields fit the formats of a header. -/
structure Outgoing.Fits (o : Outgoing) : Prop where
  csid : o.csid < 64
  time : o.time.toNat < 0xffffff
  dtime : o.dtime.toNat < 0xffffff
  streamId : o.streamId ≠ 0xffffffff
  msg : o.msg.length < 2 ^ 24

/-- The message to be sent; its time only if the header is forced to carry it. -/
def Outgoing.message (o : Outgoing) : Message :=
  { type := o.typeId, streamId := o.streamId, payload := o.msg,
    time := if o.forceF0 then some o.time else none }

theorem Outgoing.Fits.message {o : Outgoing} (fits : o.Fits) : o.message.Fits := fits.msg

/-- A complete message, as the session finds it in its current chunk stream. -/
structure Incoming where
  csid : UInt16
  type : UInt8
  streamId : UInt32
  time : UInt32
  payload : Bytes
  deriving DecidableEq

/-- The message that was written; its time only if the header was forced to carry it. -/
structure Incoming.Matches (m : Incoming) (o : Outgoing) : Prop where
  csid : m.csid = o.csid
  type : m.type = o.typeId
  streamId : m.streamId = o.streamId
  payload : m.payload = o.msg
  time : o.forceF0 → m.time = o.time

namespace RtmpSession

def write (s : RtmpSession) (o : Outgoing) : Except Fault RtmpSession :=
  s.writeChunk o.csid o.time o.dtime o.typeId o.streamId o.msg o.forceF0

def incoming (s : RtmpSession) : Incoming :=
  { csid := s.csid, type := s.current.type, streamId := s.current.streamId,
    time := s.current.time, payload := s.current.data }

/-- No message in progress on any chunk stream, and none waiting to be handled. -/
structure Rests (s : RtmpSession) : Prop where
  between : s.headerRead = false
  idle : ∀ {csid cs}, s.csIn csid = some cs →
    cs.state = .header ∧ cs.data = [] ∧ cs.ready = false ∧ cs.rem.getD 0 = 0

end RtmpSession

/-- A session that only reads, and the messages it completed so far. -/
structure Reader where
  session : RtmpSession
  messages : List Incoming := []

/-- `read_chunk_stream`, and clearing what it has completed. -/
def Reader.turn (r : Reader) (buf : Bytes) : Feed.Turn Reader UInt8 :=
  match r.session.readChunkStream buf with
  | .error _ => .halt r buf
  | .ok (.more, s, buf) => .more { r with session := s } buf
  | .ok (.fail, s, buf) => .halt { r with session := s } buf
  | .ok (.ok, s, buf) =>
      if s.current.ready then
        .next { session := s.setCurrent s.current.clear, messages := r.messages ++ [s.incoming] } buf
      else .next { r with session := s } buf

/-- `read_chunk_stream` until the buffer is empty or does not hold all of a chunk. -/
def Reader.drain (r : Reader) (buf : Bytes) : Feed.Drained Reader UInt8 :=
  Feed.drain Reader.turn (buf.length + 2) r buf

namespace RtmpChunkStream

/-- What the writer and the reader remember of a chunk stream agrees, and no message is under way. -/
structure InStep (csid : UInt16) (w r : RtmpChunkStream) : Prop extends r.Idle where
  csid : w.csid = csid
  unsent : w.data = []
  same : w.streamId ≠ 0xffffffff → r.rem = some 0 ∧ r.fmt.isSome ∧ r.len = w.len ∧
    r.type = w.type ∧ r.streamId = w.streamId

/-- The writer remembers the header of the message. -/
structure Remembers (w : RtmpChunkStream) (o : Outgoing) : Prop where
  csid : w.csid = o.csid
  unsent : w.data = []
  len : w.len = o.message.len
  type : w.type = o.typeId
  streamId : w.streamId = o.streamId

/-- Whatever header the writer chooses, for the reader it is one for the message. -/
theorem InStep.writeHeader {w r : RtmpChunkStream} {o : Outgoing} (step : InStep o.csid w r)
    (fits : o.Fits) :
    ∃ h w' size, w.writeHeader o.time o.dtime o.typeId o.streamId (UInt32.ofNat o.msg.length)
        o.forceF0 = (basicHeader h.fmt o.csid :: MessageHeader.encode h, w', size) ∧
      h.Plain ∧ h.Starts r o.message ∧ w'.Remembers o := by
  have short : (UInt32.ofNat o.msg.length).toNat < 2 ^ 24 := by
    have length : o.message.len.toNat = o.msg.length := fits.message.len_toNat
    exact length.trans_lt fits.msg
  have untold : !o.forceF0 → o.message.time = none := by
    intro unforced
    simp only [Bool.not_eq_true'] at unforced
    simp only [Outgoing.message, unforced, Bool.false_eq_true, if_false]
  unfold RtmpChunkStream.writeHeader
  split
  · next repeats =>
      obtain ⟨dtime, len, type, streamId, unforced⟩ := repeats
      obtain ⟨rem, fmt, rlen, rtype, rstream⟩ := step.same (streamId ▸ fits.streamId)
      refine ⟨.f3, w, 1, by rw [step.csid]; rfl, trivial, ⟨⟨?_, ?_, ?_, untold unforced⟩, rem, fmt⟩,
        ⟨step.csid, step.unsent, len, type, streamId⟩⟩
      · exact rlen.trans len
      · exact rtype.trans type
      · exact rstream.trans streamId
  split
  · next repeats =>
      obtain ⟨len, type, streamId, unforced⟩ := repeats
      obtain ⟨rem, fmt, rlen, rtype, rstream⟩ := step.same (streamId ▸ fits.streamId)
      refine ⟨.f2 o.dtime, { w with dtime := o.dtime }, 4, by rw [step.csid]; rfl, fits.dtime,
        ⟨?_, ?_, ?_, untold unforced⟩, ⟨step.csid, step.unsent, len, type, streamId⟩⟩
      · exact rlen.trans len
      · exact rtype.trans type
      · exact rstream.trans streamId
  split
  · next repeats =>
      obtain ⟨streamId, unforced⟩ := repeats
      obtain ⟨_, _, _, _, rstream⟩ := step.same (streamId ▸ fits.streamId)
      refine ⟨.f1 o.dtime (UInt32.ofNat o.msg.length) o.typeId,
        { w with dtime := o.dtime, len := UInt32.ofNat o.msg.length, type := o.typeId }, 8,
        by rw [step.csid]; rfl, ⟨fits.dtime, short⟩, ⟨rfl, rfl, ?_, untold unforced⟩,
        ⟨step.csid, step.unsent, rfl, rfl, streamId⟩⟩
      exact rstream.trans streamId
  · refine ⟨.f0 o.time (UInt32.ofNat o.msg.length) o.typeId o.streamId,
      { w with
        time := o.time, len := UInt32.ofNat o.msg.length, type := o.typeId,
        streamId := o.streamId }, 12,
      by rw [step.csid]; rfl, ⟨fits.time, short⟩, ⟨rfl, rfl, rfl, fun t told => ?_⟩,
      ⟨step.csid, step.unsent, rfl, rfl, rfl⟩⟩
    simp only [Outgoing.message, Option.mem_def] at told
    split at told
    · exact Option.some.inj told
    · cases told

/-- After the message the two memories are in step again. -/
theorem Remembers.inStep {w r : RtmpChunkStream} {o : Outgoing} (remembers : w.Remembers o)
    (rested : r.Rested o.message) : InStep o.csid w r :=
  { rested.toIdle with
    csid := remembers.csid
    unsent := remembers.unsent
    same := fun _ => ⟨rested.rem, rested.known, rested.len.trans remembers.len.symm,
      rested.type.trans remembers.type.symm, rested.streamId.trans remembers.streamId.symm⟩ }

theorem writeChunk_ok {w w' : RtmpChunkStream} {o : Outgoing} {n : UInt32} {header : Bytes}
    {size : UInt32} {rest : List Bytes} (fits : o.message.Fits) (remembers : w'.Remembers o)
    (head : w.writeHeader o.time o.dtime o.typeId o.streamId (UInt32.ofNat o.msg.length)
      o.forceF0 = (header, w', size))
    (split : writeRest n (basicHeader 3 o.csid) o.msg.length (o.msg.drop n.toNat) = .ok rest) :
    ∃ buffers size, w.writeChunk n o.time o.dtime o.typeId o.streamId o.msg o.forceF0 =
        .ok (w', buffers, size) ∧
      buffers.flatten = header ++ o.msg.take n.toNat ++ rest.flatten := by
  have small : o.msg.length < 2 ^ 24 := fits
  have wide : o.msg.length < 2 ^ 32 := by omega
  have length : (UInt32.ofNat o.msg.length).toNat = o.msg.length := UInt32.toNat_ofNat_of_lt' wide
  have kept : { w' with data := [] } = w' := by
    rw [← remembers.unsent]
  unfold writeChunk
  simp only [head, length, List.take_length, kept, remembers.unsent, List.nil_append]
  by_cases long : UInt32.ofNat o.msg.length > n
  · rw [if_pos long, remembers.csid, split]
    exact ⟨_, _, rfl, rfl⟩
  · rw [if_neg long]
    have fitting : o.msg.length ≤ n.toNat := by
      have := mt UInt32.lt_iff_toNat_lt.mpr long
      omega
    rw [List.drop_of_length_le fitting] at split
    have none : rest = [] := by
      cases length : o.msg.length <;> rw [length] at split <;> cases split <;> rfl
    refine ⟨_, _, rfl, ?_⟩
    simp [none, List.take_of_length_le fitting]

end RtmpChunkStream

namespace Reader

open RtmpChunkStream

theorem turn_chunk {r : Reader} {o : Outgoing} {h : MessageHeader} {left : Bytes}
    (narrow : o.csid < 64) (fits : o.message.Fits) (between : r.session.headerRead = false)
    (plain : h.Plain)
    (idle : (r.session.memory o.csid).state = .header)
    (noExt : (r.session.memory o.csid).extTs = false)
    (known : h = .f3 → (r.session.memory o.csid).rem.isSome ∧ (r.session.memory o.csid).fmt.isSome)
    (expecting : (h.apply (r.session.memory o.csid)).Expecting o.message left) :
    (left.drop r.session.maxChunkSize.toNat ≠ [] ∧ ∃ cs, cs.state = .header ∧
        cs.Expecting o.message (left.drop r.session.maxChunkSize.toNat) ∧
        ∀ rest, r.turn (chunk o.csid h (left.take r.session.maxChunkSize.toNat) ++ rest) =
          .next { r with session := r.session.stored o.csid h.fmt cs } rest) ∨
    (left.drop r.session.maxChunkSize.toNat = [] ∧ ∃ cs m, m.Matches o ∧ cs.Rested o.message ∧
        ∀ rest, r.turn (chunk o.csid h (left.take r.session.maxChunkSize.toNat) ++ rest) =
          .next { session := r.session.stored o.csid h.fmt cs, messages := r.messages ++ [m] }
            rest) := by
  obtain ⟨cs, read, ⟨unfinished, waiting, more⟩ | ⟨finished, ready, data, heads, rested⟩⟩ :=
    RtmpSession.readChunkStream_piece fits between narrow plain idle noExt known expecting
  · refine .inl ⟨unfinished, cs, waiting, more, fun rest => ?_⟩
    simp only [turn, read, RtmpSession.stored_current, more.unready, Bool.false_eq_true, if_false]
  · refine .inr ⟨finished, cs.clear, (r.session.stored o.csid h.fmt cs).incoming, ?_, rested,
      fun rest => ?_⟩
    · rw [RtmpSession.incoming, RtmpSession.stored_current]
      refine ⟨rfl, heads.type, heads.streamId, data, fun forced => heads.time _ ?_⟩
      rw [Outgoing.message, if_pos forced]
      rfl
    · simp only [turn, read, RtmpSession.stored_current, ready, if_true,
        RtmpSession.stored_setCurrent]

/-- The session has read on, on one chunk stream only, and stands between two chunks. -/
structure Onward (s s' : RtmpSession) (csid : UInt16) : Prop where
  between : s'.headerRead = false
  size : s'.maxChunkSize = s.maxChunkSize
  others : ∀ {other}, other ≠ csid → s'.memory other = s.memory other

theorem onward_stored {s : RtmpSession} (between : s.headerRead = false) (csid : UInt16)
    (fmt : UInt8) (cs : RtmpChunkStream) : Onward s (s.stored csid fmt cs) csid where
  between := between
  size := rfl
  others := s.stored_other fmt cs

/-- Reading these bytes completes this message, wherever the reader stands in the stream. -/
def Completes (r : Reader) (o : Outgoing) (bytes : Bytes) : Prop :=
  ∃ s' m, Onward r.session s' o.csid ∧ m.Matches o ∧ (s'.memory o.csid).Rested o.message ∧
    ∀ rest d, Feed.Drains turn { session := s', messages := r.messages ++ [m] } rest d →
      Feed.Drains turn r (bytes ++ rest) d

theorem chunk_ne (csid : UInt16) (h : MessageHeader) (piece rest : Bytes) :
    chunk csid h piece ++ rest ≠ [] := List.cons_ne_nil _ _

theorem Completes.first {r : Reader} {o : Outgoing} {h : MessageHeader} {left more : Bytes}
    (narrow : o.csid < 64) (fits : o.message.Fits) (between : r.session.headerRead = false)
    (plain : h.Plain)
    (idle : (r.session.memory o.csid).state = .header)
    (noExt : (r.session.memory o.csid).extTs = false)
    (known : h = .f3 → (r.session.memory o.csid).rem.isSome ∧ (r.session.memory o.csid).fmt.isSome)
    (expecting : (h.apply (r.session.memory o.csid)).Expecting o.message left)
    (none : left.drop r.session.maxChunkSize.toNat = [] → more = [])
    (later : left.drop r.session.maxChunkSize.toNat ≠ [] → ∀ r' : Reader,
      r'.session.headerRead = false → r'.session.maxChunkSize = r.session.maxChunkSize →
      (r'.session.memory o.csid).state = .header →
      (r'.session.memory o.csid).Expecting o.message (left.drop r.session.maxChunkSize.toNat) →
      Completes r' o more) :
    Completes r o (chunk o.csid h (left.take r.session.maxChunkSize.toNat) ++ more) := by
  obtain ⟨unfinished, cs, waiting, collected, turned⟩ | ⟨finished, cs, m, matching, rested, turned⟩ :=
    turn_chunk narrow fits between plain idle noExt known expecting
  · obtain ⟨s', m, onward, matching, rested, drains⟩ := later unfinished
      { r with session := r.session.stored o.csid h.fmt cs } between rfl
      (by rwa [RtmpSession.stored_memory]) (by rwa [RtmpSession.stored_memory])
    refine ⟨s', m, ⟨onward.between, onward.size, fun apart => ?_⟩, matching, rested,
      fun rest d drained => ?_⟩
    · rw [onward.others apart]
      exact r.session.stored_other h.fmt cs apart
    · rw [List.append_assoc]
      exact .next (chunk_ne _ _ _ _) (turned _) (drains rest d drained)
  · refine ⟨_, m, onward_stored between o.csid h.fmt cs, matching, ?_, fun rest d drained => ?_⟩
    · rwa [RtmpSession.stored_memory]
    · rw [none finished, List.append_nil]
      exact .next (chunk_ne _ _ _ _) (turned _) drained

theorem completes_rest {o : Outgoing} (narrow : o.csid < 64) (fits : o.message.Fits) {n : UInt32}
    (positive : 0 < n.toNat) (fuel : Nat) (left : Bytes) (enough : left.length ≤ fuel) :
    ∃ rest, writeRest n (basicHeader 3 o.csid) fuel left = .ok rest ∧
      (left = [] → rest = []) ∧
      (left ≠ [] → ∀ r : Reader, r.session.headerRead = false → r.session.maxChunkSize = n →
        (r.session.memory o.csid).state = .header →
        (r.session.memory o.csid).Expecting o.message left → Completes r o rest.flatten) := by
  induction fuel generalizing left with
  | zero =>
      have none : left = [] := List.length_eq_zero_iff.mp (Nat.le_zero.mp enough)
      subst none
      exact ⟨[], rfl, fun _ => rfl, fun some => absurd rfl some⟩
  | succ fuel ih =>
      by_cases none : left = []
      · subst none
        exact ⟨[], rfl, fun _ => rfl, fun some => absurd rfl some⟩
      have length := List.length_pos_iff.mpr none
      obtain ⟨rest, split, last, later⟩ := ih (left.drop n.toNat) (by rw [List.length_drop]; omega)
      refine ⟨(basicHeader 3 o.csid :: left.take n.toNat) :: rest, ?_, fun empty => absurd empty none,
        fun some r between size idle expecting => ?_⟩
      · have filled : left.isEmpty = false := by simpa using none
        simp only [writeRest, filled, Bool.false_eq_true, if_false, split]
        rfl
      · subst size
        refine Completes.first (h := .f3) narrow fits between trivial idle expecting.noExt ?_
          (expecting.continued fits none) (fun finished => ?_) (fun unfinished r' between' size idle'
            expecting' => later unfinished r' between' size idle' expecting')
        · exact fun _ => ⟨by rw [expecting.rem]; rfl, expecting.known⟩
        · rw [last finished]
          rfl

/-- The memories of a writer and a reader are in step on every chunk stream. -/
structure Agree (w s : RtmpSession) : Prop where
  between : s.headerRead = false
  size : s.maxChunkSize = w.maxChunkSize
  positive : 0 < w.maxChunkSize.toNat
  inStep : ∀ csid, InStep csid ((w.csOut csid).getD { csid }) (s.memory csid)

/-- Writing a message succeeds, and reading what was written completes it. -/
theorem Agree.write {w : RtmpSession} {r : Reader} (agree : Agree w r.session) {o : Outgoing}
    (fits : o.Fits) :
    ∃ w' buffers s' m, w.write o = .ok w' ∧ w'.written = w.written ++ buffers ∧ Agree w' s' ∧
      m.Matches o ∧ ∀ rest d,
        Feed.Drains turn { session := s', messages := r.messages ++ [m] } rest d →
        Feed.Drains turn r (buffers.flatten ++ rest) d := by
  have inStep := agree.inStep o.csid
  obtain ⟨h, cs', size, head, plain, starts, remembers⟩ := inStep.writeHeader fits
  have expecting := inStep.starts starts
  have known := starts.known
  obtain ⟨rest, split, last, later⟩ := completes_rest fits.csid fits.message agree.positive
    o.msg.length (o.msg.drop w.maxChunkSize.toNat) (by rw [List.length_drop]; omega)
  obtain ⟨buffers, total, wrote, flat⟩ := writeChunk_ok fits.message remembers head split
  have completes : Completes r o (chunk o.csid h (o.msg.take r.session.maxChunkSize.toNat) ++
      rest.flatten) := by
    refine Completes.first fits.csid fits.message agree.between plain inStep.idle inStep.noExt known
      expecting ?_ ?_
    · rw [agree.size]
      intro finished
      rw [last finished]
      rfl
    · rw [agree.size]
      exact later
  rw [agree.size] at completes
  obtain ⟨s', m, onward, matching, rested, drains⟩ := completes
  refine ⟨{ w with
    csOut := Function.update w.csOut o.csid (some cs'), written := w.written ++ buffers },
    buffers, s', m, ?_, rfl, ⟨onward.between, onward.size.trans agree.size, agree.positive, ?_⟩,
    matching, ?_⟩
  · simp only [RtmpSession.write, RtmpSession.writeChunk, wrote]
    rfl
  · intro csid
    by_cases same : csid = o.csid
    · subst same
      simp only [Function.update_self, Option.getD_some]
      exact remembers.inStep rested
    · simp only [Function.update_of_ne same, onward.others same]
      exact agree.inStep csid
  · rw [flat]
    exact drains

theorem Agree.writes {w : RtmpSession} {r : Reader} (agree : Agree w r.session)
    (outs : List Outgoing) (fits : ∀ o ∈ outs, o.Fits) :
    ∃ w' buffers s' ms, outs.foldlM RtmpSession.write w = .ok w' ∧
      w'.written = w.written ++ buffers ∧ Agree w' s' ∧ List.Forall₂ Incoming.Matches ms outs ∧
      Feed.Drains turn r buffers.flatten
        ⟨false, { session := s', messages := r.messages ++ ms }, []⟩ := by
  induction outs generalizing w r with
  | nil =>
      refine ⟨w, [], r.session, [], rfl, (List.append_nil _).symm, agree, .nil, ?_⟩
      rw [List.append_nil]
      exact .empty r
  | cons o outs ih =>
      obtain ⟨w₁, first, s₁, m, wrote, written, agree₁, matching, drains⟩ :=
        agree.write (fits o List.mem_cons_self)
      obtain ⟨w', buffers, s', ms, rest, written', agree', matchings, drained⟩ :=
        ih (r := { session := s₁, messages := r.messages ++ [m] }) agree₁
          fun o' inside => fits o' (List.mem_cons_of_mem o inside)
      refine ⟨w', first ++ buffers, s', m :: ms, ?_, ?_, agree', .cons matching matchings, ?_⟩
      · rw [List.foldlM_cons, wrote]
        exact rest
      · rw [written', written, List.append_assoc]
      · rw [List.flatten_append]
        have ends := drains _ _ drained
        rwa [List.append_assoc, List.singleton_append] at ends

/-- What bounds the number of turns. -/
def size (r : Reader) (buf : Bytes) : Nat :=
  buf.length + if r.session.headerRead then 1 else 0

theorem turn_progress {r r' : Reader} {buf rest : Bytes} (some : buf ≠ [])
    (turned : r.turn buf = .next r' rest) : r'.size rest < r.size buf := by
  unfold turn at turned
  split at turned
  · cases turned
  · cases turned
  · cases turned
  · next s left read =>
      obtain ⟨between, shorter⟩ := RtmpSession.readChunkStream_progress some read
      split at turned
      · cases turned
        have between : (s.setCurrent s.current.clear).headerRead = false := between
        simpa only [size, between, Bool.false_eq_true, if_false, Nat.add_zero] using shorter
      · cases turned
        simpa only [size, between, Bool.false_eq_true, if_false, Nat.add_zero] using shorter

theorem drain_drains (r : Reader) (buf : Bytes) : Feed.Drains turn r buf (r.drain buf) := by
  refine Feed.drains_drain size (fun _ _ _ _ => turn_progress) _ r buf ?_
  unfold size
  split <;> omega

theorem drain_eq {r : Reader} {buf : Bytes} {d : Feed.Drained Reader UInt8}
    (drains : Feed.Drains turn r buf d) : r.drain buf = d :=
  (drain_drains r buf).unique drains

theorem Agree.rests {w s : RtmpSession} (agree : Agree w s) : s.Rests where
  between := agree.between
  idle {csid cs} found := by
    have inStep := agree.inStep csid
    rw [RtmpSession.memory, found, Option.getD_some] at inStep
    exact ⟨inStep.idle, inStep.empty, inStep.unready, inStep.done⟩

end Reader

/-- Writing any messages that fit, cut by any chunk size, and reading the bytes with the same chunk
    size gives back exactly these messages, and leaves nothing behind. -/
theorem chunks_round_trip (w r : RtmpSession) (outs : List Outgoing) (fits : ∀ o ∈ outs, o.Fits)
    (unwritten : ∀ csid, w.csOut csid = none) (unread : ∀ csid, r.csIn csid = none)
    (between : r.headerRead = false) (size : r.maxChunkSize = w.maxChunkSize)
    (positive : 1 ≤ w.maxChunkSize) :
    ∃ w' buffers, outs.foldlM RtmpSession.write w = .ok w' ∧ w'.written = w.written ++ buffers ∧
      (Reader.drain { session := r } buffers.flatten).halted = false ∧
      (Reader.drain { session := r } buffers.flatten).rest = [] ∧
      (Reader.drain { session := r } buffers.flatten).state.session.Rests ∧
      List.Forall₂ Incoming.Matches
        (Reader.drain { session := r } buffers.flatten).state.messages outs := by
  have agree : Reader.Agree w r := by
    refine ⟨between, size, UInt32.le_iff_toNat_le.mp positive, fun csid => ?_⟩
    rw [unwritten, RtmpSession.memory, unread]
    exact ⟨⟨rfl, rfl, rfl, rfl, rfl⟩, rfl, rfl, fun known => absurd rfl known⟩
  obtain ⟨w', buffers, s', ms, wrote, written, agree', matchings, drains⟩ :=
    Reader.Agree.writes (r := { session := r }) agree outs fits
  refine ⟨w', buffers, wrote, written, ?_⟩
  rw [Reader.drain_eq drains]
  exact ⟨rfl, rfl, agree'.rests, matchings⟩

/-- Three messages of one chunk stream: with a full header, with a time only, and with none. -/
def repeatedMessages : List Outgoing :=
  [{ csid := 6, time := 40, dtime := 0, typeId := 9, streamId := 1, msg := [1, 2, 3, 4, 5],
      forceF0 := true },
    { csid := 6, time := 0, dtime := 7, typeId := 9, streamId := 1, msg := [6, 7, 8, 9, 10],
      forceF0 := false },
    { csid := 6, time := 0, dtime := 7, typeId := 9, streamId := 1, msg := [0, 0, 0, 0, 0],
      forceF0 := false }]

theorem chunks_round_trip_repeated :
    ∃ w' buffers, repeatedMessages.foldlM RtmpSession.write { maxChunkSize := 2 } = .ok w' ∧
      w'.written = buffers ∧
      (Reader.drain { session := { maxChunkSize := 2 } } buffers.flatten).state.messages.map
        (·.payload) = repeatedMessages.map (·.msg) := by
  have fits : ∀ o ∈ repeatedMessages, o.Fits := by
    intro o inside
    simp only [repeatedMessages, List.mem_cons, List.not_mem_nil, or_false] at inside
    rcases inside with rfl | rfl | rfl <;> constructor <;> decide
  obtain ⟨w', buffers, wrote, written, _, _, _, matchings⟩ :=
    chunks_round_trip { maxChunkSize := 2 } { maxChunkSize := 2 } repeatedMessages fits
      (fun _ => rfl) (fun _ => rfl) rfl rfl (by decide)
  refine ⟨w', buffers, wrote, written, ?_⟩
  generalize (Reader.drain { session := { maxChunkSize := 2 } } buffers.flatten).state.messages =
    messages at matchings
  clear fits wrote
  generalize repeatedMessages = outs at matchings ⊢
  induction matchings with
  | nil => rfl
  | cons matching _ ih => rw [List.map_cons, List.map_cons, matching.payload, ih]

end DroneServer
