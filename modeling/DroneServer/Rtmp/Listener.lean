import DroneServer.Rtmp.Loop
import DroneServer.Rtmp.RoundTrip

/-! # A peer that reads with this program's reader

`listen` reads chunk by chunk as a session does, and handles a control message as a
session does, so that a chunk size it is told holds from the next chunk on. Between
two messages it is the `Reader` of the round trip: bytes that complete a message
there complete it here, whatever follows them.
-/

namespace DroneServer

namespace RtmpChunkStream

theorem readFull_append {size : Nat}
    {assign : Bytes → UInt32 → RtmpChunkStream → RtmpChunkStream} {cs cs' : RtmpChunkStream}
    {buf rest : Bytes} (read : readFull size assign cs buf = (.ok, cs', rest)) (later : Bytes) :
    readFull size assign cs (buf ++ later) = (.ok, cs', rest ++ later) := by
  unfold readFull at read ⊢
  simp only at read ⊢
  split at read
  · cases read
  next enough =>
    have enough := Nat.not_lt.mp enough
    rw [if_neg (by rw [List.length_append]; omega), List.take_append_of_le_length enough,
      List.drop_append_of_le_length enough]
    split at read
    · next marked =>
        rw [if_pos marked]
        split at read
        · cases read
        · next extended =>
            have four : 4 ≤ (buf.drop size).length := by
              rw [List.length_drop]
              omega
            cases read
            rw [if_neg (by rw [List.length_append]; omega),
              List.getD_append _ _ _ _ (by omega), List.getD_append _ _ _ _ (by omega),
              List.getD_append _ _ _ _ (by omega), List.getD_append _ _ _ _ (by omega),
              List.drop_append_of_le_length four]
    · next plain =>
        cases read
        rw [if_neg plain]

theorem readF3_append {cs cs' : RtmpChunkStream} {buf rest : Bytes}
    (read : cs.readF3 buf = .ok (.ok, cs', rest)) (later : Bytes) :
    cs.readF3 (buf ++ later) = .ok (.ok, cs', rest ++ later) := by
  -- an extended time is looked at only if all of it is there
  have four : ¬ buf.length < 4 → (∀ i < 4, (buf ++ later).getD i 0 = buf.getD i 0) ∧
      (buf ++ later).drop 4 = buf.drop 4 ++ later ∧ ¬ (buf ++ later).length < 4 := by
    intro enough
    refine ⟨fun i small => List.getD_append _ _ _ _ (by omega),
      List.drop_append_of_le_length (by omega), ?_⟩
    rw [List.length_append]
    omega
  unfold readF3 at read ⊢
  cases left : cs.rem with
  | none =>
      simp only [left] at read
      cases read
  | some rem =>
      simp only [left] at read ⊢
      cases known : cs.fmt with
      | none =>
          simp only [known] at read ⊢
          grind
      | some fmt =>
          simp only [known] at read ⊢
          grind

theorem readHeader_append {cs cs' : RtmpChunkStream} {fmt : UInt8} {buf rest : Bytes}
    (read : cs.readHeader fmt buf = .ok (.ok, cs', rest)) (later : Bytes) :
    cs.readHeader fmt (buf ++ later) = .ok (.ok, cs', rest ++ later) := by
  have entering : ∀ {fmt : UInt8} {read : Ret × RtmpChunkStream × Bytes},
      (.ok, cs', rest) = entered fmt read →
      ∃ cs₁, read = (.ok, cs₁, rest) ∧ (.ok, cs', rest ++ later) = entered fmt (.ok, cs₁, rest ++ later) := by
    rintro fmt ⟨ret, cs₁, left⟩ same
    simp only [entered, Prod.mk.injEq] at same
    obtain ⟨rfl, rfl, rfl⟩ := same
    exact ⟨cs₁, rfl, rfl⟩
  generalize same : (Ret.ok, cs', rest) = result at read
  cases readHeader_cases read with
  | past state =>
      cases same
      simp only [readHeader, ne_eq, state, not_false_eq_true, if_true, pure_ok]
  | full idle format =>
      obtain ⟨zero, one, two, _⟩ := readHeader_idle idle (buf ++ later)
      obtain ⟨cs₁, full, done⟩ := entering same
      have full' := readFull_append full later
      rw [done, ← full']
      cases format with
      | f0 => exact zero
      | f1 => exact one
      | f2 => exact two
  | repeated idle format header =>
      obtain ⟨_, _, _, three⟩ := readHeader_idle idle (buf ++ later)
      obtain ⟨cs₁, rfl, done⟩ := entering same
      rw [format, three, readF3_append header later, done, format]
      rfl
  | unknown idle other =>
      obtain ⟨cs₁, failed, _⟩ := entering same
      cases failed

end RtmpChunkStream

namespace RtmpSession

open RtmpChunkStream

/-- A chunk that is read whole is read so whatever follows. -/
theorem readChunkStream_append {s s' : RtmpSession} {buf rest : Bytes} (some : buf ≠ [])
    (read : s.readChunkStream buf = .ok (.ok, s', rest)) (later : Bytes) :
    s.readChunkStream (buf ++ later) = .ok (.ok, s', rest ++ later) := by
  have whole : buf ++ later ≠ [] := List.append_ne_nil_of_left_ne_nil some later
  rw [readChunkStream_body s some] at read
  rw [readChunkStream_body s whole, readBasicHeader_append s some later]
  obtain ⟨⟨ret, cs, left⟩, header, body⟩ := bind_ok.mp read
  by_cases done : ret = .ok
  · subst done
    have state := readHeader_payload header
    rw [readBody_payload header] at read
    rw [readBody_payload (readHeader_append header later)]
    cases rem : cs.rem with
    | none =>
        simp only [readPayload, state, rem, ne_eq, not_true_eq_false, if_false] at read
        cases read
    | some rem =>
        rw [readPayload_eq state rem] at read ⊢
        split at read
        · cases read
        · next enough =>
            have enough := Nat.not_lt.mp enough
            cases read
            rw [if_neg (by rw [List.length_append]; omega), List.drop_append_of_le_length enough,
              taken, List.take_append_of_le_length enough]
            rfl
  · simp only [ne_eq, done, not_false_eq_true, if_true, pure_ok, Prod.mk.injEq] at body
    exact body.1.elim

/-- What `handle` does with a completed message, if the session only listens. -/
def obey (s : RtmpSession) : Except Fault RtmpSession :=
  if s.current.type < 7 ∧ s.current.streamId = 0 then s.handleControlMessage else s.clearCurrent

theorem obey_headerRead {s s' : RtmpSession} (done : s.obey = .ok s') :
    s'.headerRead = s.headerRead := by
  unfold obey at done
  split at done
  · obtain ⟨_, _, _, _, _, rfl⟩ := handleControlMessage_own done
    rfl
  · obtain ⟨cs, _, rfl⟩ := clearCurrent_ok done
    rfl

end RtmpSession

/-- The chunk size a Set Chunk Size message says. -/
def Incoming.size (m : Incoming) : Option UInt32 :=
  if m.type = 1 ∧ m.streamId = 0 then (RtmpSession.wordAt m.payload 0).toOption else none

namespace Reader

open RtmpChunkStream

/-- `read_chunk_stream`, and heeding what it has completed. -/
def listen (r : Reader) (buf : Bytes) : Feed.Turn Reader UInt8 :=
  match r.session.readChunkStream buf with
  | .error _ => .halt r buf
  | .ok (.more, s, buf) => .more { r with session := s } buf
  | .ok (.fail, s, buf) => .halt { r with session := s } buf
  | .ok (.ok, s, buf) =>
      if s.current.ready then
        match s.obey with
        | .error _ => .halt { r with session := s } buf
        | .ok s' => .next { session := s', messages := r.messages ++ [s.incoming] } buf
      else .next { r with session := s } buf

/-- `listen` until the buffer is empty or does not hold all of a chunk. -/
def hear (r : Reader) (buf : Bytes) : Feed.Drained Reader UInt8 :=
  Feed.drain listen (buf.length + 2) r buf

/-- A message is heeded without a fault, and says what size it says. -/
structure Heeds (s s' : RtmpSession) : Prop where
  done : s.obey = .ok s'
  headerRead : s'.headerRead = s.headerRead
  memory : ∀ csid, s'.memory csid = (s.setCurrent s.current.clear).memory csid
  size : s'.maxChunkSize = s.incoming.size.getD s.maxChunkSize

theorem turn_next {r r' : Reader} {buf rest : Bytes} (turned : r.turn buf = .next r' rest) :
    ∃ s, r.session.readChunkStream buf = .ok (.ok, s, rest) ∧
      ((s.current.ready ∧ r' =
          { session := s.setCurrent s.current.clear, messages := r.messages ++ [s.incoming] }) ∨
        ¬ s.current.ready ∧ r' = { r with session := s }) := by
  unfold turn at turned
  split at turned
  · cases turned
  · cases turned
  · cases turned
  · next s left read =>
      split at turned
      · next ready =>
          cases turned
          exact ⟨s, read, .inl ⟨ready, rfl⟩⟩
      · next unready =>
          cases turned
          exact ⟨s, read, .inr ⟨unready, rfl⟩⟩

theorem turn_restless {r r' : Reader} {buf rest : Bytes} (some : buf ≠ [])
    (turned : r.turn buf = .more r' rest ∨
      r.turn buf = .next r' rest ∧ r'.messages = r.messages) : ¬ r'.session.Rests := by
  intro rests
  rcases turned with waits | ⟨goes, same⟩
  · unfold turn at waits
    split at waits
    · cases waits
    · next s left read =>
        cases waits
        have waiting := (r.session.readBasicHeader_read buf).1
        cases RtmpSession.readChunkStream_cases some read with
        | header | waiting => exact absurd (waiting.symm.trans rests.between) (by decide)
    · cases waits
    · split at waits <;> cases waits
  · obtain ⟨s, read, ⟨_, rfl⟩ | ⟨unready, rfl⟩⟩ := turn_next goes
    · simp at same
    · cases RtmpSession.readChunkStream_cases some read with
      | header unread => exact absurd rfl unread
      | @taken cs rest rem header state left =>
          obtain ⟨_, _, _, done⟩ := rests.idle (Function.update_self ..)
          refine unready ?_
          rw [RtmpSession.current]
          simp only [RtmpSession.setCurrent, Function.update_self, Option.getD_some, taken] at done ⊢
          rw [if_pos done]

theorem drains_messages {r : Reader} {buf : Bytes} {d : Feed.Drained Reader UInt8}
    (drains : Feed.Drains turn r buf d) : r.messages <+: d.state.messages := by
  induction drains with
  | empty => exact List.prefix_refl _
  | more some turned =>
      unfold turn at turned
      split at turned
      · cases turned
      · cases turned
        exact List.prefix_refl _
      · cases turned
      · split at turned <;> cases turned
  | halt some turned =>
      unfold turn at turned
      split at turned
      any_goals cases turned
      any_goals exact List.prefix_refl _
      split at turned <;> cases turned
  | next some turned _ ih =>
      obtain ⟨s, _, ⟨_, rfl⟩ | ⟨_, rfl⟩⟩ := turn_next turned
      · exact (List.prefix_append _ _).trans ih
      · exact ih

/-- Who reads on without a further message, and rests in the end, had nothing to read. -/
theorem drains_rests {r r' : Reader} {buf : Bytes}
    (drains : Feed.Drains turn r buf ⟨false, r', []⟩) (rests : r'.session.Rests)
    (none : r'.messages = r.messages) : buf = [] := by
  generalize ended : (⟨false, r', []⟩ : Feed.Drained Reader UInt8) = d at drains
  induction drains with
  | empty => rfl
  | more some turned =>
      cases ended
      exact absurd rests (turn_restless some (.inl turned))
  | halt => cases ended
  | next some turned later ih =>
      subst ended
      have messages := (drains_messages later).length_le
      obtain ⟨s, read, ⟨_, rfl⟩ | ⟨unready, rfl⟩⟩ := turn_next turned
      · rw [none, List.length_append, List.length_singleton] at messages
        omega
      · have done := ih none rfl
        subst done
        cases later with
        | empty => exact absurd rests (turn_restless some (.inr ⟨turned, rfl⟩))
        | more some | next some => exact absurd rfl some

/-- Bytes that complete one message for the reader complete it for the listener, who heeds it before
    reading on. -/
theorem listen_message {r r' : Reader} {bytes : Bytes} {m : Incoming}
    (drains : Feed.Drains turn r bytes ⟨false, r', []⟩) (rests : r'.session.Rests)
    (one : r'.messages = r.messages ++ [m])
    (heeds : ∀ s : RtmpSession, s.current.ready → s.incoming = m → ∃ s', Heeds s s') :
    ∃ s', s'.headerRead = false ∧ (∀ csid, s'.memory csid = r'.session.memory csid) ∧
      s'.maxChunkSize = m.size.getD r.session.maxChunkSize ∧
      ∀ rest d, Feed.Drains listen { session := s', messages := r'.messages } rest d →
        Feed.Drains listen r (bytes ++ rest) d := by
  generalize ended : (⟨false, r', []⟩ : Feed.Drained Reader UInt8) = d at drains
  induction drains with
  | empty =>
      cases ended
      simp at one
  | more some turned =>
      cases ended
      exact absurd rests (turn_restless some (.inl turned))
  | halt => cases ended
  | @next r buf r₁ left d some turned later ih =>
      subst ended
      obtain ⟨s, read, ⟨ready, rfl⟩ | ⟨unready, rfl⟩⟩ := turn_next turned
      · -- the message is complete: nothing is left of the bytes
        have same : s.incoming = m := by
          have longer := drains_messages later
          rw [one] at longer
          exact (List.cons_prefix_cons.mp ((List.prefix_append_right_inj _).mp longer)).1
        have done := drains_rests later rests (by rw [one, ← same])
        subst done
        cases later with
        | more some | next some => exact absurd rfl some
        | empty =>
            obtain ⟨s', heard⟩ := heeds s ready same
            have between := (RtmpSession.readChunkStream_progress some read).1
            have size := (RtmpSession.readChunkStream_keeps read).2
            refine ⟨s', heard.headerRead.trans between, heard.memory, ?_, fun rest d drained => ?_⟩
            · rw [heard.size, same, size]
            · refine .next (List.append_ne_nil_of_left_ne_nil some rest) ?_ drained
              simp only [listen, RtmpSession.readChunkStream_append some read rest, ready, if_true,
                heard.done, List.nil_append]
      · obtain ⟨s', between, memory, size, drains⟩ := ih one rfl
        have kept := (RtmpSession.readChunkStream_keeps read).2
        refine ⟨s', between, memory, size.trans (by rw [kept]), fun rest d drained => ?_⟩
        refine .next (List.append_ne_nil_of_left_ne_nil some rest) ?_ (drains rest d drained)
        simp only [listen, RtmpSession.readChunkStream_append some read rest, unready, if_false,
          Bool.false_eq_true]

theorem listen_progress {r r' : Reader} {buf rest : Bytes} (some : buf ≠ [])
    (turned : r.listen buf = .next r' rest) : r'.size rest < r.size buf := by
  unfold listen at turned
  split at turned
  · cases turned
  · cases turned
  · cases turned
  · next s left read =>
      obtain ⟨between, shorter⟩ := RtmpSession.readChunkStream_progress some read
      have lower : ∀ s' : RtmpSession, s'.headerRead = s.headerRead → ∀ messages,
          size { session := s', messages } left < r.size buf := by
        intro s' same messages
        simpa only [size, same, between, Bool.false_eq_true, if_false, Nat.add_zero] using shorter
      split at turned
      · split at turned
        · cases turned
        · next heard =>
            cases turned
            exact lower _ (RtmpSession.obey_headerRead heard) _
      · cases turned
        exact lower s rfl _

theorem hear_drains (r : Reader) (buf : Bytes) : Feed.Drains listen r buf (r.hear buf) := by
  refine Feed.drains_drain size (fun _ _ _ _ => listen_progress) _ r buf ?_
  unfold size
  split <;> omega

end Reader

end DroneServer
