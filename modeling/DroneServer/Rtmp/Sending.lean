import DroneServer.Rtmp.Abort
import DroneServer.Rtmp.Control
import DroneServer.Rtmp.Listener
import DroneServer.Rtmp.StreamAge

/-! # The messages the program sends

Control messages, replies to commands, and packets. A listener heeds each of them
without a fault, and only a Set Chunk Size message changes the chunk size it reads
with; so the memories of writer and listener stay in step over all of them, also
over the message that announces a chunk size and is itself cut by the new one.
-/

namespace DroneServer

open Endian

namespace Outgoing

/-- A message on chunk stream 2 with a full header. -/
def control (typeId : UInt8) (msg : Bytes) : Outgoing where
  csid := 2
  time := 0
  dtime := 0
  typeId := typeId
  streamId := 0
  msg := msg
  forceF0 := true

/-- A command message. -/
def command (csid : UInt16) (msg : Bytes) : Outgoing where
  csid := csid
  time := 0
  dtime := 0
  typeId := 20
  streamId := 0
  msg := msg
  forceF0 := false

/-- What the program sends besides packets and chunk sizes. -/
inductive Reply : Outgoing → Prop where
  | ack (total : UInt32) : Reply (control 3 (toBE32 total))
  | event {kind : UInt8} (known : kind = 0 ∨ kind = 1) (streamId : UInt32) :
      Reply (control 4 ([0, kind] ++ toBE32 streamId))
  | windowAck (size : UInt32) : Reply (control 5 (toBE32 size))
  | peerBandwidth (size : UInt32) (type : UInt8) : Reply (control 6 (toBE32 size ++ [type]))
  | command {csid : UInt16} (narrow : csid < 64) {msg : Bytes} (short : msg.length < 2 ^ 24) :
      Reply (command csid msg)

theorem control_fits (typeId : UInt8) {msg : Bytes} (short : msg.length < 2 ^ 24) :
    (control typeId msg).Fits :=
  ⟨(by decide : (2 : UInt16) < 64), (by decide : 0 < 0xffffff), (by decide : 0 < 0xffffff),
    (by decide : (0 : UInt32) ≠ 0xffffffff), short⟩

theorem announcement_short (n : UInt32) : (toBE32 n).length < 2 ^ 24 := by
  rw [toBE32_length]
  decide

theorem Reply.fits {o : Outgoing} (reply : o.Reply) : o.Fits := by
  cases reply with
  | ack | windowAck => exact control_fits _ (by decide : 4 < 2 ^ 24)
  | event => exact control_fits _ (by decide : 6 < 2 ^ 24)
  | peerBandwidth => exact control_fits _ (by decide : 5 < 2 ^ 24)
  | command narrow short =>
      exact ⟨narrow, (by decide : 0 < 0xffffff), (by decide : 0 < 0xffffff),
        (by decide : (0 : UInt32) ≠ 0xffffffff), short⟩

theorem Reply.type {o : Outgoing} (reply : o.Reply) :
    o.typeId ≠ 1 ∧ o.typeId ≠ 8 ∧ o.typeId ≠ 9 ∧ o.typeId ≠ 18 := by
  cases reply <;> simp [control, Outgoing.command]

end Outgoing

namespace Reader

open RtmpSession

variable {s : RtmpSession} {m : Incoming} {o : Outgoing}

theorem heeds_other (ready : s.current.ready) (other : ¬ s.current.type < 7) :
    ∃ s', Heeds s s' := by
  obtain ⟨cs, present⟩ := Option.isSome_iff_exists.mp (current_present ready)
  have here : s.current = cs := by rw [RtmpSession.current, present, Option.getD_some]
  have cleared : s.clearCurrent = .ok (s.setCurrent s.current.clear) := by
    simp only [clearCurrent, present, here]
  refine ⟨s.setCurrent s.current.clear, ?_, rfl, fun _ => rfl, ?_⟩
  · rw [obey, if_neg fun control => other control.1]
    exact cleared
  · have silent : s.incoming.size = none := by
      refine if_neg fun sizes => other ?_
      have type : s.current.type = 1 := sizes.1
      rw [type]
      decide
    rw [silent]
    rfl

theorem heeds_control {s₁ : RtmpSession} (ready : s.current.ready)
    (control : s.current.type < 7 ∧ s.current.streamId = 0) (keeps : s.current.type ≠ 2)
    (body : s.controlBody = .ok s₁) : ∃ s', Heeds s s' := by
  obtain ⟨cs, present⟩ := Option.isSome_iff_exists.mp (current_present ready)
  have here : s.current = cs := by rw [RtmpSession.current, present, Option.getD_some]
  have cleared : s₁.csIn = s.csIn → s₁.csid = s.csid →
      s.obey = .ok (s₁.setCurrent s.current.clear) := by
    intro csIn csid
    rw [obey, if_pos control, handleControlMessage, body, here]
    simp only [bind, Except.bind, clearCurrent, csIn, csid, present]
  obtain ⟨type, n, read, rfl⟩ | ⟨type, _⟩ | ⟨type, _, w, p, t, rfl⟩ := controlBody_ok body
  · refine ⟨_, cleared rfl rfl, rfl, fun _ => rfl, ?_⟩
    have sized : s.incoming.size = some n := by
      rw [Incoming.size, if_pos ⟨type, control.2⟩, incoming, read]
      rfl
    rw [sized]
    rfl
  · exact absurd type keeps
  · refine ⟨_, cleared rfl rfl, rfl, fun _ => rfl, ?_⟩
    have silent : s.incoming.size = none := if_neg fun sizes => type sizes.1
    rw [silent]
    rfl

/-- A listener heeds every reply and every announcement of a chunk size. -/
theorem sent_heeds (sent : o.Reply ∨ ∃ n, o = .control 1 (toBE32 n)) (matching : m.Matches o)
    (ready : s.current.ready) (same : s.incoming = m) : ∃ s', Heeds s s' := by
  subst same
  have type : s.current.type = o.typeId := matching.type
  have stream : s.current.streamId = o.streamId := matching.streamId
  have data : s.current.data = o.msg := matching.payload
  have body : ∀ {typeId : UInt8} {msg : Bytes}, o = .control typeId msg → typeId < 7 → typeId ≠ 2 →
      (∃ s₁, s.controlBody = .ok s₁) → ∃ s', Heeds s s' := by
    rintro typeId msg rfl small keeps ⟨s₁, body⟩
    exact heeds_control ready ⟨type ▸ small, stream⟩ (fun aborts => keeps (type.symm.trans aborts))
      body
  have word : ∀ n (rest : Bytes), wordAt (toBE32 n ++ rest) 0 = .ok n := by
    intro n rest
    rw [wordAt, if_pos (by rw [List.length_append, toBE32_length]; omega)]
    exact congrArg Except.ok (be32_toBE32 n)
  rcases sent with reply | ⟨n, rfl⟩
  · cases reply with
    | ack total =>
        refine body rfl (by decide) (by decide) ⟨s, ?_⟩
        simp only [Outgoing.control] at type data
        simp [controlBody, type, data, wordAt_toBE32, pure, Except.pure, bind, Except.bind]
    | event known id =>
        refine body rfl (by decide) (by decide) ⟨s, ?_⟩
        simp only [Outgoing.control] at type data
        rcases known with rfl | rfl <;>
          simp [controlBody, readUserControl, toBE32, type, data, pure, Except.pure, bind, Except.bind]
    | windowAck size =>
        refine body rfl (by decide) (by decide) ⟨{ s with windowSize := size }, ?_⟩
        simp only [Outgoing.control] at type data
        simp [controlBody, type, data, wordAt_toBE32, pure, Except.pure, bind, Except.bind]
    | peerBandwidth size limit =>
        refine body rfl (by decide) (by decide)
          ⟨{ s with peerBandwidth := size, peerBandwidthType := limit }, ?_⟩
        simp only [Outgoing.control] at type data
        have last : (toBE32 size ++ [limit])[4]? = some limit := rfl
        simp only [controlBody, type, data, word, last]
        rfl
    | command narrow short =>
        refine heeds_other ready ?_
        rw [type]
        exact (by decide : ¬ (20 : UInt8) < 7)
  · refine body rfl (by decide) (by decide) ⟨{ s with maxChunkSize := n }, ?_⟩
    simp only [Outgoing.control] at type data
    simp [controlBody, type, data, wordAt_toBE32, pure, Except.pure, bind, Except.bind]

/-- Writing a message that is heeded, and listening to what was written. -/
theorem Agree.say {w : RtmpSession} {r : Reader} (agree : Agree w r.session) {o : Outgoing}
    (fits : o.Fits) {n : UInt32} (positive : 0 < n.toNat)
    (sized : ∀ m : Incoming, m.Matches o → m.size.getD w.maxChunkSize = n)
    (heeds : ∀ s : RtmpSession, s.current.ready → s.incoming.Matches o → ∃ s', Heeds s s') :
    ∃ w' buffers s' m, w.write o = .ok w' ∧ w'.written = w.written ++ buffers ∧
      Agree { w' with maxChunkSize := n } s' ∧ m.Matches o ∧
      ∀ rest d, Feed.Drains listen { session := s', messages := r.messages ++ [m] } rest d →
        Feed.Drains listen r (buffers.flatten ++ rest) d := by
  obtain ⟨w', buffers, s₁, m, wrote, written, agree₁, matching, drains⟩ := agree.write fits
  have drained := drains [] _ (.empty _)
  rw [List.append_nil] at drained
  obtain ⟨s', between, memory, size, listens⟩ := listen_message drained agree₁.rests rfl
    fun s ready same => heeds s ready (same ▸ matching)
  refine ⟨w', buffers, s', m, wrote, written, ⟨between, ?_, positive, fun csid => ?_⟩, matching,
    listens⟩
  · rw [size, agree.size]
    exact sized m matching
  · rw [memory]
    exact agree₁.inStep csid

theorem Agree.go {w : RtmpSession} {r : Reader} (agree : Agree w r.session) {o : Outgoing}
    (fits : o.Fits) (unsized : o.typeId ≠ 1)
    (heeds : ∀ s : RtmpSession, s.current.ready → s.incoming.Matches o → ∃ s', Heeds s s') :
    ∃ w' buffers s' m, w.write o = .ok w' ∧ w'.written = w.written ++ buffers ∧ Agree w' s' ∧
      m.Matches o ∧
      ∀ rest d, Feed.Drains listen { session := s', messages := r.messages ++ [m] } rest d →
        Feed.Drains listen r (buffers.flatten ++ rest) d := by
  obtain ⟨w', buffers, s', m, wrote, written, agree', matching, listens⟩ :=
    agree.say fits agree.positive (fun m matching => by
      rw [Incoming.size, if_neg fun sizes => unsized (matching.type.symm.trans sizes.1)]
      rfl) heeds
  have size : w'.maxChunkSize = w.maxChunkSize := congrArg (·.maxChunkSize) (writeChunk_quiet wrote)
  exact ⟨w', buffers, s', m, wrote, written, ⟨agree'.between, agree'.size.trans size.symm,
    size ▸ agree'.positive, agree'.inStep⟩, matching, listens⟩

end Reader

namespace RtmpSession

/-- A message that fits in one chunk is written the same whatever the chunk size. -/
theorem write_short {w w' : RtmpSession} {o : Outgoing} (wrote : w.write o = .ok w') {n : UInt32}
    (small : o.msg.length < 2 ^ 32) (short : o.msg.length ≤ w.maxChunkSize.toNat)
    (short' : o.msg.length ≤ n.toNat) :
    write { w with maxChunkSize := n } o = .ok { w' with maxChunkSize := n } := by
  have length : (UInt32.ofNat o.msg.length).toNat = o.msg.length := UInt32.toNat_ofNat_of_lt' small
  have whole : ¬ UInt32.ofNat o.msg.length > w.maxChunkSize := fun longer => by
    have := UInt32.lt_iff_toNat_lt.mp longer
    omega
  have whole' : ¬ UInt32.ofNat o.msg.length > n := fun longer => by
    have := UInt32.lt_iff_toNat_lt.mp longer
    omega
  obtain ⟨⟨cs, buffers, size⟩, cut, done⟩ := bind_ok.mp wrote
  cases done
  refine bind_ok.mpr ⟨⟨cs, buffers, size⟩, ?_, rfl⟩
  simp only [RtmpChunkStream.writeChunk, whole, whole', if_false] at cut ⊢
  exact cut

end RtmpSession

namespace Reader

open RtmpSession

/-- The announcement of a chunk size, cut by the new size already. -/
theorem Agree.announce {w : RtmpSession} {r : Reader} (agree : Agree w r.session) {n : UInt32}
    (room : 4 ≤ w.maxChunkSize.toNat) (room' : 4 ≤ n.toNat) :
    ∃ w' buffers s' m,
      RtmpSession.write { w with maxChunkSize := n } (.control 1 (toBE32 n)) = .ok w' ∧
      w'.written = w.written ++ buffers ∧ Agree w' s' ∧ m.Matches (.control 1 (toBE32 n)) ∧
      ∀ rest d, Feed.Drains listen { session := s', messages := r.messages ++ [m] } rest d →
        Feed.Drains listen r (buffers.flatten ++ rest) d := by
  obtain ⟨w', buffers, s', m, wrote, written, agree', matching, listens⟩ :=
    agree.say (Outgoing.control_fits 1 (Outgoing.announcement_short n))
      (by omega : 0 < n.toNat) (fun m matching => by
        have sizes : m.type = 1 ∧ m.streamId = 0 := ⟨matching.type, matching.streamId⟩
        have payload : m.payload = toBE32 n := matching.payload
        rw [Incoming.size, if_pos sizes, payload, wordAt_toBE32]
        rfl)
      fun s ready matching => sent_heeds (.inr ⟨n, rfl⟩) matching ready rfl
  exact ⟨_, buffers, s', m, write_short wrote (by decide : 4 < 2 ^ 32) room room', written, agree',
    matching, listens⟩

end Reader

end DroneServer
