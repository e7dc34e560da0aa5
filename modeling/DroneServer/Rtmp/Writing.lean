import DroneServer.Rtmp.ChunkSize
import DroneServer.Rtmp.Control
import DroneServer.Rtmp.Publication
import DroneServer.Rtmp.RoundTrip

/-! # When writing a message ends

`write_chunk` cuts a message into pieces of `max_chunk_size` and takes the length
of the message as 32 bits. A size of zero makes no progress, and a session gets it
from its peer: by a Set Chunk Size message that says so, and by nothing else.
-/

namespace DroneServer

namespace RtmpChunkStream

/-- The payload parts of the buffers a message is queued in: what follows the header in the first,
    and the basic header in each other. -/
def payloadParts (headerSize : Nat) : List Bytes → List Bytes
  | [] => []
  | first :: rest => first.drop headerSize :: rest.map (·.drop 1)

/-- What `write_chunk` puts before the payload in the first buffer. -/
def front (cs : RtmpChunkStream) (o : Outgoing) : Bytes :=
  cs.data ++ (cs.writeHeader o.time o.dtime o.typeId o.streamId (UInt32.ofNat o.msg.length)
    o.forceF0).1

/-- `write_chunk` returns, and the payload parts of what it queues make up the message. -/
def Writes (cs : RtmpChunkStream) (maxChunkSize : UInt32) (o : Outgoing) : Prop :=
  ∃ cs' buffers size, cs.writeChunk maxChunkSize o.time o.dtime o.typeId o.streamId o.msg o.forceF0 =
      .ok (cs', buffers, size) ∧
    (payloadParts (cs.front o).length buffers).flatten = o.msg

theorem writeHeader_data (cs : RtmpChunkStream) (time dtime : UInt32) (typeId : UInt8)
    (streamId msgSize : UInt32) (forceF0 : Bool) :
    (cs.writeHeader time dtime typeId streamId msgSize forceF0).2.1.data = cs.data := by
  unfold writeHeader
  split
  · rfl
  split
  · rfl
  split <;> rfl

theorem writeRest_pieces {n : UInt32} {bh : UInt8} {fuel : Nat} {msg : Bytes} {rest : List Bytes}
    (split : writeRest n bh fuel msg = .ok rest) : (rest.map (·.drop 1)).flatten = msg := by
  induction fuel generalizing msg rest with
  | zero =>
      unfold writeRest at split
      split at split <;> cases split
      next none => exact (List.isEmpty_iff.mp none).symm
  | succ fuel ih =>
      unfold writeRest at split
      split at split
      · next none =>
          cases split
          exact (List.isEmpty_iff.mp none).symm
      · obtain ⟨later, cut, joined⟩ := bind_ok.mp split
        cases joined
        rw [List.map_cons, List.flatten_cons, ih cut, List.drop_one, List.tail_cons,
          List.take_append_drop]

/-- Whatever is written are the first so many bytes of the message as 32 bits can tell. -/
theorem writeChunk_parts {cs cs' : RtmpChunkStream} {n : UInt32} {o : Outgoing}
    {buffers : List Bytes} {size : UInt32}
    (wrote : cs.writeChunk n o.time o.dtime o.typeId o.streamId o.msg o.forceF0 =
      .ok (cs', buffers, size)) :
    (payloadParts (cs.front o).length buffers).flatten = o.msg.take (o.msg.length % 2 ^ 32) := by
  have length : (UInt32.ofNat o.msg.length).toNat = o.msg.length % 2 ^ 32 := UInt32.toNat_ofNat' ..
  unfold writeChunk at wrote
  simp only [length, writeHeader_data] at wrote
  split at wrote
  · obtain ⟨rest, split, done⟩ := bind_ok.mp wrote
    cases done
    rw [payloadParts, List.flatten_cons, writeRest_pieces split, front, List.drop_left,
      List.take_append_drop]
  · cases wrote
    rw [payloadParts, List.map_nil, List.flatten_singleton, front, List.drop_left]

theorem writes_iff (cs : RtmpChunkStream) (n : UInt32) (o : Outgoing) :
    cs.Writes n o ↔ o.msg.length < 2 ^ 32 ∧ (n ≠ 0 ∨ o.msg = []) := by
  constructor
  · rintro ⟨cs', buffers, size, wrote, parts⟩
    rw [writeChunk_parts wrote] at parts
    have short : o.msg.length < 2 ^ 32 := by
      have within := congrArg List.length parts
      rw [List.length_take] at within
      have := Nat.mod_lt o.msg.length (by decide : 0 < 2 ^ 32)
      omega
    refine ⟨short, ?_⟩
    by_contra neither
    obtain ⟨zero, some⟩ := not_or.mp neither
    obtain rfl := not_not.mp zero
    cases (cs.writeChunk_endless _ _ _ _ _ some short).symm.trans wrote
  · rintro ⟨short, room⟩
    obtain ⟨written, wrote⟩ := cs.writeChunk_ends o.time o.dtime o.typeId o.streamId o.forceF0 room
    refine ⟨_, _, _, wrote, ?_⟩
    rw [writeChunk_parts wrote, Nat.mod_eq_of_lt short, List.take_length]

end RtmpChunkStream

namespace Host

/-- Every session can write every message whose length its 32-bit size can hold, on whatever chunk
    stream. -/
def WritesAll (host : Host) : Prop :=
  ∀ x (o : Outgoing), o.msg.length < 2 ^ 32 →
    (((host.server.sessions x).csOut o.csid).getD { csid := o.csid }).Writes
      (host.server.sessions x).maxChunkSize o

/-- The step handles a Set Chunk Size message that says zero. -/
def SetsZero (host : Host) : Label → Prop
  | .dispatch x _ => host.server.crashed = none ∧ host.Ready x ∧ host.server.SetsSize x 0
  | .accept _ | .receive _ _ | .shake _ _ | .parse _ | .close _ => False

/-- Every session has room for at least a byte in a chunk. -/
def HasRoom (host : Host) : Prop := ∀ x, (host.server.sessions x).maxChunkSize ≠ 0

theorem HasRoom.writes {host : Host} (room : host.HasRoom) : host.WritesAll :=
  fun x o short => (RtmpChunkStream.writes_iff _ _ o).mpr ⟨short, .inl (room x)⟩

theorem WritesAll.room {host : Host} (writes : host.WritesAll) : host.HasRoom := by
  intro x
  have wrote := writes x ⟨0, 0, 0, 0, 0, [0], false⟩ (by decide)
  exact ((RtmpChunkStream.writes_iff _ _ _).mp wrote).2.resolve_right (List.cons_ne_nil _ _)

theorem HasRoom.step {host : Host} {l : Label} (room : host.HasRoom) (sets : ¬ host.SetsZero l) :
    (host.step l).HasRoom := by
  by_cases running : host.server.crashed = none
  · intro y
    have zero : (∃ env, l = .dispatch y env ∧ host.Ready y ∧
        host.server.SetsSize y ((host.step l).server.view.size y)) →
        ((host.step l).server.sessions y).maxChunkSize ≠ 0 := by
      rintro ⟨env, rfl, ready, resized⟩ none
      have size : (host.step (.dispatch y env)).server.view.size y = 0 := none
      exact sets ⟨running, ready, size ▸ resized⟩
    cases host.step_resized l y with
    | same size =>
        intro none
        exact room y (size.symm.trans none)
    | sent resized => exact zero resized
    | heard resized => exact zero resized
  · rw [Host.step, if_neg running]
    exact room

end Host

theorem RtmpSession.handleControlMessage_sizes {s : RtmpSession} {size : UInt32}
    (type : s.current.type = 1) (read : wordAt s.current.data 0 = .ok size) :
    ∃ s', s.handleControlMessage = .ok s' ∧ s'.maxChunkSize = size := by
  -- a message of type 1 is in an entry of `cs_in`: a missing one reads as type 0
  obtain ⟨cs, present⟩ : ∃ cs, s.csIn s.csid = some cs := by
    rw [← Option.ne_none_iff_exists']
    intro absent
    rw [current, absent] at type
    cases type
  have body : s.controlBody = .ok { s with maxChunkSize := size } := by
    simp only [controlBody, type, if_true, read]
    rfl
  have cleared : clearCurrent { s with maxChunkSize := size } =
      .ok ({ s with maxChunkSize := size }.setCurrent cs.clear) := by
    simp only [clearCurrent, present]
  exact ⟨_, by rw [handleControlMessage, body]; exact cleared, rfl⟩

theorem Server.dispatch_sizes {srv : Server} {x : SessionId} {env : Env} {size : UInt32}
    (room : (srv.sessions x).maxChunkSize ≠ 0) (control : srv.Control x)
    (type : (srv.sessions x).current.type = 1)
    (read : RtmpSession.wordAt (srv.sessions x).current.data 0 = .ok size) :
    ((srv.dispatch env x).2.sessions x).maxChunkSize = size := by
  obtain ⟨s, counting, _⟩ := acknowledge_room room
  have counted : srv.within x (·.acknowledge) = .ok (srv.set x s) := by
    rw [within, counting]
    rfl
  have current := RtmpSession.current_decoder (RtmpSession.acknowledge_ok counting).1
  unfold Control at control
  rw [← current] at control type read
  obtain ⟨s', ran, set⟩ := RtmpSession.handleControlMessage_sizes type read
  simp only [dispatch, counted]
  generalize called : (srv.set x s).emit _ = srv₁
  have session : srv₁.sessions x = s := by
    rw [← called]
    exact set_sessions srv x s
  have ran' : srv₁.within x (·.handleControlMessage) = .ok (srv₁.set x s') := by
    rw [within, session, ran]
    rfl
  have handled : srv₁.handleChunkStream env x =
      .ok (.ok, (srv₁.set x s').emit (.announced x ((srv₁.set x s').sessions x).maxChunkSize)) := by
    simp only [handleChunkStream, session, control, if_true, handleControlMessage, ran', type]
    rfl
  simp only [handled, reduceCtorEq, if_false]
  have session' : ((srv₁.set x s').sessions x).maxChunkSize = size := by
    rw [set_sessions, set]
  exact session'

theorem Host.SetsZero.stuck {host : Host} {l : Label} (room : host.HasRoom)
    (sets : host.SetsZero l) : ¬ (host.step l).HasRoom := by
  cases l with
  | accept | receive | shake | parse | close => exact sets.elim
  | dispatch x env =>
      obtain ⟨running, ready, ⟨control, type, read⟩ | ⟨_, other⟩⟩ := sets
      · intro kept
        refine kept x ?_
        rw [step, if_pos running, perform, if_pos ready]
        exact Server.dispatch_sizes (room x) control type read
      · cases other

/-- A message is written, whole and in the end, exactly when its length fits in 32 bits and it is
    empty or there is room in a chunk. Along a run every session can write all messages of such a
    length exactly when no step handles a Set Chunk Size message that says zero. -/
theorem write_chunk_ends_iff (cs : RtmpChunkStream) (maxChunkSize : UInt32) (o : Outgoing)
    (recordForce : Bool) (labels : List Label) :
    (cs.Writes maxChunkSize o ↔ o.msg.length < 2 ^ 32 ∧ (maxChunkSize ≠ 0 ∨ o.msg = [])) ∧
    ((machine recordForce).Always Host.WritesAll labels ↔
      (machine recordForce).Steps (fun host l => ¬ host.SetsZero l) labels) := by
  refine ⟨RtmpChunkStream.writes_iff cs maxChunkSize o, ?_⟩
  refine Machine.always_iff (I := Host.HasRoom) ?_ ?_ ?_ ?_
  · intro x
    exact (by decide : (128 : UInt32) ≠ 0)
  · exact fun host room => room.writes
  · exact fun host l room => room.step
  · exact fun host l room sets writes => (not_not.mp sets).stuck room writes.room

/-- A peer that sends Set Chunk Size with zero. -/
def zeroRun : List Label := Peer.greet 1 ++ Peer.deliver 1 (Peer.setChunkSize 0)

set_option maxRecDepth 4000 in
/-- From then on not even a message of one byte is written. -/
theorem zero_chunk_size_endless :
    ¬ ∀ (labels : List Label) (x : SessionId) (o : Outgoing),
      ((((machine false).run labels).server.sessions x).csOut o.csid |>.getD { csid := o.csid }).Writes
        (((machine false).run labels).server.sessions x).maxChunkSize o := by
  intro all
  have wrote := all zeroRun 1 ⟨0, 0, 0, 0, 0, [0], false⟩
  have zero : (((machine false).run zeroRun).server.sessions 1).maxChunkSize = 0 := by
    decide +kernel
  obtain ⟨_, room | none⟩ := (RtmpChunkStream.writes_iff _ _ _).mp wrote
  · exact room zero
  · cases none

end DroneServer
