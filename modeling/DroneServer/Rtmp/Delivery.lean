import DroneServer.Lib.Machine
import DroneServer.Rtmp.Stream

/-! # What a viewer receives

The life of one stream object, as a sequence of calls to `join`, `leave` and
`send`. From its join on a viewer is given every packet the stream takes in,
once and in order: the first one inside a replay of the cache, which is all it
ever sees of the packets before its join, and each later one by itself.
-/

namespace DroneServer

/-- A call on a stream object. `send` finds the media pipes as they are by then. -/
inductive StreamCall where
  | join (session : SessionId) (publisher : Bool)
  | leave (session : SessionId)
  | send (session : SessionId) (cs : RtmpChunkStream) (mm : MediaManager)

/-- A stream object, with what it has taken in and what it has passed on since it was made. -/
structure Broadcast where
  stream : RtmpStream
  /-- The packets `send` made: those of whoever was the publisher at the time. -/
  sent : List MediaPacket := []
  /-- What was passed to a peer's `write_media_packet`. -/
  passed : List (SessionId × MediaPacket) := []
  crashed : Option Fault := none

namespace Broadcast

/-- What was passed to one peer's `write_media_packet`, in order. -/
def passedTo (b : Broadcast) (v : SessionId) : List MediaPacket := Table.addressed v b.passed

def perform (b : Broadcast) : StreamCall → Broadcast
  | .join session publisher => { b with stream := (b.stream.join session publisher).2 }
  | .leave session => { b with stream := b.stream.leave session }
  | .send session cs mm =>
      match b.stream.send mm session cs with
      | .error f => { b with crashed := some f }
      | .ok none => b
      | .ok (some (stream, _, pkt, writes)) =>
          { b with stream, sent := b.sent ++ [pkt], passed := b.passed ++ writes }

/-- Nothing happens any more once the process has stopped. -/
def step (b : Broadcast) (c : StreamCall) : Broadcast :=
  if b.crashed = none then b.perform c else b

end Broadcast

/-- The life of a stream object. -/
def broadcast (st : RtmpStream) : Machine Broadcast StreamCall where
  start := { stream := st }
  step := Broadcast.step

namespace Broadcast

/-- What a call can do. -/
inductive Change (b : Broadcast) : StreamCall → Broadcast → Prop where
  | idle (c : StreamCall) (crashed : Option Fault) : Change b c { b with crashed }
  | joined (session : SessionId) (publisher : Bool) : Change b (.join session publisher)
      { b with stream := (b.stream.join session publisher).2 }
  | left (session : SessionId) : Change b (.leave session)
      { b with stream := b.stream.leave session }
  | sent {session : SessionId} {cs : RtmpChunkStream} {mm mm' : MediaManager}
      {stream : RtmpStream} {pkt : MediaPacket} {writes : List (SessionId × MediaPacket)}
      (accepted : b.stream.send mm session cs = .ok (some (stream, mm', pkt, writes))) :
      Change b (.send session cs mm)
        { b with stream, sent := b.sent ++ [pkt], passed := b.passed ++ writes }

theorem step_change (b : Broadcast) (c : StreamCall) : Change b c (b.step c) := by
  unfold step
  split
  · cases c with
    | join session publisher => exact .joined session publisher
    | leave session => exact .left session
    | send session cs mm =>
        simp only [perform]
        split
        · exact .idle _ _
        · exact .idle _ _
        · next accepted => exact .sent accepted
  · exact .idle c b.crashed

/-- The packets taken in are numbered as they come, and the cache holds some of them, each once. -/
structure Cached (b : Broadcast) : Prop where
  numbered : b.sent.map (·.ptr) = List.range b.stream.made
  cached : ∀ p ∈ b.stream.gop.write, p ∈ b.sent
  once : b.stream.gop.write.Nodup

namespace Cached

variable {b : Broadcast}

theorem distinct (cached : Cached b) : b.sent.Nodup := by
  refine List.Nodup.of_map (·.ptr) ?_
  rw [cached.numbered]
  exact List.nodup_range

theorem fresh (cached : Cached b) {pkt : MediaPacket} (ptr : pkt.ptr = b.stream.made) :
    pkt ∉ b.sent := by
  intro inside
  have earlier : pkt.ptr ∈ List.range b.stream.made := by
    rw [← cached.numbered]
    exact List.mem_map_of_mem inside
  rw [ptr] at earlier
  exact List.not_mem_range_self earlier

theorem step (cached : Cached b) (c : StreamCall) : Cached (b.step c) := by
  have change := step_change b c
  generalize b.step c = b' at change
  cases change with
  | idle => exact ⟨cached.numbered, cached.cached, cached.once⟩
  | joined session publisher =>
      obtain ⟨same, _⟩ | ⟨_, _, same⟩ := b.stream.join_cases session publisher <;> rw [same]
      · exact cached
      · exact ⟨cached.numbered, cached.cached, cached.once⟩
  | left => exact ⟨cached.numbered, cached.cached, cached.once⟩
  | @sent _ cs _ _ _ pkt _ accepted =>
      obtain ⟨_, demux, made, rfl, _⟩ := RtmpStream.send_ok accepted
      have ptr : pkt.ptr = b.stream.made := (RtmpStream.chunkStreamToMediaPkt_ok made).2.2.1
      obtain ⟨kept, fewer, same⟩ := b.stream.gop.insert_write pkt
      refine ⟨?_, fun p inside => ?_, ?_⟩
      · simp only [List.map_append, List.map_cons, List.map_nil, cached.numbered, ptr]
        exact List.range_succ.symm
      · rcases List.mem_cons.mp (same.mem_iff.mp inside) with rfl | old
        · exact List.mem_append_right _ (List.mem_singleton_self p)
        · exact List.mem_append_left _ (cached.cached p (fewer.mem old))
      · refine same.nodup_iff.mpr (List.nodup_cons.mpr ⟨fun old => ?_, fewer.nodup cached.once⟩)
        exact cached.fresh ptr (cached.cached pkt (fewer.mem old))

theorem exec (cached : Cached b) {st : RtmpStream} (calls : List StreamCall) :
    Cached ((broadcast st).exec b calls) := by
  induction calls generalizing b with
  | nil => exact cached
  | cons c calls ih => exact ih (cached.step c)

theorem run {ref : Nat} {url : Bytes} {st : RtmpStream} (made : RtmpStream.create ref url = .ok st)
    (calls : List StreamCall) : Cached ((broadcast st).run calls) := by
  refine Cached.exec ?_ calls
  obtain ⟨cid, _, built⟩ := bind_ok.mp made
  cases built
  exact ⟨rfl, fun p inside => absurd inside List.not_mem_nil, List.nodup_nil⟩

end Cached

/-- The session is a peer and not the publisher; `served` tells whether the cache was written to it
    already. -/
structure Viewer (b : Broadcast) (v : SessionId) (served : Bool) : Prop where
  entry : b.crashed = none → (v, served) ∈ b.stream.peers.entries
  watching : b.stream.publisher ≠ some v

variable {b : Broadcast} {c : StreamCall} {v : SessionId} {served : Bool}

/-- One call as a viewer that stays sees it: nothing, or one packet more. -/
theorem Viewer.step (viewer : Viewer b v served) (stays : c ≠ .leave v)
    (watching : (b.step c).stream.publisher ≠ some v) :
    (Viewer (b.step c) v served ∧ (b.step c).sent = b.sent ∧
      (b.step c).passedTo v = b.passedTo v) ∨
    ∃ session cs mm pkt, c = .send session cs mm ∧ Viewer (b.step c) v true ∧
      (b.step c).sent = b.sent ++ [pkt] ∧ pkt ∈ (b.step c).stream.gop.write ∧
      (b.step c).passedTo v =
        b.passedTo v ++ if served then [pkt] else (b.step c).stream.gop.write := by
  by_cases running : b.crashed = none
  · have entry := viewer.entry running
    have change := step_change b c
    generalize b.step c = b' at change watching ⊢
    cases change with
    | idle => exact .inl ⟨⟨fun _ => entry, watching⟩, rfl, rfl⟩
    | joined session publisher =>
        refine .inl ⟨⟨fun _ => ?_, watching⟩, rfl, rfl⟩
        obtain ⟨same, _⟩ | ⟨_, _, same⟩ := b.stream.join_cases session publisher <;> rw [same]
        · exact entry
        · exact Table.insertNew_keeps entry
    | left session =>
        have other : v ≠ session := by
          rintro rfl
          exact stays rfl
        exact .inl ⟨⟨fun _ => Table.erase_keeps entry other, watching⟩, rfl, rfl⟩
    | @sent session cs mm mm' stream pkt writes accepted =>
        obtain ⟨host, demux, made, rfl, rfl⟩ := RtmpStream.send_ok accepted
        have other : v ≠ session := by
          rintro rfl
          exact viewer.watching host
        refine .inr ⟨session, cs, mm, pkt, rfl, ⟨fun _ => ?_, watching⟩, rfl, ?_, ?_⟩
        · have updated := Table.mapValues_entry entry
            fun peer served => served || decide (peer ≠ session)
          simpa only [other, ne_eq, not_false_eq_true, decide_true, Bool.or_true] using updated
        · obtain ⟨kept, _, same⟩ := b.stream.gop.insert_write pkt
          exact same.mem_iff.mpr List.mem_cons_self
        · simp only [passedTo, Table.addressed_append]
          congr 1
          refine (Table.addressed_posts _ entry
            (RtmpStream.writesTo (b.stream.gop.insert pkt) pkt session)).trans ?_
          rw [RtmpStream.writesTo, if_neg other]
  · have stopped : b.step c = b := if_neg running
    rw [stopped]
    exact .inl ⟨viewer, rfl, rfl⟩

theorem Viewer.join (b : Broadcast) {v : SessionId}
    (watching : (b.step (.join v false)).stream.publisher ≠ some v) :
    ∃ served, Viewer (b.step (.join v false)) v served := by
  by_cases running : b.crashed = none
  · have joined : b.step (.join v false) =
        { b with stream := (b.stream.join v false).2 } := if_pos running
    rw [joined] at watching ⊢
    have inside : v ∈ (b.stream.join v false).2.peers := by
      obtain ⟨_, refused, _⟩ | ⟨_, _, same⟩ := b.stream.join_cases v false
      · cases refused
      · rw [same]
        exact Table.mem_insertNew.mpr (.inl rfl)
    obtain ⟨served, entry⟩ := Table.mem_iff.mp inside
    exact ⟨served, fun _ => entry, watching⟩
  · have stopped : b.step (.join v false) = b := if_neg running
    rw [stopped] at watching ⊢
    exact ⟨false, fun stillRunning => absurd stillRunning running, watching⟩

/-- The call at which a viewer, in state `joined` at its join, gets something for the first time:
    `idle` and `next` are the states before and after it. What it gets is all from the cache: the
    packet of this call, once, and packets from before the join. -/
structure FirstSend (joined idle next : Broadcast) (v : SessionId) (first : MediaPacket)
    (replay : List MediaPacket) : Prop where
  unsent : idle.sent = joined.sent
  unserved : idle.passedTo v = joined.passedTo v
  sent : next.sent = joined.sent ++ [first]
  served : next.passedTo v = joined.passedTo v ++ replay
  cached : ∀ p ∈ replay, p ∈ next.stream.gop.write
  older : ∀ p ∈ replay, p = first ∨ p ∈ joined.sent
  inside : first ∈ replay
  once : replay.Nodup

theorem FirstSend.of_step {joined idle next : Broadcast} {first : MediaPacket}
    {replay : List MediaPacket} (known : Cached next) (unsent : idle.sent = joined.sent)
    (unserved : idle.passedTo v = joined.passedTo v) (sent : next.sent = joined.sent ++ [first])
    (served : next.passedTo v = joined.passedTo v ++ replay)
    (inside : first ∈ next.stream.gop.write)
    (shape : replay = [first] ∨ replay = next.stream.gop.write) :
    FirstSend joined idle next v first replay := by
  obtain rfl | rfl := shape
  · refine ⟨unsent, unserved, sent, served, fun p alone => ?_, fun p alone => ?_,
      List.mem_singleton_self first, List.nodup_singleton first⟩
    · rwa [List.mem_singleton.mp alone]
    · exact .inl (List.mem_singleton.mp alone)
  · refine ⟨unsent, unserved, sent, served, fun _ taken => taken, fun p taken => ?_, inside,
      known.once⟩
    have old := known.cached p taken
    rw [sent, List.mem_append, List.mem_singleton] at old
    exact old.symm

/-- What a viewer got by now: nothing while nothing was sent, and otherwise the replay of the first
    call that sent something, followed by what was sent since. -/
def Received (M : Machine Broadcast StreamCall) (joined : Broadcast) (v : SessionId)
    (after : List StreamCall) (sent got : List MediaPacket) : Prop :=
  (sent = [] ∧ got = []) ∨
  ∃ idle session cs mm rest first replay later,
    after = idle ++ .send session cs mm :: rest ∧
    FirstSend joined (M.exec joined idle) (M.exec joined (idle ++ [.send session cs mm])) v first
      replay ∧
    sent = first :: later ∧ got = replay ++ later

/-- Whatever a viewer that stays gets, it gets as `Received` says. -/
theorem Viewer.received {st : RtmpStream} {joined : Broadcast} (cached : Cached joined)
    (viewer : Viewer joined v served) (after : List StreamCall) (stays : .leave v ∉ after)
    (watching : ∀ done, done <+: after →
      ((broadcast st).exec joined done).stream.publisher ≠ some v) :
    ∃ sent got served', ((broadcast st).exec joined after).sent = joined.sent ++ sent ∧
      ((broadcast st).exec joined after).passedTo v = joined.passedTo v ++ got ∧
      Received (broadcast st) joined v after sent got ∧
      Viewer ((broadcast st).exec joined after) v served' ∧ (sent ≠ [] → served' = true) := by
  induction after using List.reverseRecOn with
  | nil =>
      refine ⟨[], [], served, ?_, ?_, .inl ⟨rfl, rfl⟩, viewer, fun some => absurd rfl some⟩
      · exact (List.append_nil _).symm
      · exact (List.append_nil _).symm
  | append_singleton after c ih =>
      rw [List.mem_append, not_or, List.mem_singleton] at stays
      obtain ⟨sent, got, served', sentNow, gotNow, received, still, opening⟩ := ih stays.1
        fun done inside => watching done (inside.trans (List.prefix_append after [c]))
      have last : (broadcast st).exec joined (after ++ [c]) =
          ((broadcast st).exec joined after).step c :=
        (broadcast st).exec_append joined after [c]
      have unseen := watching _ (List.prefix_refl _)
      rw [last] at unseen ⊢
      obtain ⟨still', sent', passed'⟩ | ⟨session, cs, mm, pkt, rfl, still', sent', inside, passed'⟩ :=
        still.step (Ne.symm stays.2) unseen
      · refine ⟨sent, got, served', sent'.trans sentNow, passed'.trans gotNow, ?_, still', opening⟩
        refine received.imp_right ?_
        rintro ⟨idle, session, cs, mm, rest, first, replay, later, rfl, firstSend, shape⟩
        exact ⟨idle, session, cs, mm, rest ++ [c], first, replay, later,
          by simp only [List.append_assoc, List.cons_append], firstSend, shape⟩
      · rw [sentNow] at sent'
        rw [gotNow] at passed'
        obtain ⟨rfl, rfl⟩ | ⟨idle, session', cs', mm', rest, first, replay, later, rfl, firstSend,
          rfl, rfl⟩ := received
        · rw [List.append_nil] at sent' passed' sentNow gotNow
          have known : Cached (((broadcast st).exec joined after).step (.send session cs mm)) := by
            rw [← last]
            exact cached.exec _
          have first := FirstSend.of_step known sentNow gotNow sent' passed' inside <| by
            split
            · exact .inl rfl
            · exact .inr rfl
          rw [← last] at first passed'
          exact ⟨[pkt], _, true, sent', last ▸ passed', .inr ⟨after, session, cs, mm, [], pkt, _, [], rfl,
            first, rfl, (List.append_nil _).symm⟩, still', fun _ => rfl⟩
        · have opened : served' = true := opening (List.cons_ne_nil first later)
          rw [opened, if_pos rfl, List.append_assoc, List.append_assoc] at passed'
          rw [List.append_assoc] at sent'
          refine ⟨first :: (later ++ [pkt]), replay ++ (later ++ [pkt]), true, sent', passed',
            .inr ⟨idle, session', cs', mm', rest ++ [.send session cs mm], first, replay,
              later ++ [pkt], ?_, firstSend, rfl, rfl⟩, still', fun _ => rfl⟩
          simp only [List.append_assoc, List.cons_append]

/-- Apart from packets from before the join it is exactly what was sent since, and nothing comes
    twice. -/
theorem Received.exact {M : Machine Broadcast StreamCall} {joined : Broadcast}
    {after : List StreamCall} {sent got : List MediaPacket}
    (received : Received M joined v after sent got) (distinct : (joined.sent ++ sent).Nodup) :
    got.filter (· ∉ joined.sent) = sent ∧ got.Nodup := by
  obtain ⟨rfl, rfl⟩ | ⟨idle, session, cs, mm, rest, first, replay, later, _, firstSend, rfl, rfl⟩ :=
    received
  · exact ⟨rfl, List.nodup_nil⟩
  obtain ⟨_, since, apart⟩ := List.nodup_append.mp distinct
  have fresh : ∀ p ∈ first :: later, p ∉ joined.sent := fun p new old => apart p old p new rfl
  obtain ⟨unseen, later_once⟩ := List.nodup_cons.mp since
  have head : replay.filter (· ∉ joined.sent) = [first] := by
    have same : replay.filter (· ∉ joined.sent) = replay.filter (· == first) := by
      refine List.filter_congr fun p inside => ?_
      rcases firstSend.older p inside with rfl | old
      · simp [fresh p List.mem_cons_self]
      · have other : p ≠ first := by
          rintro rfl
          exact fresh p List.mem_cons_self old
        simp [old, other]
    rw [same, List.filter_beq, List.count_eq_one_of_mem firstSend.once firstSend.inside]
    rfl
  have tail : later.filter (· ∉ joined.sent) = later := by
    refine List.filter_eq_self.mpr fun p inside => ?_
    exact decide_eq_true (fresh p (List.mem_cons_of_mem first inside))
  constructor
  · rw [List.filter_append, head, tail]
    rfl
  · refine List.nodup_append.mpr ⟨firstSend.once, later_once, ?_⟩
    rintro p inside q new rfl
    rcases firstSend.older p inside with rfl | old
    · exact unseen new
    · exact fresh p (List.mem_cons_of_mem first new) old

end Broadcast

/-- From its join on, a viewer that neither leaves nor becomes the publisher gets exactly the
    packets the stream takes in, once and in order, and besides these only packets from before the
    join, all of them in the replay of the cache at the first packet sent since. -/
theorem viewer_receives_each_once {ref : Nat} {url : Bytes} {st : RtmpStream}
    (made : RtmpStream.create ref url = .ok st) (before after : List StreamCall) (v : SessionId)
    (stays : .leave v ∉ after)
    (watching : ∀ done, done <+: after →
      ((broadcast st).run (before ++ .join v false :: done)).stream.publisher ≠ some v) :
    ∃ sent got,
      ((broadcast st).run (before ++ .join v false :: after)).sent =
        ((broadcast st).run (before ++ [.join v false])).sent ++ sent ∧
      ((broadcast st).run (before ++ .join v false :: after)).passedTo v =
        ((broadcast st).run (before ++ [.join v false])).passedTo v ++ got ∧
      got.filter (· ∉ ((broadcast st).run (before ++ [.join v false])).sent) = sent ∧
      got.Nodup ∧
      Broadcast.Received (broadcast st) ((broadcast st).run (before ++ [.join v false])) v after
        sent got := by
  have split : ∀ done, (broadcast st).run (before ++ .join v false :: done) =
      (broadcast st).exec ((broadcast st).run (before ++ [.join v false])) done := by
    intro done
    simp only [Machine.run, Machine.exec_append, Machine.exec_cons, Machine.exec_nil]
  have watching : ∀ done, done <+: after → ((broadcast st).exec ((broadcast st).run
      (before ++ [.join v false])) done).stream.publisher ≠ some v :=
    fun done inside => split done ▸ watching done inside
  rw [split after]
  have cached := Broadcast.Cached.run made (before ++ [.join v false])
  obtain ⟨served, viewer⟩ : ∃ served,
      Broadcast.Viewer ((broadcast st).run (before ++ [.join v false])) v served := by
    have joining := watching [] List.nil_prefix
    rw [Machine.exec_nil, Machine.run_snoc] at joining
    rw [Machine.run_snoc]
    exact Broadcast.Viewer.join _ joining
  generalize (broadcast st).run (before ++ [.join v false]) = joined at *
  obtain ⟨sent, got, _, sentNow, gotNow, received, _⟩ := viewer.received cached after stays watching
  have distinct : (joined.sent ++ sent).Nodup := sentNow ▸ (cached.exec after).distinct
  exact ⟨sent, got, sentNow, gotNow, (received.exact distinct).1, (received.exact distinct).2,
    received⟩

/-- A message the publisher of a stream sends on it. -/
def mediaMessage (type : UInt8) (data : Bytes) : RtmpChunkStream :=
  { csid := 6, time := 0, len := UInt32.ofNat data.length, type, data }

/-- A publisher that sends a key frame, and then, to a viewer as well, the metadata and a frame. -/
def watchedBroadcast : List StreamCall × List StreamCall :=
  ([.join 1 true, .send 1 (mediaMessage 9 [0x17, 1, 0, 0, 0]) {}],
    [.send 1 (mediaMessage 18 []) {}, .send 1 (mediaMessage 9 [0x27, 1, 0, 0, 0]) {}])

/-- The viewer gets the two packets sent since its join, and the key frame with the first one. -/
theorem viewer_receives_each_once_watched :
    ∃ sent got : List MediaPacket,
      ((broadcast { ref := 0, url := ascii "live/1", app := ascii "live", cid := 1 }).run
        (watchedBroadcast.1 ++ .join 2 false :: watchedBroadcast.2)).passedTo 2 = got ∧
      sent.length = 2 ∧ got.length = 3 ∧ sent.Sublist got ∧ got.Nodup := by
  generalize live : ({ ref := 0, url := ascii "live/1", app := ascii "live", cid := 1 } :
    RtmpStream) = st
  have made : RtmpStream.create 0 (ascii "live/1") = .ok st := by
    rw [← live]
    rfl
  have watching : ∀ done ∈ watchedBroadcast.2.inits, ((broadcast st).run
      (watchedBroadcast.1 ++ .join 2 false :: done)).stream.publisher ≠ some 2 := by
    rw [← live]
    decide +kernel
  obtain ⟨sent, got, sentNow, gotNow, exact_sent, once, _⟩ :=
    viewer_receives_each_once made watchedBroadcast.1 watchedBroadcast.2 2
      (by simp [watchedBroadcast])
      fun done inside => watching done ((List.mem_inits done _).mpr inside)
  have before : ((broadcast st).run (watchedBroadcast.1 ++ [.join 2 false])).passedTo 2 = [] := by
    rw [← live]
    decide +kernel
  have counts : ((broadcast st).run (watchedBroadcast.1 ++ [.join 2 false])).sent.length = 1 ∧
      ((broadcast st).run (watchedBroadcast.1 ++ .join 2 false :: watchedBroadcast.2)).sent.length
        = 3 ∧
      (((broadcast st).run (watchedBroadcast.1 ++ .join 2 false :: watchedBroadcast.2)).passedTo
        2).length = 3 := by
    rw [← live]
    decide +kernel
  obtain ⟨older, all, passed⟩ := counts
  rw [before, List.nil_append] at gotNow
  rw [sentNow, List.length_append, older] at all
  rw [gotNow] at passed
  exact ⟨sent, got, gotNow, by omega, passed, exact_sent ▸ List.filter_sublist, once⟩

end DroneServer
