import DroneServer.Rtmp.Act
import DroneServer.Rtmp.Peer
import DroneServer.Rtmp.Steady

/-! # Acknowledgements

A session acknowledges what it has received when that exceeds the window its peer
has set. What it counts is the payload of completed messages, not bytes: headers
and the beginnings of messages do not count, and a window is compared with only
when a message completes, before that message may set another.
-/

namespace DroneServer

open Endian

/-- What a session has received and acknowledged, noted from outside: a tally does not look at the
    counters the session keeps itself. -/
structure Tally where
  /-- Payload bytes of all messages that were completed. -/
  total : Nat := 0
  /-- Those since the last Acknowledgement. -/
  since : Nat := 0
  /-- The window when the last message was completed. -/
  window : UInt32 := 2500000
  /-- All bytes received in the chunk phase. -/
  received : Nat := 0
  /-- Those since the last Acknowledgement. -/
  unacknowledged : Nat := 0
  /-- The buffers of every Acknowledgement, with `total` and `received` at the time. -/
  acks : List (Nat × Nat × List Bytes) := []

namespace Tally

/-- Some bytes arrive. -/
def receive (t : Tally) (n : Nat) : Tally :=
  { t with received := t.received + n, unacknowledged := t.unacknowledged + n }

/-- A message is completed, and these buffers are handed to `async_write` before it is handled. -/
def complete (t : Tally) (size : Nat) (window : UInt32) (sent : List Bytes) : Tally :=
  let t := { t with total := t.total + size, since := t.since + size, window }
  if sent = [] then t
  else { t with
    since := 0
    unacknowledged := 0
    acks := t.acks ++ [(t.total, t.received, sent)] }

/-- Counting a message in `handle`, unless that does not return. -/
def count (t : Tally) (s : RtmpSession) : Tally :=
  match s.acknowledge with
  | .ok s' => t.complete s.current.data.length s.windowSize (s'.written.drop s.written.length)
  | .error _ => t

end Tally

/-- The tallies of all sessions. -/
abbrev Tallies := SessionId → Tally

namespace Host

/-- Bytes count in the chunk phase; a message counts when it is handled. -/
def tally (tallies : Tallies) (host : Host) : Label → Tallies
  | .receive x data =>
      if host.server.crashed = none ∧ (host.server.sessions x).isOpen ∧
          (host.server.sessions x).InChunkPhase then
        Function.update tallies x ((tallies x).receive data.length)
      else tallies
  | .dispatch x _ =>
      if host.server.crashed = none ∧ host.Ready x then
        Function.update tallies x ((tallies x).count (host.server.sessions x))
      else tallies
  | .accept _ | .shake _ _ | .parse _ | .close _ => tallies

end Host

/-- The process and the tallies. -/
def tallying (recordForce : Bool) : Machine (Host × Tallies) Label :=
  (machine recordForce).noting (fun _ => {}) Host.tally

/-- The buffers are an Acknowledgement of so many bytes. -/
def Acknowledges (n : Nat) (buffers : List Bytes) : Prop :=
  ∃ (cs cs' : RtmpChunkStream) (maxChunkSize size : UInt32),
    cs.writeChunk maxChunkSize 0 0 3 0 (toBE32 (UInt32.ofNat n)) true = .ok (cs', buffers, size)

namespace Tally

/-- Not more than the window was completed since the last Acknowledgement, and each carries the
    total of its time. -/
structure KeepsUp (t : Tally) : Prop where
  bound : t.since % 2 ^ 32 ≤ t.window.toNat
  acks : ∀ ack ∈ t.acks, Acknowledges ack.1 ack.2.2

/-- The counters of the session agree with the tally. -/
structure Counts (t : Tally) (s : RtmpSession) : Prop where
  recv : s.ackRecv = UInt32.ofNat t.since
  total : s.ackRecvTotal = UInt32.ofNat t.total

end Tally

namespace RtmpSession

theorem writeChunk_buffers {s s' : RtmpSession} {typeId : UInt8} {msg : Bytes}
    (wrote : s.sendControl typeId msg = .ok s') :
    ∃ (cs cs' : RtmpChunkStream) (buffers : List Bytes) (size : UInt32),
      cs.writeChunk s.maxChunkSize 0 0 typeId 0 msg true = .ok (cs', buffers, size) ∧
      buffers ≠ [] ∧ s'.written = s.written ++ buffers := by
  obtain ⟨⟨cs', buffers, size⟩, cut, rest⟩ := bind_ok.mp wrote
  cases rest
  refine ⟨_, cs', buffers, size, cut, ?_, rfl⟩
  unfold RtmpChunkStream.writeChunk at cut
  simp only at cut
  split at cut
  · obtain ⟨_, _, done⟩ := bind_ok.mp cut
    cases done
    exact List.cons_ne_nil _ _
  · cases cut
    exact List.cons_ne_nil _ _

/-- Counting a message sends an Acknowledgement, or stays within the window. -/
theorem acknowledge_cases {s s' : RtmpSession} (done : s.acknowledge = .ok s') :
    (s.ackRecv + UInt32.ofNat s.current.data.length ≤ s.windowSize ∧
      s' = { s with
        ackRecv := s.ackRecv + UInt32.ofNat s.current.data.length
        ackRecvTotal := s.ackRecvTotal + UInt32.ofNat s.current.data.length }) ∨
    (s'.ackRecv = 0 ∧ s'.ackRecvTotal = s.ackRecvTotal + UInt32.ofNat s.current.data.length ∧
      ∃ (cs cs' : RtmpChunkStream) (buffers : List Bytes) (size : UInt32),
        cs.writeChunk s.maxChunkSize 0 0 3 0
          (toBE32 (s.ackRecvTotal + UInt32.ofNat s.current.data.length)) true =
            .ok (cs', buffers, size) ∧
        buffers ≠ [] ∧ s'.written = s.written ++ buffers) := by
  unfold acknowledge at done
  simp only at done
  split at done
  · obtain ⟨s₁, wrote, rest⟩ := bind_ok.mp done
    have total := (writeChunk_steady wrote).ackRecvTotal
    have sent := writeChunk_buffers wrote
    cases rest
    exact .inr ⟨rfl, total, sent⟩
  · next within =>
      cases done
      exact .inl ⟨UInt32.not_lt.mp within, rfl⟩

end RtmpSession

namespace Tally

/-- Counting keeps the tally in step with the session, and the window. -/
theorem Counts.count {t : Tally} {s s' : RtmpSession} (counts : t.Counts s) (keeps : t.KeepsUp)
    (done : s.acknowledge = .ok s') : (t.count s).Counts s' ∧ (t.count s).KeepsUp := by
  have recv : s.ackRecv + UInt32.ofNat s.current.data.length =
      UInt32.ofNat (t.since + s.current.data.length) := by
    rw [counts.recv, UInt32.ofNat_add]
  have total : s.ackRecvTotal + UInt32.ofNat s.current.data.length =
      UInt32.ofNat (t.total + s.current.data.length) := by
    rw [counts.total, UInt32.ofNat_add]
  simp only [Tally.count, done]
  obtain ⟨within, rfl⟩ | ⟨none, all, cs, cs', buffers, size, cut, filled, written⟩ :=
    RtmpSession.acknowledge_cases done
  · rw [List.drop_length, complete, if_pos rfl]
    refine ⟨⟨recv, total⟩, ?_, keeps.acks⟩
    rw [recv, UInt32.le_iff_toNat_le, UInt32.toNat_ofNat'] at within
    exact within
  · rw [written, List.drop_left, complete, if_neg filled]
    refine ⟨⟨none, all.trans total⟩, Nat.zero_le _, fun ack inside => ?_⟩
    obtain inside | inside := List.mem_append.mp inside
    · exact keeps.acks ack inside
    · cases List.mem_singleton.mp inside
      rw [total] at cut
      exact ⟨cs, cs', s.maxChunkSize, size, cut⟩

theorem Counts.congr {t : Tally} {s s' : RtmpSession} (counts : t.Counts s)
    (recv : s'.ackRecv = s.ackRecv) (total : s'.ackRecvTotal = s.ackRecvTotal) : t.Counts s' :=
  ⟨recv.trans counts.recv, total.trans counts.total⟩

end Tally

namespace Server

theorem close_counts (srv : Server) (x : SessionId) {t : Tally} (counts : t.Counts (srv.sessions x)) :
    t.Counts ((srv.close x).sessions x) := by
  have steady := (steady_frame x).close srv x
  rw [set_sessions] at steady
  exact counts.congr steady.ackRecv steady.ackRecvTotal

theorem dispatch_counts {env : Env} {srv : Server} {x : SessionId} {t : Tally}
    (counts : t.Counts (srv.sessions x)) (keeps : t.KeepsUp) :
    (t.count (srv.sessions x)).Counts ((srv.dispatch env x).2.sessions x) ∧
      (t.count (srv.sessions x)).KeepsUp := by
  unfold dispatch
  split
  · next f failed =>
      have silent : (srv.sessions x).acknowledge = .error f := by
        cases counted : (srv.sessions x).acknowledge with
        | error f' =>
            simp only [within, counted] at failed
            cases failed
            rfl
        | ok s =>
            simp only [within, counted] at failed
            cases failed
      simp only [Tally.count, silent]
      exact ⟨counts, keeps⟩
  · next srv₁ counted =>
      obtain ⟨s, counting, rfl⟩ := within_ok counted
      obtain ⟨after, keeps⟩ := counts.count keeps counting
      refine ⟨?_, keeps⟩
      have stored : (t.count (srv.sessions x)).Counts ((srv.set x s).sessions x) := by
        rwa [set_sessions]
      simp only
      split
      · exact stored
      · next ret srv₂ handled =>
          have steady := (steady_frame x).handleChunkStream handled x
          have handled := stored.congr steady.ackRecv steady.ackRecvTotal
          split
          · exact close_counts (srv₂.emit (.result x ret)) x handled
          · exact handled

end Server

namespace Host

variable {host : Host} {t : Tally}

theorem step_counts {l : Label} {x : SessionId} (other : ∀ env, l ≠ .dispatch x env)
    (counts : t.Counts (host.server.sessions x)) :
    t.Counts ((host.step l).server.sessions x) := by
  by_cases own : x = l.session
  · have set : ∀ {s : RtmpSession}, t.Counts s → t.Counts ((host.server.set x s).sessions x) := by
      intro s stored
      rwa [Server.set_sessions]
    unfold step
    split
    · cases l with
      | accept y =>
          obtain rfl : x = y := own
          simp only [perform]
          split
          · exact set (counts.congr rfl rfl)
          · exact counts
      | receive y data =>
          simp only [perform]
          split <;> exact counts
      | shake y env =>
          obtain rfl : x = y := own
          simp only [perform]
          split
          · have shaken : t.Counts
                ((host.server.shake env x (host.recvBuf x)).2.1.sessions x) := by
              unfold Server.shake
              simp only
              split <;> split <;> exact set (counts.congr rfl rfl)
            split
            · exact Server.close_counts _ x shaken
            · exact shaken
          · exact counts
      | parse y =>
          obtain rfl : x = y := own
          simp only [perform]
          split
          · have parsed : t.Counts ((host.server.parse x (host.recvBuf x)).2.1.sessions x) := by
              unfold Server.parse
              split
              · exact counts
              · next read =>
                  have steady := RtmpSession.readChunkStream_steady read
                  exact set (counts.congr steady.ackRecv steady.ackRecvTotal)
            split
            · exact Server.close_counts _ x parsed
            · exact parsed
          · exact counts
      | dispatch y env =>
          obtain rfl : x = y := own
          exact absurd rfl (other env)
      | close y =>
          obtain rfl : x = y := own
          exact Server.close_counts _ x counts
    · exact counts
  · have same := Server.Acts.other own (host.step_acts_close l)
    have recv := congrArg RtmpSession.ackRecv same
    have total := congrArg RtmpSession.ackRecvTotal same
    exact counts.congr recv total

/-- The tallies agree with all sessions, and keep up. -/
def Tallied (state : Host × Tallies) : Prop :=
  ∀ x, (state.2 x).Counts (state.1.server.sessions x) ∧ (state.2 x).KeepsUp

theorem step_tallied {tallies : Tallies} (tallied : Tallied (host, tallies)) (l : Label) :
    Tallied (host.step l, host.tally tallies l) := by
  intro x
  obtain ⟨counts, keeps⟩ := tallied x
  cases l with
  | accept | shake | parse | close => exact ⟨step_counts (by simp) counts, keeps⟩
  | receive y data =>
      have after := step_counts (l := .receive y data) (by simp) counts
      simp only [tally]
      split
      · by_cases own : x = y
        · subst own
          rw [Function.update_self]
          exact ⟨⟨after.recv, after.total⟩, ⟨keeps.bound, keeps.acks⟩⟩
        · rw [Function.update_of_ne own]
          exact ⟨after, keeps⟩
      · exact ⟨after, keeps⟩
  | dispatch y env =>
      by_cases own : x = y
      · subst own
        by_cases enabled : host.server.crashed = none ∧ host.Ready x
        · simp only [tally, if_pos enabled, Function.update_self, step, if_pos enabled.1, perform,
            if_pos enabled.2]
          exact Server.dispatch_counts counts keeps
        · have idle : host.step (.dispatch x env) = host := by
            unfold step
            split
            · next running => exact if_neg fun ready => enabled ⟨running, ready⟩
            · rfl
          simp only [tally, if_neg enabled, idle]
          exact ⟨counts, keeps⟩
      · have after := step_counts (l := .dispatch y env) (by simp [Ne.symm own]) counts
        simp only [tally]
        split
        · rw [Function.update_of_ne own]
          exact ⟨after, keeps⟩
        · exact ⟨after, keeps⟩

end Host

/-- In every state of every run, whatever chunks the messages come in and whatever windows the peers
    set: the payload of the messages a session has completed since its last Acknowledgement is, as a
    32-bit number, within the window it had when the last of them was completed, and each
    Acknowledgement carries the payload completed by then, as a 32-bit number. -/
theorem acknowledgements_keep_up (recordForce : Bool) (labels : List Label) :
    (tallying recordForce).Always (fun state => ∀ x, (state.2 x).KeepsUp) labels := by
  have start : Host.Tallied (tallying recordForce).start :=
    fun _ => ⟨⟨rfl, rfl⟩, ⟨Nat.zero_le _, fun _ inside => (List.not_mem_nil inside).elim⟩⟩
  intro done _ x
  have tallied : Host.Tallied ((tallying recordForce).run done) :=
    (Machine.Reachable.run _ done).invariant start fun _ l before => Host.step_tallied before l
  exact (tallied x).2

/-- `handle` has returned with everything read. -/
def Host.Idle (host : Host) (x : SessionId) : Prop :=
  (host.server.sessions x).isOpen ∧ (host.server.sessions x).InChunkPhase ∧
    ¬ (host.server.sessions x).current.ready ∧ host.recvBuf x = []

/-- Bytes are what the window and the Acknowledgements are about. -/
structure Tally.KeepsUpBytes (t : Tally) (windowSize : UInt32) : Prop where
  bound : t.unacknowledged ≤ windowSize.toNat
  acks : ∀ ack ∈ t.acks, Acknowledges ack.2.1 ack.2.2

/-- A peer that sets a window of 10 bytes and then again, by messages of 16 bytes of which 4 are
    payload. -/
def smallWindow : List Label :=
  Peer.greet 1 ++ Peer.deliver 1 (Peer.message 2 5 0 (toBE32 10)) ++
    Peer.deliver 1 (Peer.message 2 5 0 (toBE32 10))

/-- Nothing is acknowledged of them: the first message sets the window after it was counted, and
    with the second 8 of the 32 bytes count, since the others are headers. -/
theorem acknowledgements_lag :
    (¬ ∀ (recordForce : Bool) (labels : List Label),
      (tallying recordForce).Always
        (fun state => ∀ x, state.1.Idle x →
          (state.2 x).KeepsUpBytes (state.1.server.sessions x).windowSize) labels) ∧
    (((tallying false).run smallWindow).2 1).window = 10 ∧
      (((tallying false).run smallWindow).2 1).since = 8 ∧
      (((tallying false).run smallWindow).2 1).unacknowledged = 32 := by
  refine ⟨fun keeps => ?_, by decide +kernel⟩
  have idle : ((tallying false).run smallWindow).1.Idle 1 := by
    unfold Host.Idle
    decide +kernel
  have bound := (keeps false smallWindow smallWindow (List.prefix_refl _) 1 idle).bound
  revert bound
  decide +kernel

end DroneServer
