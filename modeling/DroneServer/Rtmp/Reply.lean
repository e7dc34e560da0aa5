import DroneServer.Rtmp.Peer
import DroneServer.Rtmp.Relay
import DroneServer.Rtmp.Shake
import DroneServer.Rtmp.Steady

/-! # A reply that cannot be built

Building S0S1S2 takes random bytes and, in the handshake with digests, three HMACs,
and `send_s0s1s2` says so if one of them fails. `handle` does not listen: the session
goes on to wait for C2, and from there to all the rest, without having sent anything.
-/

namespace DroneServer

open RtmpHandshake

theorem Server.close_state (srv : Server) (x : SessionId) :
    ((srv.close x).sessions x).state = (srv.sessions x).state ∨
      ((srv.close x).sessions x).state = .close := by
  unfold close
  split
  · simp only
    split
    · next closed =>
        obtain ⟨_, _, rest⟩ := bind_ok.mp closed
        cases rest
        rw [set_sessions]
        exact .inr rfl
    · exact .inl (by simp only [crash, set_sessions])
  · exact .inl rfl

namespace Host

/-- `handle_c0c1` accepts what session `x` has received, and leaves `hs` to answer it. -/
def Takes (host : Host) (x : SessionId) (env : Env) (hs : RtmpHandshake) : Prop :=
  host.server.crashed = none ∧ (host.server.sessions x).isOpen ∧
    (host.server.sessions x).state = .init ∧
    ∃ rest, (host.server.sessions x).hs.handleC0C1 env (host.recvBuf x) = (.ok, hs, rest)

/-- A step that accepts a C0C1 gets all it asks the crypto library for. -/
def Answers (host : Host) : Label → Prop
  | .shake x env => ∀ hs, host.Takes x env hs → Answered env hs
  | _ => True

/-- Every session past `INIT` that is not closed has been handed a whole S0S1S2. -/
def Replied (host : Host) : Prop :=
  ∀ x, (host.server.sessions x).state ≠ .init → (host.server.sessions x).state ≠ .close →
    ∃ reply ∈ (host.server.sessions x).written, Complete reply

/-- A reply that cannot be sent makes `handle` return a negative value, and the session is closed. -/
def Stops (host : Host) : Label → Prop
  | .shake x env => ∀ hs, host.Takes x env hs → (hs.sendS0S1S2 env).1 = .fail →
      (host.handle env x).1 = .fail ∧
        ((host.step (.shake x env)).server.sessions x).isOpen = false
  | _ => True

section Takes

variable {host : Host} {x : SessionId} {env : Env} {hs : RtmpHandshake}

theorem Takes.echoed (takes : host.Takes x env hs) : hs.m.length = c1Size := by
  obtain ⟨_, _, _, rest, read⟩ := takes
  obtain ⟨_, waits⟩ | ⟨_, _, _, _, refused⟩ | ⟨_, _, _, echoed, taken⟩ :=
    handleC0C1_cases env (host.server.sessions x).hs (host.recvBuf x)
  · cases read.symm.trans waits
  · cases read.symm.trans refused
  · cases read.symm.trans taken
    exact echoed

theorem Takes.shake (takes : host.Takes x env hs) :
    ∃ rest, host.server.shake env x (host.recvBuf x) =
      (.ok, host.server.set x { host.server.sessions x with
        hs := (hs.sendS0S1S2 env).2.1
        state := .handshakeC2
        written := (host.server.sessions x).written ++ (hs.sendS0S1S2 env).2.2.toList }, rest) := by
  obtain ⟨_, _, init, rest, read⟩ := takes
  refine ⟨rest, ?_⟩
  simp only [Server.shake, init, if_true, read, ne_eq, not_true_eq_false, if_false]

theorem Takes.handle (takes : host.Takes x env hs) : (host.handle env x).1 = .ok := by
  obtain ⟨rest, shaken⟩ := takes.shake
  simp only [Host.handle, takes.2.2.1, true_or, if_true, shaken]

end Takes

/-- A step stops where the reply fails exactly when there is nothing to stop for. -/
theorem stops_iff (host : Host) (l : Label) : host.Stops l ↔ host.Answers l := by
  cases l with
  | shake x env =>
      refine forall_congr' fun hs => forall_congr' fun takes => ?_
      obtain ⟨answered, hs', reply, sent, _⟩ | ⟨silent, hs', failed⟩ :=
        sendS0S1S2_cases env takes.echoed
      · refine ⟨fun _ => answered, fun _ fails => ?_⟩
        rw [sent] at fails
        cases fails
      · refine ⟨fun stops => ?_, fun answered => absurd answered silent⟩
        obtain ⟨negative, _⟩ := stops (by rw [failed])
        cases takes.handle.symm.trans negative
  | accept | receive | parse | dispatch | close => exact Iff.rfl

theorem close_leaves {srv : Server} {x : SessionId} (init : (srv.sessions x).state = .init)
    (left : ((srv.close x).sessions x).state ≠ .init) :
    ((srv.close x).sessions x).state = .close := by
  obtain same | closed := srv.close_state x
  · exact absurd (same.trans init) left
  · exact closed

theorem shake_leaves {host : Host} {x : SessionId} {env : Env}
    (running : host.server.crashed = none) (init : (host.server.sessions x).state = .init)
    (answers : host.Answers (.shake x env))
    (left : ((host.perform (.shake x env)).server.sessions x).state ≠ .init) :
    ((host.perform (.shake x env)).server.sessions x).state = .close ∨
      ∃ reply ∈ ((host.perform (.shake x env)).server.sessions x).written, Complete reply := by
  simp only [perform] at left ⊢
  split at left
  · next enabled =>
      rw [if_pos enabled]
      obtain ⟨_, read⟩ | ⟨_, _, hs, rest, read⟩ | ⟨_, _, hs, _, read⟩ :=
        handleC0C1_cases env (host.server.sessions x).hs (host.recvBuf x)
      · have shaken : host.server.shake env x (host.recvBuf x) =
            (.more, host.server.set x (host.server.sessions x), host.recvBuf x) := by
          simp only [Server.shake, if_pos init, read, ne_eq, reduceCtorEq, not_false_eq_true,
            if_true]
        rw [Server.set_self] at shaken
        rw [shaken] at left
        exact absurd init left
      · have shaken : host.server.shake env x (host.recvBuf x) =
            (.fail, host.server.set x { host.server.sessions x with hs }, rest) := by
          simp only [Server.shake, if_pos init, read, ne_eq, reduceCtorEq, not_false_eq_true,
            if_true]
        have before : ((host.server.set x { host.server.sessions x with hs }).sessions x).state =
            .init := (congrArg RtmpSession.state (Server.set_sessions ..)).trans init
        rw [shaken] at left ⊢
        exact .inl (close_leaves before left)
      · have takes : host.Takes x env hs := ⟨running, enabled.1, init, _, read⟩
        obtain ⟨rest, shaken⟩ := takes.shake
        obtain ⟨_, hs', reply, sent, complete⟩ | ⟨silent, _⟩ := sendS0S1S2_cases env takes.echoed
        · rw [shaken, sent]
          refine .inr ⟨reply, ?_, complete⟩
          simp only [put, Server.set_sessions, Option.toList_some, reduceCtorEq, if_false]
          exact List.mem_append_right _ (List.mem_singleton_self reply)
        · exact absurd (answers hs takes) silent
  · exact absurd init left

/-- A session leaves `INIT` by a step that replies, or by being closed. -/
theorem step_leaves (host : Host) (l : Label) {x : SessionId}
    (init : (host.server.sessions x).state = .init) (answers : host.Answers l)
    (left : ((host.step l).server.sessions x).state ≠ .init) :
    ((host.step l).server.sessions x).state = .close ∨
      ∃ reply ∈ ((host.step l).server.sessions x).written, Complete reply := by
  by_cases own : x = l.session
  · by_cases running : host.server.crashed = none
    · have early : ¬ (host.server.sessions x).InChunkPhase := fun phase => phase.1 init
      rw [step, if_pos running] at left ⊢
      cases l with
      | shake y env =>
          obtain rfl : x = y := own
          exact shake_leaves running init answers left
      | close y =>
          obtain rfl : x = y := own
          exact .inl (close_leaves init left)
      | accept y =>
          obtain rfl : x = y := own
          refine absurd ?_ left
          simp only [perform]
          split
          · exact (congrArg RtmpSession.state (Server.set_sessions ..)).trans init
          · exact init
      | receive y data =>
          refine absurd ?_ left
          simp only [perform]
          split <;> exact init
      | parse y =>
          obtain rfl : x = y := own
          have idle : ¬ host.Parsing x := fun parsing => early parsing.2.1
          rw [perform, if_neg idle] at left
          exact absurd init left
      | dispatch y env =>
          obtain rfl : x = y := own
          have idle : ¬ host.Ready x := fun ready => early ready.2.1
          rw [perform, if_neg idle] at left
          exact absurd init left
    · rw [step, if_neg running] at left
      exact absurd init left
  · have same := congrArg RtmpSession.state (Server.Acts.other own (host.step_acts_close l))
    exact absurd (same.trans init) left

theorem step_replied {host : Host} {l : Label} (replied : host.Replied) (answers : host.Answers l) :
    (host.step l).Replied := by
  intro x past opened
  by_cases init : (host.server.sessions x).state = .init
  · obtain closed | sent := host.step_leaves l init answers past
    · exact absurd closed opened
    · exact sent
  · by_cases closed : (host.server.sessions x).state = .close
    · have forward := (host.step_acts_close l).forward x
      rw [closed] at forward
      exact absurd (SessionState.rank_close forward) opened
    · obtain ⟨reply, sent, complete⟩ := replied x init closed
      exact ⟨reply, (host.step_written l x).subset sent, complete⟩

end Host

/-- For every run: no session gets past the handshake without having been sent the whole reply, and
    a reply that cannot be sent closes its session, exactly if the crypto library answers whenever
    a C0C1 is accepted. -/
theorem reply_closes_iff (recordForce : Bool) (labels : List Label) :
    ((machine recordForce).Always Host.Replied labels ∧
        (machine recordForce).Steps Host.Stops labels) ↔
      (machine recordForce).Steps Host.Answers labels := by
  have same : (machine recordForce).Steps Host.Stops labels ↔
      (machine recordForce).Steps Host.Answers labels :=
    forall_congr' fun done => forall_congr' fun l => forall_congr' fun _ =>
      Host.stops_iff ((machine recordForce).run done) l
  refine ⟨fun both => same.mp both.2, fun answers => ⟨?_, same.mpr answers⟩⟩
  have start : (machine recordForce).start.Replied := fun x past => absurd rfl past
  exact answers.always start fun _ _ _ replied => Host.step_replied replied

/-- `RAND_bytes` fails, and yet the session is waiting for a `connect`, with nothing sent. -/
theorem reply_not_closes : ¬ ∀ (recordForce : Bool) (labels : List Label),
    (machine recordForce).Always Host.Replied labels ∧
      (machine recordForce).Steps Host.Stops labels := by
  intro closes
  have replied := (closes false (Peer.greet 1)).1 (Peer.greet 1) (List.prefix_refl _) 1
    (by decide +kernel) (by decide +kernel)
  have silent : (((machine false).run (Peer.greet 1)).server.sessions 1).written = [] := by
    decide +kernel
  rw [silent] at replied
  obtain ⟨_, inside, _⟩ := replied
  cases inside

end DroneServer
