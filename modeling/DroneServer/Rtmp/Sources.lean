import DroneServer.Rtmp.Outcome

/-! # Where packets come from

A stream takes a packet in only while the message it is made of is handled: in the
log the two stand next to each other, and the packet has the type, the stream id,
the time and the payload of the message.
-/

namespace DroneServer

/-- The event is the call for the message of `x` that the packet is made of. -/
def Event.Carries (x : SessionId) (pkt : MediaPacket) : Event → Prop
  | .call z _ type _ streamId time payload => z = x ∧ pkt.rtmpType = type ∧
      pkt.streamId = streamId ∧ pkt.dts = time.toNat ∧ pkt.data = payload
  | _ => False

/-- Every packet was taken in when the message it is made of was handled. -/
def Sourced (log : List Event) : Prop :=
  ∀ x ref pkt, .cached x ref pkt ∈ log → ∃ e, e.Carries x pkt ∧ [e, .cached x ref pkt] <:+: log

theorem Sourced.append {log es : List Event} (sourced : Sourced log)
    (new : ∀ x ref pkt, .cached x ref pkt ∈ es → ∃ e, e.Carries x pkt ∧
      [e, .cached x ref pkt] <:+: log ++ es) : Sourced (log ++ es) := by
  intro x ref pkt inside
  rcases List.mem_append.mp inside with old | inside
  · obtain ⟨e, carries, within⟩ := sourced x ref pkt old
    exact ⟨e, carries, within.trans (List.prefix_append log es).isInfix⟩
  · exact new x ref pkt inside

theorem RtmpStream.chunkStreamToMediaPkt_message {st : RtmpStream} {ptr : Nat}
    {cs : RtmpChunkStream} {pkt : MediaPacket} (done : st.chunkStreamToMediaPkt ptr cs = .ok pkt) :
    pkt.rtmpType = cs.type ∧ pkt.streamId = cs.streamId ∧ pkt.dts = cs.time.toNat := by
  unfold chunkStreamToMediaPkt at done
  obtain ⟨cid, _, done⟩ := bind_ok.mp done
  simp only at done
  split at done
  · obtain ⟨_, _, done⟩ := bind_ok.mp done
    obtain ⟨_, _, done⟩ := bind_ok.mp done
    obtain ⟨_, _, done⟩ := bind_ok.mp done
    obtain ⟨_, _, done⟩ := bind_ok.mp done
    obtain ⟨_, _, done⟩ := bind_ok.mp done
    cases done
    exact ⟨rfl, rfl, rfl⟩
  split at done
  · obtain ⟨_, _, done⟩ := bind_ok.mp done
    split at done
    · obtain ⟨_, _, done⟩ := bind_ok.mp done
      cases done
      exact ⟨rfl, rfl, rfl⟩
    · cases done
      exact ⟨rfl, rfl, rfl⟩
  split at done <;> cases done <;> exact ⟨rfl, rfl, rfl⟩

namespace Server

variable {srv srv₁ srv' : Server} {x : SessionId}

/-- From one server to the other nothing was taken in. -/
def Untaken (srv srv' : Server) : Prop :=
  ∃ es, srv'.log = srv.log ++ es ∧ ∀ y ref pkt, Event.cached y ref pkt ∉ es

theorem Untaken.same (log : srv'.log = srv.log) : srv.Untaken srv' :=
  ⟨[], by rw [log, List.append_nil], fun _ _ _ => List.not_mem_nil⟩

theorem Untaken.noted (es : List Event) (log : srv'.log = srv.log ++ es)
    (other : ∀ y ref pkt, Event.cached y ref pkt ∉ es) : srv.Untaken srv' := ⟨es, log, other⟩

theorem Untaken.sourced (untaken : srv.Untaken srv') (sourced : Sourced srv.log) :
    Sourced srv'.log := by
  obtain ⟨es, log, none⟩ := untaken
  rw [log]
  exact sourced.append fun x ref pkt inside => absurd inside (none x ref pkt)

theorem close_untaken (srv : Server) (x : SessionId) : srv.Untaken (srv.close x) := by
  unfold close
  split
  · simp only
    split
    · next closed =>
        obtain ⟨srv₁, leaving, closed⟩ := bind_ok.mp closed
        cases closed
        obtain ⟨_, rfl⟩ | ⟨st, _, same⟩ := leaveStream_quiet leaving
        · exact .same rfl
        · exact .noted _ (quiet_log same) (by simp)
    · exact .same rfl
  · exact .same rfl

theorem joined_untaken {url : Bytes} {st : RtmpStream}
    (found : srv.findStream url = .ok (st, srv₁)) (publisher : Bool) :
    srv.Untaken (srv₁.joined x url st publisher) := by
  have log : srv₁.log = srv.log := by
    obtain ⟨_, rfl⟩ | ⟨_, _, _, _, _, _, _, _, _, log⟩ := findStream_ok found
    · rfl
    · exact log
  refine .noted [.join x st.ref publisher (st.join x publisher).1,
    if publisher then .published x else .played x] ?_ ?_
  · rw [← log]
    rfl
  · cases publisher <;> simp

theorem Ran.untaken {c : Command} (ran : srv.Ran x c srv') : srv.Untaken srv' := by
  cases ran with
  | connected | created => exact .noted _ rfl (by simp)
  | released | renamed | ignored => exact .same rfl
  | unpublished => exact .noted _ rfl (by simp)
  | published _ _ _ _ found => exact (joined_untaken found true : _)
  | played _ _ _ found => exact (joined_untaken found false : _)

/-- A handler takes nothing in, or the packet of the message it is called for. -/
theorem Outcome.takes {ret : Ret} (outcome : srv.Outcome x ret srv') :
    srv.Untaken srv' ∨ ∃ ref pkt writes, (srv.calling x).Carries x pkt ∧
      srv'.log = srv.log ++ .cached x ref pkt :: relayEvents x ref writes := by
  cases outcome with
  | control control done =>
      refine .inl (.noted _ rfl fun y ref pkt => ?_)
      split <;> simp
  | @relayed cs st st' media pkt writes present found phase accepted =>
      obtain ⟨_, _, made, _, _⟩ := RtmpStream.send_ok accepted
      obtain ⟨type, streamId, dts⟩ := RtmpStream.chunkStreamToMediaPkt_message made
      obtain ⟨_, _, _, data⟩ := RtmpStream.chunkStreamToMediaPkt_ok made
      exact .inr ⟨st.ref, pkt, writes, ⟨rfl, type, streamId, dts, data⟩, rfl⟩
  | unheard | unrouted | refused => exact .inl (.same rfl)
  | command present carries ran => exact .inl ran.untaken

theorem dispatch_sourced (env : Env) (x : SessionId) (sourced : Sourced srv.log) :
    Sourced (srv.dispatch env x).2.log := by
  obtain ⟨f, srv₁, done, begun⟩ | ⟨ret, srv₁, srv₂, srv₃, counted, outcome, _, same, done⟩ :=
    dispatch_outcome env srv x <;> rw [done]
  · obtain rfl | ⟨_, _, same⟩ := begun
    · exact sourced
    · exact Untaken.sourced (.noted _ (quiet_log same) (by simp [calling])) sourced
  · have counting : srv₁.log = srv.log ++ [srv.calling x] := by
      obtain ⟨_, _, same⟩ := counted
      exact quiet_log same
    have called : srv₁.calling x = srv.calling x := by
      have csid : (srv₁.sessions x).csid = (srv.sessions x).csid :=
        congrArg (·.csid) counted.decoder
      simp only [calling, csid, RtmpSession.current_decoder counted.decoder]
    have handled : Sourced srv₃.log := by
      rw [quiet_log same]
      refine Sourced.append ?_ (by simp)
      obtain ⟨es, log, none⟩ | ⟨ref, pkt, writes, carries, log⟩ := outcome.takes
      · rw [log, counting, List.append_assoc]
        exact sourced.append fun y r p inside => absurd inside (by simp [calling, none y r p])
      · rw [called] at carries
        rw [log, counting, List.append_assoc]
        refine sourced.append fun y r p inside => ?_
        have here : Event.cached y r p = .cached x ref pkt := by
          simpa [calling, relayEvents] using inside
        cases here
        exact ⟨_, carries, srv.log, relayEvents x ref writes, by simp⟩
    simp only
    split
    · exact (close_untaken srv₃ x).sourced handled
    · exact handled

theorem shake_untaken (env : Env) (srv : Server) (x : SessionId) (buf : Bytes) :
    srv.Untaken (srv.shake env x buf).2.1 := by
  unfold shake
  simp only
  split
  · split <;> exact .same rfl
  · split
    · exact .same rfl
    · exact .noted [.handshakeDone x] rfl (by simp)

theorem parse_log (srv : Server) (x : SessionId) (buf : Bytes) :
    (srv.parse x buf).2.1.log = srv.log := by
  unfold parse
  split <;> rfl

end Server

theorem Host.sourced {recordForce : Bool} {host : Host}
    (reached : (machine recordForce).Reachable host) : Sourced host.server.log := by
  refine reached.invariant (P := fun host => Sourced host.server.log)
    (fun _ _ _ inside => absurd inside List.not_mem_nil) fun host l sourced => ?_
  change Sourced (Host.step host l).server.log
  unfold step
  split
  swap
  · exact sourced
  cases l with
  | accept x =>
      simp only [perform]
      split <;> exact sourced
  | receive x data =>
      simp only [perform]
      split <;> exact sourced
  | shake x env =>
      simp only [perform]
      split
      · have shaken := (Server.shake_untaken env host.server x (host.recvBuf x)).sourced sourced
        split
        · exact (Server.close_untaken _ x).sourced shaken
        · exact shaken
      · exact sourced
  | parse x =>
      simp only [perform]
      split
      · have parsed : Sourced (host.server.parse x (host.recvBuf x)).2.1.log := by
          rwa [Server.parse_log]
        split
        · exact (Server.close_untaken _ x).sourced parsed
        · exact parsed
      · exact sourced
  | dispatch x env =>
      simp only [perform]
      split
      · exact Server.dispatch_sourced env x sourced
      · exact sourced
  | close x => exact (Server.close_untaken _ x).sourced sourced

end DroneServer
