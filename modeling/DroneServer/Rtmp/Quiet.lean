import DroneServer.Rtmp.Host

/-! # Sending leaves everything else alone

Whatever a handler sends goes through `write_chunk`, which changes the writer's
memory and the list of written buffers of one session. `quiet` blanks these two,
so that two servers that differ by what was sent are equal when quiet.
-/

namespace DroneServer

namespace RtmpSession

def quiet (s : RtmpSession) : RtmpSession := { s with csOut := fun _ => none, written := [] }

theorem writeChunk_quiet {s s' : RtmpSession} {csid : UInt16} {time dtime : UInt32} {typeId : UInt8}
    {streamId : UInt32} {msg : Bytes} {forceF0 : Bool}
    (wrote : s.writeChunk csid time dtime typeId streamId msg forceF0 = .ok s') :
    s'.quiet = s.quiet := by
  obtain ⟨written, _, rest⟩ := bind_ok.mp wrote
  cases rest
  rfl

theorem writeMediaPacket_quiet {s s' : RtmpSession} {pkt : MediaPacket}
    (wrote : s.writeMediaPacket pkt = .ok s') : s'.quiet = s.quiet := by
  unfold writeMediaPacket at wrote
  split at wrote
  · exact writeChunk_quiet wrote
  · cases wrote
    rfl

/-- What the reader remembers of a session, besides the bytes it has not used. -/
structure Decoder where
  headerRead : Bool
  csid : UInt16
  fmt : UInt8
  maxChunkSize : UInt32
  csIn : UInt16 → Option RtmpChunkStream

def decoder (s : RtmpSession) : Decoder :=
  { headerRead := s.headerRead, csid := s.csid, fmt := s.fmt, maxChunkSize := s.maxChunkSize,
    csIn := s.csIn }

/-- The decoder with another memory for the chunk stream it is at. -/
def Decoder.store (d : Decoder) (cs : RtmpChunkStream) : Decoder :=
  { d with csIn := Function.update d.csIn d.csid (some cs) }

/-- The decoder without the memory of a chunk stream. -/
def Decoder.drop (d : Decoder) (csid : UInt16) : Decoder :=
  { d with csIn := Function.update d.csIn csid none }

theorem setCurrent_decoder (s : RtmpSession) (cs : RtmpChunkStream) :
    (s.setCurrent cs).decoder = s.decoder.store cs := rfl

theorem current_decoder {s s' : RtmpSession} (same : s'.decoder = s.decoder) :
    s'.current = s.current := by
  have csIn : s'.csIn = s.csIn := congrArg (·.csIn) same
  have csid : s'.csid = s.csid := congrArg (·.csid) same
  rw [current, current, csIn, csid]

theorem current_present {s : RtmpSession} (ready : s.current.ready) : (s.csIn s.csid).isSome := by
  cases found : s.csIn s.csid with
  | some cs => rfl
  | none =>
      rw [current, found] at ready
      cases ready

theorem acknowledge_ok {s s' : RtmpSession} (done : s.acknowledge = .ok s') :
    s'.decoder = s.decoder ∧ s'.state = s.state ∧ s'.url = s.url ∧ s'.app = s.app ∧
      s'.isOpen = s.isOpen := by
  unfold acknowledge at done
  simp only at done
  split at done
  · obtain ⟨s₁, wrote, rest⟩ := bind_ok.mp done
    have same := writeChunk_quiet wrote
    have decoder := congrArg decoder same
    have state := congrArg state same
    have url := congrArg url same
    have app := congrArg app same
    have isOpen := congrArg isOpen same
    cases rest
    exact ⟨decoder, state, url, app, isOpen⟩
  · cases done
    exact ⟨rfl, rfl, rfl, rfl, rfl⟩

theorem clearCurrent_ok {s s' : RtmpSession} (done : s.clearCurrent = .ok s') :
    ∃ cs, s.csIn s.csid = some cs ∧ s' = s.setCurrent cs.clear := by
  unfold clearCurrent at done
  split at done
  · next cs present =>
      cases done
      exact ⟨cs, present, rfl⟩
  · cases done

theorem controlBody_ok {s s' : RtmpSession} (done : s.controlBody = .ok s') :
    (s.current.type = 1 ∧ ∃ maxChunkSize, wordAt s.current.data 0 = .ok maxChunkSize ∧
        s' = { s with maxChunkSize }) ∨
      (s.current.type = 2 ∧ ∃ csid, wordAt s.current.data 0 = .ok csid ∧
        s' = { s with csIn := Function.update s.csIn csid.toUInt16 none }) ∨
      (s.current.type ≠ 1 ∧ s.current.type ≠ 2 ∧ ∃ windowSize peerBandwidth peerBandwidthType,
        s' = { s with windowSize, peerBandwidth, peerBandwidthType }) := by
  unfold controlBody at done
  simp only at done
  split at done
  · next sized =>
      obtain ⟨n, read, rest⟩ := bind_ok.mp done
      cases rest
      exact .inl ⟨sized, n, read, rfl⟩
  split at done
  · next aborted =>
      obtain ⟨n, read, rest⟩ := bind_ok.mp done
      cases rest
      exact .inr (.inl ⟨aborted, n, read, rfl⟩)
  next not_one not_two =>
  refine .inr (.inr ⟨not_one, not_two, ?_⟩)
  split at done
  · obtain ⟨n, _, rest⟩ := bind_ok.mp done
    cases rest
    exact ⟨_, _, _, rfl⟩
  split at done
  · obtain ⟨_, _, rest⟩ := bind_ok.mp done
    cases rest
    exact ⟨_, _, _, rfl⟩
  split at done
  · obtain ⟨n, _, rest⟩ := bind_ok.mp done
    cases rest
    exact ⟨_, _, _, rfl⟩
  split at done
  · obtain ⟨n, _, rest⟩ := bind_ok.mp done
    split at rest
    · cases rest
      exact ⟨_, _, _, rfl⟩
    · cases rest
  · cases done
    exact ⟨_, _, _, rfl⟩

theorem handleControlMessage_own {s s' : RtmpSession} (done : s.handleControlMessage = .ok s') :
    ∃ csIn maxChunkSize windowSize peerBandwidth peerBandwidthType,
      s' = { s with csIn, maxChunkSize, windowSize, peerBandwidth, peerBandwidthType } := by
  obtain ⟨s₁, body, cleared⟩ := bind_ok.mp done
  obtain ⟨cs, _, rfl⟩ := clearCurrent_ok cleared
  obtain ⟨_, n, _, rfl⟩ | ⟨_, n, _, rfl⟩ | ⟨_, _, _, _, _, rfl⟩ := controlBody_ok body <;>
    exact ⟨_, _, _, _, _, rfl⟩

theorem handleControlMessage_state {s s' : RtmpSession} (done : s.handleControlMessage = .ok s') :
    s'.state = s.state := by
  obtain ⟨_, _, _, _, _, rfl⟩ := handleControlMessage_own done
  rfl

theorem readChunkStream_own {s s' : RtmpSession} {buf rest : Bytes} {ret : Ret}
    (read : s.readChunkStream buf = .ok (ret, s', rest)) :
    ∃ headerRead csid fmt csIn, s' = { s with headerRead, csid, fmt, csIn } := by
  unfold readChunkStream at read
  split at read
  · cases read
    exact ⟨_, _, _, _, rfl⟩
  · obtain ⟨headerRead, csid, fmt, csIn, basic⟩ : ∃ headerRead csid fmt csIn,
        (s.readBasicHeader buf).1 = { s with headerRead, csid, fmt, csIn } := by
      unfold readBasicHeader
      split <;> exact ⟨_, _, _, _, rfl⟩
    generalize s.readBasicHeader buf = begun at basic read
    obtain ⟨s₁, rest₀⟩ := begun
    cases basic
    obtain ⟨⟨ret, cs, rest₁⟩, _, read⟩ := bind_ok.mp read
    simp only at read
    split at read
    · cases read
      exact ⟨_, _, _, _, rfl⟩
    · obtain ⟨⟨ret, cs, rest₂⟩, _, read⟩ := bind_ok.mp read
      cases read
      split <;> exact ⟨_, _, _, _, rfl⟩

theorem readChunkStream_keeps {s s' : RtmpSession} {buf rest : Bytes} {ret : Ret}
    (read : s.readChunkStream buf = .ok (ret, s', rest)) :
    s'.state = s.state ∧ s'.maxChunkSize = s.maxChunkSize := by
  obtain ⟨_, _, _, _, rfl⟩ := readChunkStream_own read
  exact ⟨rfl, rfl⟩

end RtmpSession

namespace Server

def quiet (srv : Server) : Server := { srv with sessions := fun x => (srv.sessions x).quiet }

/-- Several events at once. -/
def emits (srv : Server) (es : List Event) : Server := { srv with log := srv.log ++ es }

theorem emits_nil (srv : Server) : srv.emits [] = srv := by
  simp only [emits, List.append_nil]

theorem emit_eq (srv : Server) (e : Event) : srv.emit e = srv.emits [e] := rfl

theorem emits_emits (srv : Server) (es more : List Event) :
    (srv.emits es).emits more = srv.emits (es ++ more) := by
  simp only [emits, List.append_assoc]

@[simp] theorem set_sessions (srv : Server) (x : SessionId) (s : RtmpSession) :
    (srv.set x s).sessions x = s := by
  simp only [set, Function.update_self]

theorem set_other (srv : Server) {x y : SessionId} (s : RtmpSession) (other : y ≠ x) :
    (srv.set x s).sessions y = srv.sessions y := by
  simp only [set, Function.update_of_ne other]

@[simp] theorem set_self (srv : Server) (x : SessionId) : srv.set x (srv.sessions x) = srv := by
  simp only [set, Function.update_eq_self]

@[simp] theorem set_set (srv : Server) (x : SessionId) (s s' : RtmpSession) :
    (srv.set x s).set x s' = srv.set x s' := by
  simp only [set, Function.update_idem]

theorem quiet_set (srv : Server) (x : SessionId) (s : RtmpSession) :
    (srv.set x s).quiet = srv.quiet.set x s.quiet := by
  simp only [quiet, set]
  congr 1
  funext y
  by_cases same : y = x
  · subst same
    simp only [Function.update_self]
  · simp only [Function.update_of_ne same]

section Same

variable {srv srv' : Server} (same : srv'.quiet = srv.quiet)
include same

theorem quiet_agree {α : Sort _} (look : Server → α) (blind : ∀ srv, look srv.quiet = look srv) :
    look srv' = look srv := by
  rw [← blind srv', same, blind srv]

theorem quiet_session (x : SessionId) : (srv'.sessions x).quiet = (srv.sessions x).quiet :=
  quiet_agree same (fun srv => (srv.sessions x).quiet) fun _ => rfl

theorem quiet_streams : srv'.streams = srv.streams := quiet_agree same streams fun _ => rfl

theorem quiet_log : srv'.log = srv.log := quiet_agree same log fun _ => rfl

theorem quiet_decoder (x : SessionId) : (srv'.sessions x).decoder = (srv.sessions x).decoder :=
  quiet_agree same (fun srv => (srv.sessions x).decoder) fun _ => rfl

theorem quiet_state (x : SessionId) : (srv'.sessions x).state = (srv.sessions x).state :=
  quiet_agree same (fun srv => (srv.sessions x).state) fun _ => rfl

theorem quiet_emits (es : List Event) : (srv'.emits es).quiet = (srv.emits es).quiet :=
  congrArg (fun srv => srv.emits es) same

theorem quiet_setStream (url : Bytes) (st : Option RtmpStream) :
    (srv'.setStream url st).quiet = (srv.setStream url st).quiet :=
  congrArg (fun srv => srv.setStream url st) same

theorem quiet_setState (x : SessionId) (state : SessionState) :
    (srv'.set x { srv'.sessions x with state }).quiet =
      (srv.set x { srv.sessions x with state }).quiet := by
  rw [quiet_set, quiet_set, same]
  exact congrArg (fun s : RtmpSession => srv.quiet.set x { s with state }) (quiet_session same x)

end Same

/-- A function that only sends leaves the server as it was when quiet. -/
theorem within_quiet {srv srv' : Server} {x : SessionId} {f : RtmpSession → Except Fault RtmpSession}
    (sends : ∀ s s', f s = .ok s' → s'.quiet = s.quiet) (done : srv.within x f = .ok srv') :
    srv'.quiet = srv.quiet := by
  obtain ⟨s', ran, rest⟩ := bind_ok.mp done
  cases rest
  rw [quiet_set, sends _ _ ran]
  exact set_self srv.quiet x

theorem within_ok {srv srv' : Server} {x : SessionId} {f : RtmpSession → Except Fault RtmpSession}
    (done : srv.within x f = .ok srv') :
    ∃ s', f (srv.sessions x) = .ok s' ∧ srv' = srv.set x s' := by
  obtain ⟨s', ran, rest⟩ := bind_ok.mp done
  cases rest
  exact ⟨s', ran, rfl⟩

theorem sendOnStatus_quiet {srv srv' : Server} {x : SessionId} {level code desc : String}
    (done : srv.sendOnStatus x level code desc = .ok srv') : srv'.quiet = srv.quiet := by
  obtain ⟨buf, _, wrote⟩ := bind_ok.mp done
  exact within_quiet (fun _ _ => RtmpSession.writeChunk_quiet) wrote

/-- What relaying records. -/
def relayEvents (x : SessionId) (ref : Nat) (writes : List (SessionId × MediaPacket)) : List Event :=
  writes.map fun (peer, pkt) => .relayed x ref peer pkt

theorem relay_quiet {srv srv' : Server} {x : SessionId} {ref : Nat}
    {writes : List (SessionId × MediaPacket)} (done : srv.relay x ref writes = .ok srv') :
    srv'.quiet = (srv.emits (relayEvents x ref writes)).quiet := by
  induction writes generalizing srv with
  | nil =>
      cases done
      rw [relayEvents, List.map_nil, emits_nil]
  | cons w writes ih =>
      obtain ⟨srv₁, first, rest⟩ := bind_ok.mp done
      obtain ⟨srv₂, wrote, noted⟩ := bind_ok.mp first
      cases noted
      have same := within_quiet (fun _ _ => RtmpSession.writeMediaPacket_quiet) wrote
      rw [ih rest, emit_eq, emits_emits]
      exact quiet_emits same _

/-- The media pipe of a stream goes with its publisher. -/
def mediaWithout (srv : Server) (st : RtmpStream) (x : SessionId) : MediaManager :=
  if st.publisher = some x then srv.media.erase st.cid else srv.media

/-- The registered stream `st` without the session: gone when that was its last peer. -/
def left (srv : Server) (url : Bytes) (st : RtmpStream) (x : SessionId) : Server :=
  { srv with
    media := srv.mediaWithout st x
    streams := Function.update srv.streams url
      (if (st.leave x).count = 0 then none else some (st.leave x))
    log := srv.log ++ [.leave x st.ref] }

private theorem eofs_quiet (peers : List (SessionId × Bool)) {srv srv' : Server}
    (done : peers.foldlM (fun srv peer => srv.within peer.1 (·.sendStreamEof mediaStreamId)) srv =
      .ok srv') : srv'.quiet = srv.quiet := by
  induction peers generalizing srv with
  | nil =>
      cases done
      rfl
  | cons peer peers ih =>
      obtain ⟨srv₁, first, rest⟩ := bind_ok.mp done
      exact (ih rest).trans (within_quiet (fun _ _ => RtmpSession.writeChunk_quiet) first)

theorem leaveStream_quiet {srv srv' : Server} {x : SessionId} (done : srv.leaveStream x = .ok srv') :
    (srv.streams (srv.sessions x).url = none ∧ srv' = srv) ∨
      ∃ st, srv.streams (srv.sessions x).url = some st ∧
        srv'.quiet = (srv.left (srv.sessions x).url st x).quiet := by
  unfold leaveStream at done
  simp only at done
  split at done
  · next absent =>
      cases done
      exact .inl ⟨absent, rfl⟩
  · next st found =>
      refine .inr ⟨st, found, ?_⟩
      -- the stream is stored without the session first, and dropped afterwards if it is empty
      have stored : ∀ {srv₁ srv₂ : Server}, srv₁.quiet = srv₂.quiet →
          srv₂ = { (srv.setStream (srv.sessions x).url (some (st.leave x))).emit
              (.leave x st.ref) with media := srv.mediaWithout st x } →
          (if (st.leave x).count = 0 then srv₁.setStream (srv.sessions x).url none else srv₁).quiet =
            (srv.left (srv.sessions x).url st x).quiet := by
        rintro srv₁ srv₂ same rfl
        by_cases last : (st.leave x).count = 0
        · rw [if_pos last, quiet_setStream same, left, if_pos last]
          simp only [setStream, emit, quiet, Function.update_idem]
        · rw [if_neg last, same, left, if_neg last]
          rfl
      split at done
      · next publisher =>
          obtain ⟨srv₁, told, rest⟩ := bind_ok.mp done
          cases rest
          exact stored (eofs_quiet _ told) (by rw [mediaWithout, if_pos publisher]; rfl)
      · next viewer =>
          cases done
          exact stored rfl (by rw [mediaWithout, if_neg viewer]; rfl)

end Server

end DroneServer
