import DroneServer.Rtmp.Act
import DroneServer.Rtmp.View

/-! # What handling a message comes to

`Act` says what any step may do; here is what each command and each kind of
message does, when it returns. The new state is given up to what was sent, so one
line names all that changes: the session's fields, the registry, the media pipes
and the log.
-/

namespace DroneServer

namespace RtmpChunkStream

theorem writeRest_ok {maxChunkSize : UInt32} (room : maxChunkSize ≠ 0) (bh : UInt8) (fuel : Nat)
    (msg : Bytes) (enough : msg.length ≤ fuel) :
    ∃ rest, writeRest maxChunkSize bh fuel msg = .ok rest := by
  have some : 0 < maxChunkSize.toNat := by
    rw [Nat.pos_iff_ne_zero]
    exact fun none => room (UInt32.toNat_inj.mp none)
  induction fuel generalizing msg with
  | zero =>
      obtain rfl := List.length_eq_zero_iff.mp (Nat.le_zero.mp enough)
      exact ⟨[], rfl⟩
  | succ fuel ih =>
      unfold writeRest
      split
      · exact ⟨[], rfl⟩
      · have shorter : (msg.drop maxChunkSize.toNat).length ≤ fuel := by
          rw [List.length_drop]
          omega
        obtain ⟨rest, cut⟩ := ih (msg.drop maxChunkSize.toNat) shorter
        exact ⟨_, by rw [cut]; rfl⟩

theorem writeRest_stuck (bh : UInt8) (fuel : Nat) {msg : Bytes} (some : msg ≠ []) :
    writeRest 0 bh fuel msg = .error .diverges := by
  have filled := List.isEmpty_eq_false_iff.mpr some
  induction fuel with
  | zero => simp only [writeRest, filled, Bool.false_eq_true, if_false]
  | succ fuel ih =>
      have zero : (0 : UInt32).toNat = 0 := rfl
      simp only [writeRest, filled, Bool.false_eq_true, if_false, zero, List.drop_zero, ih]
      rfl

section WriteChunk

variable (cs : RtmpChunkStream) (time dtime : UInt32) (typeId : UInt8) (streamId : UInt32)
  {msg : Bytes} (forceF0 : Bool)

/-- A message is written if there is room, or nothing to write. -/
theorem writeChunk_ends {maxChunkSize : UInt32} (room : maxChunkSize ≠ 0 ∨ msg = []) :
    ∃ written, cs.writeChunk maxChunkSize time dtime typeId streamId msg forceF0 = .ok written := by
  unfold writeChunk
  simp only
  split
  · next long =>
      have room : maxChunkSize ≠ 0 := by
        refine room.resolve_right ?_
        rintro rfl
        exact absurd long (Nat.not_lt_zero _)
      generalize msg.take (UInt32.ofNat msg.length).toNat = msg
      obtain ⟨rest, cut⟩ := writeRest_ok room (basicHeader 3 _) msg.length
        (msg.drop maxChunkSize.toNat) (by rw [List.length_drop]; omega)
      exact ⟨_, by rw [cut]; rfl⟩
  · exact ⟨_, rfl⟩

/-- Without room no number of rounds of the loop is enough for a message that is not empty. -/
theorem writeChunk_endless (some : msg ≠ []) (short : msg.length < 2 ^ 32) :
    cs.writeChunk 0 time dtime typeId streamId msg forceF0 = .error .diverges := by
  have length : (UInt32.ofNat msg.length).toNat = msg.length := UInt32.toNat_ofNat_of_lt' short
  have long : UInt32.ofNat msg.length > 0 := by
    rw [gt_iff_lt, UInt32.lt_iff_toNat_lt, length]
    exact List.length_pos_iff.mpr some
  have zero : (0 : UInt32).toNat = 0 := rfl
  simp only [writeChunk, length, List.take_length, if_pos long, zero, List.drop_zero,
    writeRest_stuck _ _ some]
  rfl

end WriteChunk

end RtmpChunkStream

namespace RtmpSession

theorem writeChunk_room {s : RtmpSession} (room : s.maxChunkSize ≠ 0) (csid : UInt16)
    (time dtime : UInt32) (typeId : UInt8) (streamId : UInt32) (msg : Bytes) (forceF0 : Bool) :
    ∃ s', s.writeChunk csid time dtime typeId streamId msg forceF0 = .ok s' ∧
      s'.maxChunkSize = s.maxChunkSize := by
  obtain ⟨written, done⟩ := ((s.csOut csid).getD { csid }).writeChunk_ends time dtime typeId streamId
    forceF0 (.inl room)
  have ran : s.writeChunk csid time dtime typeId streamId msg forceF0 = .ok { s with
      csOut := Function.update s.csOut csid (some written.1)
      written := s.written ++ written.2.1 } := by
    rw [writeChunk, done]
    rfl
  exact ⟨_, ran, rfl⟩

theorem writeChunk_stuck {s : RtmpSession} (none : s.maxChunkSize = 0) (csid : UInt16)
    (time dtime : UInt32) (typeId : UInt8) (streamId : UInt32) {msg : Bytes} (forceF0 : Bool)
    (some : msg ≠ []) (short : msg.length < 2 ^ 32) :
    s.writeChunk csid time dtime typeId streamId msg forceF0 = .error .diverges := by
  rw [writeChunk, none, RtmpChunkStream.writeChunk_endless _ _ _ _ _ _ some short]
  rfl

theorem sendStreamBegin_room {s s' : RtmpSession} {streamId : UInt32}
    (done : s.sendStreamBegin streamId = .ok s') : s.maxChunkSize ≠ 0 := by
  intro none
  have short : ([0, 0] ++ Endian.toBE32 streamId).length < 2 ^ 32 := by
    rw [List.length_append, Endian.toBE32_length]
    decide
  have some : [0, 0] ++ Endian.toBE32 streamId ≠ [] := List.cons_ne_nil _ _
  have stuck := writeChunk_stuck none 2 0 0 4 0 true some short
  exact absurd (stuck.symm.trans done) (by intro h; cases h)

theorem acknowledge_quiet {s s' : RtmpSession} (done : s.acknowledge = .ok s') :
    ∃ ackRecv ackRecvTotal, s'.quiet = { s with ackRecv, ackRecvTotal }.quiet := by
  unfold acknowledge at done
  simp only at done
  split at done
  · obtain ⟨s₁, wrote, rest⟩ := bind_ok.mp done
    have same := writeChunk_quiet wrote
    cases rest
    exact ⟨0, _, congrArg (fun s : RtmpSession => { s with ackRecv := 0 }) same⟩
  · cases done
    exact ⟨_, _, rfl⟩

end RtmpSession

namespace Server

variable {srv srv' : Server} {x : SessionId}

theorem quiet_set_congr (same : srv'.quiet = srv.quiet) {s s' : RtmpSession}
    (session : s'.quiet = s.quiet) (x : SessionId) : (srv'.set x s').quiet = (srv.set x s).quiet := by
  rw [quiet_set, quiet_set, same, session]

/-- The stream name of a stream command. -/
def NameArgs (sb : SimpleBuffer) (cid : Bytes) : Prop := ∃ rest, readName sb = .ok (cid, rest)

/-- The stream name and the publishing type of a `publish`. -/
def PublishArgs (sb : SimpleBuffer) (cid app : Bytes) : Prop :=
  ∃ sb' type rest, readName sb = .ok (cid, sb') ∧ Amf0Data.readString sb' = .ok (type, rest) ∧
    app = type.getD []

/-- What a command leaves when it returns. -/
inductive Ran (srv : Server) (x : SessionId) (c : Command) : Server → Prop where
  | connected {app : Bytes} (named : c.name = ascii "connect")
      (phase : (srv.sessions x).state = .connect) (args : ConnectArgs c.args app) :
      Ran srv x c ((srv.set x
        { srv.sessions x with app, maxChunkSize := 4096, state := .createStream }).emits
          [.announce x 4096, .connected x])
  | created (named : c.name = ascii "createStream")
      (phase : (srv.sessions x).state = .createStream) :
      Ran srv x c ((srv.set x { srv.sessions x with state := .publishPlay }).emits
        [.streamCreated x])
  | released {cid : Bytes} (named : c.name = ascii "releaseStream") (args : NameArgs c.args cid) :
      Ran srv x c ((srv.set x
        { srv.sessions x with cid, url := urlOf (srv.sessions x).app cid }).setStream
          (urlOf (srv.sessions x).app cid) none)
  | renamed {cid : Bytes} (named : c.name = ascii "FCPublish") (args : NameArgs c.args cid) :
      Ran srv x c (srv.set x
        { srv.sessions x with cid, url := urlOf (srv.sessions x).app cid })
  | unpublished {st : RtmpStream} (named : c.name = ascii "FCUnpublish")
      (args : NameArgs c.args (srv.sessions x).cid)
      (found : srv.streams (srv.sessions x).url = some st) :
      Ran srv x c (srv.left (srv.sessions x).url st x)
  | published {cid app : Bytes} {st : RtmpStream} {srv₁ : Server} (named : c.name = ascii "publish")
      (phase : (srv.sessions x).state = .publishPlay) (room : (srv.sessions x).maxChunkSize ≠ 0)
      (args : PublishArgs c.args cid app)
      (found : (srv.set x { srv.sessions x with app, cid, url := urlOf app cid }).findStream
        (urlOf app cid) = .ok (st, srv₁)) :
      Ran srv x c (srv₁.joined x (urlOf app cid) st true)
  | played {cid : Bytes} {st : RtmpStream} {srv₁ : Server} (named : c.name = ascii "play")
      (phase : (srv.sessions x).state = .publishPlay) (args : NameArgs c.args cid)
      (found : (srv.set x { srv.sessions x with
          cid, url := urlOf (srv.sessions x).app cid }).findStream
        (urlOf (srv.sessions x).app cid) = .ok (st, srv₁)) :
      Ran srv x c (srv₁.joined x (urlOf (srv.sessions x).app cid) st false)
  | ignored : Ran srv x c srv

theorem commandConnect_ran {sb : SimpleBuffer} (done : srv.commandConnect x sb = .ok srv') :
    ∃ app, ConnectArgs sb app ∧ srv'.quiet = ((srv.set x
      { srv.sessions x with app, maxChunkSize := 4096, state := .createStream }).emits
        [.announce x 4096, .connected x]).quiet := by
  obtain ⟨app, srv₁, srv₂, args, stored, answered, rfl⟩ := commandConnect_ok done
  have announced := answered.trans (quiet_emits stored [.announce x 4096])
  refine ⟨app, args, ?_⟩
  rw [quiet_emits (quiet_setState announced x .createStream)]
  simp only [emits, set, Function.update_self, Function.update_idem, List.append_assoc]
  rfl

theorem commandCreateStream_ran {marker : UInt8} {tid : UInt64}
    (done : srv.commandCreateStream x marker tid = .ok srv') :
    srv'.quiet = ((srv.set x { srv.sessions x with state := .publishPlay }).emits
      [.streamCreated x]).quiet := by
  obtain ⟨buf, _, done⟩ := bind_ok.mp done
  obtain ⟨srv₁, wrote, done⟩ := bind_ok.mp done
  cases done
  have answered := within_quiet (fun _ _ => RtmpSession.writeChunk_quiet) wrote
  exact quiet_emits (quiet_setState answered x .publishPlay) _

theorem commandPublish_ran {sb : SimpleBuffer} (done : srv.commandPublish x sb = .ok srv') :
    ∃ cid app st srv₁, PublishArgs sb cid app ∧ (srv.sessions x).maxChunkSize ≠ 0 ∧
      (srv.set x { srv.sessions x with app, cid, url := urlOf app cid }).findStream
        (urlOf app cid) = .ok (st, srv₁) ∧
      srv'.quiet = (srv₁.joined x (urlOf app cid) st true).quiet := by
  obtain ⟨⟨cid, sb'⟩, name, done⟩ := bind_ok.mp done
  obtain ⟨⟨app, rest⟩, type, done⟩ := bind_ok.mp done
  obtain ⟨srv₁, join, done⟩ := bind_ok.mp done
  obtain ⟨srv₂, begun, done⟩ := bind_ok.mp done
  obtain ⟨srv₃, told, done⟩ := bind_ok.mp done
  cases done
  have replied := (sendOnStatus_quiet told).trans
    (within_quiet (fun _ _ => RtmpSession.writeChunk_quiet) begun)
  have room : (srv.sessions x).maxChunkSize ≠ 0 := by
    obtain ⟨s, sending, _⟩ := within_ok begun
    rw [joinStream_sessions join, set_sessions] at sending
    have room := RtmpSession.sendStreamBegin_room sending
    exact room
  obtain ⟨st, srv₀, found, same⟩ := enter_quiet join replied
  rw [set_sessions] at found same
  exact ⟨cid, app.getD [], st, srv₀, ⟨sb', app, rest, name, type, rfl⟩, room, found, same⟩

theorem commandPlay_ran {sb : SimpleBuffer} (done : srv.commandPlay x sb = .ok srv') :
    ∃ cid st srv₁, NameArgs sb cid ∧
      (srv.set x { srv.sessions x with cid, url := urlOf (srv.sessions x).app cid }).findStream
        (urlOf (srv.sessions x).app cid) = .ok (st, srv₁) ∧
      srv'.quiet = (srv₁.joined x (urlOf (srv.sessions x).app cid) st false).quiet := by
  obtain ⟨⟨cid, rest⟩, name, done⟩ := bind_ok.mp done
  obtain ⟨srv₁, join, done⟩ := bind_ok.mp done
  obtain ⟨srv₂, begun, done⟩ := bind_ok.mp done
  obtain ⟨srv₃, reset, done⟩ := bind_ok.mp done
  obtain ⟨srv₄, told, done⟩ := bind_ok.mp done
  cases done
  have replied := ((sendOnStatus_quiet told).trans (sendOnStatus_quiet reset)).trans
    (within_quiet (fun _ _ => RtmpSession.writeChunk_quiet) begun)
  obtain ⟨st, srv₀, found, same⟩ := enter_quiet join replied
  rw [set_sessions] at found same
  exact ⟨cid, st, srv₀, ⟨rest, name⟩, found, same⟩

theorem runCommand_ran {env : Env} {c : Command} (done : srv.runCommand env x c = .ok srv') :
    ∃ srv₁, srv'.quiet = srv₁.quiet ∧ srv.Ran x c srv₁ := by
  unfold runCommand at done
  simp only at done
  split at done
  · next connects =>
      obtain ⟨app, args, same⟩ := commandConnect_ran done
      exact ⟨_, same, .connected connects.1 connects.2 args⟩
  split at done
  · next creates => exact ⟨_, commandCreateStream_ran done, .created creates.1 creates.2⟩
  split at done
  · next named =>
      obtain ⟨⟨cid, rest⟩, read, done⟩ := bind_ok.mp done
      cases done
      exact ⟨_, rfl, .released named ⟨rest, read⟩⟩
  split at done
  · obtain ⟨_, _, done⟩ := bind_ok.mp done
    obtain ⟨_, _, done⟩ := bind_ok.mp done
    cases done
    exact ⟨_, rfl, .ignored⟩
  split at done
  · next named =>
      obtain ⟨⟨cid, rest⟩, read, done⟩ := bind_ok.mp done
      cases done
      exact ⟨_, rfl, .renamed named ⟨rest, read⟩⟩
  split at done
  · next named =>
      obtain ⟨⟨cid, rest⟩, read, done⟩ := bind_ok.mp done
      simp only at done
      split at done
      · next own =>
          subst own
          obtain ⟨_, rfl⟩ | ⟨st, found, same⟩ := leaveStream_quiet done
          · exact ⟨_, rfl, .ignored⟩
          · exact ⟨_, same, .unpublished named ⟨rest, read⟩ found⟩
      · cases done
        exact ⟨_, rfl, .ignored⟩
  split at done
  · cases done
    exact ⟨_, rfl, .ignored⟩
  split at done
  · next publishes =>
      obtain ⟨cid, app, st, srv₁, args, room, found, same⟩ := commandPublish_ran done
      exact ⟨_, same, .published publishes.1 publishes.2 room args found⟩
  split at done
  · next plays =>
      obtain ⟨cid, st, srv₁, args, found, same⟩ := commandPlay_ran done
      exact ⟨_, same, .played plays.1 plays.2 args found⟩
  · cases done
    exact ⟨_, rfl, .ignored⟩

/-- The session once the message it holds is cleared. -/
def cleared (srv : Server) (x : SessionId) (cs : RtmpChunkStream) : Server :=
  srv.set x ((srv.sessions x).setCurrent cs.clear)

/-- What handling a message leaves when it returns. -/
inductive Outcome (srv : Server) (x : SessionId) : Ret → Server → Prop where
  | control {s : RtmpSession} (control : srv.Control x)
      (done : (srv.sessions x).handleControlMessage = .ok s) :
      Outcome srv x .ok ((srv.set x s).emits
        (if (srv.sessions x).current.type = 1 then [.announced x s.maxChunkSize] else []))
  | relayed {cs : RtmpChunkStream} {st st' : RtmpStream} {media : MediaManager} {pkt : MediaPacket}
      {writes : List (SessionId × MediaPacket)}
      (present : (srv.sessions x).csIn (srv.sessions x).csid = some cs)
      (found : srv.streams (srv.sessions x).url = some st)
      (phase : (srv.sessions x).state = .mediaTransfer)
      (accepted : st.send srv.media x (srv.sessions x).current =
        .ok (some (st', media, pkt, writes))) :
      Outcome srv x .ok ((srv.relaying x st st' media pkt writes).cleared x cs)
  /-- A media message of a viewer. -/
  | unheard {cs : RtmpChunkStream} (present : (srv.sessions x).csIn (srv.sessions x).csid = some cs)
      (phase : (srv.sessions x).state = .mediaTransfer) : Outcome srv x .ok (srv.cleared x cs)
  | unrouted {cs : RtmpChunkStream} (present : (srv.sessions x).csIn (srv.sessions x).csid = some cs)
      (absent : srv.streams (srv.sessions x).url = none) : Outcome srv x .fail (srv.cleared x cs)
  | refused : Outcome srv x .fail srv
  | command {cs : RtmpChunkStream} {c : Command} {srv' : Server}
      (present : (srv.sessions x).csIn (srv.sessions x).csid = some cs) (carries : srv.Carries x c)
      (ran : (srv.cleared x cs).Ran x c srv') : Outcome srv x .ok srv'

theorem cleared_ok (done : srv.within x (·.clearCurrent) = .ok srv') :
    ∃ cs, (srv.sessions x).csIn (srv.sessions x).csid = some cs ∧ srv' = srv.cleared x cs := by
  obtain ⟨s, clearing, rfl⟩ := within_ok done
  obtain ⟨cs, present, rfl⟩ := RtmpSession.clearCurrent_ok clearing
  exact ⟨cs, present, rfl⟩

theorem cleared_quiet (same : srv'.quiet = srv.quiet) (x : SessionId) (cs : RtmpChunkStream) :
    (srv'.cleared x cs).quiet = (srv.cleared x cs).quiet :=
  have session : ((srv'.sessions x).setCurrent cs.clear).quiet =
      ((srv.sessions x).setCurrent cs.clear).quiet :=
    congrArg (fun s : RtmpSession => s.setCurrent cs.clear) (quiet_session same x)
  quiet_set_congr same session x

theorem handleMediaMessage_outcome {ret : Ret} (done : srv.handleMediaMessage x = .ok (ret, srv')) :
    ∃ srv₁, srv'.quiet = srv₁.quiet ∧ srv.Outcome x ret srv₁ := by
  unfold handleMediaMessage at done
  simp only at done
  split at done
  · cases done
    exact ⟨_, rfl, .refused⟩
  next phase =>
  have phase := not_not.mp phase
  split at done
  · next st found =>
      obtain ⟨srv₁, sent, done⟩ := bind_ok.mp done
      obtain ⟨srv₂, clearing, done⟩ := bind_ok.mp done
      cases done
      obtain ⟨cs, present, rfl⟩ := cleared_ok clearing
      obtain ⟨accepted, passed, rest⟩ := bind_ok.mp sent
      cases accepted with
      | none =>
          cases rest
          exact ⟨_, rfl, .unheard present phase⟩
      | some accepted =>
          obtain ⟨st', media, pkt, writes⟩ := accepted
          have same : srv₁.quiet = (srv.relaying x st st' media pkt writes).quiet := by
            refine (relay_quiet rest).trans ?_
            rw [emit_eq, emits_emits]
            rfl
          have stored : (srv₁.sessions x).decoder = (srv.sessions x).decoder :=
            quiet_decoder same x
          have csIn : (srv₁.sessions x).csIn = (srv.sessions x).csIn := congrArg (·.csIn) stored
          have csid : (srv₁.sessions x).csid = (srv.sessions x).csid := congrArg (·.csid) stored
          rw [csIn, csid] at present
          exact ⟨_, cleared_quiet same x cs, .relayed present found phase passed⟩
  · next absent =>
      obtain ⟨srv₁, clearing, done⟩ := bind_ok.mp done
      cases done
      obtain ⟨cs, present, rfl⟩ := cleared_ok clearing
      exact ⟨_, rfl, .unrouted present absent⟩

theorem handleChunkStream_outcome {env : Env} {ret : Ret}
    (done : srv.handleChunkStream env x = .ok (ret, srv')) :
    ∃ srv₁, srv'.quiet = srv₁.quiet ∧ srv.Outcome x ret srv₁ := by
  unfold handleChunkStream at done
  simp only at done
  split at done
  · next control =>
      obtain ⟨srv₁, controlled, done⟩ := bind_ok.mp done
      cases done
      obtain ⟨s, handled, rfl⟩ := within_ok controlled
      refine ⟨_, ?_, .control control handled⟩
      split
      · rw [emit_eq, set_sessions]
      · rw [emits_nil]
  split at done
  · exact handleMediaMessage_outcome done
  split at done
  · next command =>
      obtain ⟨srv₁, clearing, done⟩ := bind_ok.mp done
      obtain ⟨c, read, done⟩ := bind_ok.mp done
      obtain ⟨srv₂, ran, done⟩ := bind_ok.mp done
      cases done
      obtain ⟨cs, present, rfl⟩ := cleared_ok clearing
      obtain ⟨srv₃, same, ran⟩ := runCommand_ran ran
      exact ⟨srv₃, same, .command present ⟨command, read⟩ ran⟩
  · cases done
    exact ⟨_, rfl, .refused⟩

/-- The payload of a message is counted, the acknowledgement sent if one is due, and the call noted. -/
def Counted (srv : Server) (x : SessionId) (srv' : Server) : Prop :=
  ∃ ackRecv ackRecvTotal, srv'.quiet =
    ((srv.set x { srv.sessions x with ackRecv, ackRecvTotal }).emits [srv.calling x]).quiet

section Counted

variable {srv₁ : Server}

theorem Counted.agree (counted : srv.Counted x srv₁) {α : Sort _} (look : RtmpSession → α)
    (blind : ∀ s, look s.quiet = look s)
    (unaware : ∀ s ackRecv ackRecvTotal, look { s with ackRecv, ackRecvTotal } = look s) :
    look (srv₁.sessions x) = look (srv.sessions x) := by
  obtain ⟨ackRecv, ackRecvTotal, same⟩ := counted
  have session := congrArg look (quiet_session same x)
  simp only [emits, set_sessions, blind, unaware] at session
  exact session

theorem Counted.streams (counted : srv.Counted x srv₁) : srv₁.streams = srv.streams := by
  obtain ⟨_, _, same⟩ := counted
  have streams := quiet_streams same
  exact streams

theorem Counted.crashed (counted : srv.Counted x srv₁) : srv₁.crashed = srv.crashed := by
  obtain ⟨_, _, same⟩ := counted
  have crashed := quiet_agree same Server.crashed fun _ => rfl
  exact crashed

theorem Counted.decoder (counted : srv.Counted x srv₁) :
    (srv₁.sessions x).decoder = (srv.sessions x).decoder :=
  counted.agree RtmpSession.decoder (fun _ => rfl) fun _ _ _ => rfl

theorem Counted.state (counted : srv.Counted x srv₁) :
    (srv₁.sessions x).state = (srv.sessions x).state :=
  counted.agree RtmpSession.state (fun _ => rfl) fun _ _ _ => rfl

theorem Counted.url (counted : srv.Counted x srv₁) : (srv₁.sessions x).url = (srv.sessions x).url :=
  counted.agree RtmpSession.url (fun _ => rfl) fun _ _ _ => rfl

theorem Counted.refused (counted : srv.Counted x srv₁) (refused : srv₁.Refused x) :
    srv.Refused x := by
  unfold Refused at refused ⊢
  rwa [RtmpSession.current_decoder counted.decoder, counted.state, counted.url, counted.streams]
    at refused

end Counted

/-- Handling a message that is complete: the process stops on the way, or the message comes to
    something and the session is closed if that is a failure. -/
theorem dispatch_outcome (env : Env) (srv : Server) (x : SessionId) :
    (∃ f srv₁, srv.dispatch env x = (.fail, srv₁.crash f) ∧ (srv₁ = srv ∨ srv.Counted x srv₁)) ∨
      ∃ ret srv₁ srv₂ srv₃, srv.Counted x srv₁ ∧ srv₁.Outcome x ret srv₂ ∧
        (ret = .fail → srv.Refused x) ∧ srv₃.quiet = (srv₂.emits [.result x ret]).quiet ∧
        srv.dispatch env x = (ret, if ret = .fail then srv₃.close x else srv₃) := by
  unfold dispatch
  split
  · exact .inl ⟨_, srv, rfl, .inl rfl⟩
  · next srv₁ counted =>
      obtain ⟨s, counting, rfl⟩ := within_ok counted
      obtain ⟨decoder, _⟩ := RtmpSession.acknowledge_ok counting
      obtain ⟨ackRecv, ackRecvTotal, same⟩ := RtmpSession.acknowledge_quiet counting
      have named : (srv.set x s).calling x = srv.calling x := by
        have csid : s.csid = (srv.sessions x).csid := congrArg (·.csid) decoder
        rw [calling, calling, set_sessions, RtmpSession.current_decoder decoder, csid]
      simp only
      generalize called : (srv.set x s).emit _ = srv₁
      have counted : srv.Counted x srv₁ := by
        refine ⟨ackRecv, ackRecvTotal, ?_⟩
        rw [← named, ← called]
        exact quiet_emits (quiet_set_congr rfl same x) _
      split
      · exact .inl ⟨_, srv₁, rfl, .inr counted⟩
      · next ret srv₂ handled =>
          obtain ⟨srv₃, same, outcome⟩ := handleChunkStream_outcome handled
          refine .inr ⟨ret, srv₁, srv₃, _, counted, outcome, ?_, quiet_emits same _, rfl⟩
          rintro rfl
          exact counted.refused (handleChunkStream_fail handled).1

theorem findStream_keeps {url : Bytes} {st : RtmpStream} (done : srv.findStream url = .ok (st, srv')) :
    srv'.sessions = srv.sessions ∧ srv'.crashed = srv.crashed := by
  unfold findStream at done
  split at done
  · cases done
    exact ⟨rfl, rfl⟩
  · obtain ⟨made, _, rest⟩ := bind_ok.mp done
    cases rest
    split <;> exact ⟨rfl, rfl⟩

theorem Ran.keeps {c : Command} (ran : srv.Ran x c srv') :
    (srv'.sessions x).isOpen = (srv.sessions x).isOpen ∧ srv'.crashed = srv.crashed := by
  have entered : ∀ {s : RtmpSession} {url url' : Bytes} {st : RtmpStream} {srv₁ : Server}
      (publisher : Bool), (srv.set x s).findStream url = .ok (st, srv₁) →
      s.isOpen = (srv.sessions x).isOpen →
      ((srv₁.joined x url' st publisher).sessions x).isOpen = (srv.sessions x).isOpen ∧
        (srv₁.joined x url' st publisher).crashed = srv.crashed := by
    intro s url url' st srv₁ publisher found same
    obtain ⟨sessions, crashed⟩ := findStream_keeps found
    have here : srv₁.sessions x = s := by rw [sessions, set_sessions]
    simp only [joined, emits, set_sessions, setStream, here]
    exact ⟨same, crashed⟩
  cases ran with
  | connected | created | released | renamed =>
      simp only [emits, setStream, set_sessions]
      exact ⟨trivial, rfl⟩
  | unpublished | ignored => exact ⟨rfl, rfl⟩
  | published _ _ _ _ found => exact entered true found rfl
  | played _ _ _ found => exact entered false found rfl

theorem Outcome.keeps {ret : Ret} (outcome : srv.Outcome x ret srv') :
    (srv'.sessions x).isOpen = (srv.sessions x).isOpen ∧ srv'.crashed = srv.crashed := by
  have cleared : ∀ (srv : Server) (cs : RtmpChunkStream),
      ((srv.cleared x cs).sessions x).isOpen = (srv.sessions x).isOpen := by
    intro srv cs
    simp only [Server.cleared, set_sessions, RtmpSession.setCurrent]
  cases outcome with
  | control _ done =>
      obtain ⟨_, _, _, _, _, rfl⟩ := RtmpSession.handleControlMessage_own done
      simp only [emits, set_sessions]
      exact ⟨trivial, rfl⟩
  | relayed => exact ⟨cleared _ _, rfl⟩
  | unheard | unrouted => exact ⟨cleared _ _, rfl⟩
  | refused => exact ⟨rfl, rfl⟩
  | command _ _ ran =>
      obtain ⟨isOpen, crashed⟩ := ran.keeps
      exact ⟨isOpen.trans (cleared _ _), crashed⟩

theorem dispatch_keeps {env : Env} (handled : srv.dispatch env x = (.ok, srv')) :
    (srv'.sessions x).isOpen = (srv.sessions x).isOpen ∧ srv'.crashed = srv.crashed := by
  obtain ⟨f, _, stopped, _⟩ | ⟨ret, srv₁, srv₂, srv₃, counted, outcome, _, same, done⟩ :=
    srv.dispatch_outcome env x
  · rw [handled] at stopped
    cases stopped
  · rw [handled] at done
    cases done
    obtain ⟨isOpen, crashed⟩ := outcome.keeps
    have session := congrArg RtmpSession.isOpen (quiet_session same x)
    have stopped := quiet_agree same Server.crashed fun _ => rfl
    have opened := counted.agree RtmpSession.isOpen (fun _ => rfl) fun _ _ _ => rfl
    exact ⟨(session.trans isOpen).trans opened, (stopped.trans crashed).trans counted.crashed⟩

end Server

end DroneServer
