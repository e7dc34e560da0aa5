import DroneServer.Rtmp.Quiet
import Mathlib.Logic.Relation

/-! # What a session can do to the server

Every step of the process, on behalf of one session, is a sequence of acts. There
are ten of them, and they name what the handlers have in common: sending, moving
on to the next state, joining, leaving and relaying. An invariant of the server
has to be checked against the acts only; `step_acts` then gives it for every run.
-/

namespace DroneServer

/-- Calls, their results and chunk sizes: nothing that concerns a state, a stream or a packet. -/
def Event.routine : Event → Bool
  | .call .. | .result .. | .announce .. | .announced .. => true
  | _ => false

/-- The steps from the handshake to the choice between publishing and playing, and their events. -/
inductive Advance (x : SessionId) : SessionState → SessionState → List Event → Prop where
  | greeted : Advance x .init .handshakeC2 []
  | shaken : Advance x .handshakeC2 .connect [.handshakeDone x]
  | connected : Advance x .connect .createStream [.connected x]
  | created : Advance x .createStream .publishPlay [.streamCreated x]

/-- What not every message allows. -/
structure Grants where
  /-- The decoder of the session may change, and calls and chunk sizes may be noted. -/
  decode : Prop := False
  /-- The stream registered under this url may be released. -/
  release : Bytes → Prop := fun _ => False
  /-- The session may be closed. -/
  close : Prop := False

/-- The second grants allow all the first do. -/
structure Grants.Within (may more : Grants) : Prop where
  decode : may.decode → more.decode
  release : ∀ url, may.release url → more.release url
  close : may.close → more.close

namespace Server

/-- The stream a session joins: registered before, or new, empty and with a fresh identity. -/
theorem findStream_ok {srv srv₁ : Server} {url : Bytes} {st : RtmpStream}
    (done : srv.findStream url = .ok (st, srv₁)) :
    (srv.streams url = some st ∧ srv₁ = srv) ∨
      (srv.streams url = none ∧ st.url = url ∧ st.ref = srv.nextRef ∧ st.publisher = none ∧
        st.peers = .empty ∧ st.gop = {} ∧ srv₁.nextRef = srv.nextRef + 1 ∧
        srv₁.streams = srv.streams ∧ srv₁.sessions = srv.sessions ∧ srv₁.log = srv.log) := by
  unfold findStream at done
  split at done
  · next found =>
      cases done
      exact .inl ⟨found, rfl⟩
  · next absent =>
      obtain ⟨made, created, rest⟩ := bind_ok.mp done
      obtain ⟨cid, _, built⟩ := bind_ok.mp created
      cases built
      cases rest
      refine .inr ⟨absent, rfl, rfl, rfl, rfl, rfl, ?_⟩
      split <;> exact ⟨rfl, rfl, rfl, rfl⟩

/-- The session has joined the stream and may transfer media. -/
def joined (srv : Server) (x : SessionId) (url : Bytes) (st : RtmpStream) (publisher : Bool) :
    Server :=
  ((srv.setStream url (some (st.join x publisher).2)).set x
    { srv.sessions x with state := .mediaTransfer }).emits
      [.join x st.ref publisher (st.join x publisher).1,
        if publisher then .published x else .played x]

theorem joined_streams {srv srv₁ : Server} (streams : srv₁.streams = srv.streams) (x : SessionId)
    (url : Bytes) (st : RtmpStream) (publisher : Bool) :
    (srv₁.joined x url st publisher).streams =
      Function.update srv.streams url (some (st.join x publisher).2) := by
  rw [← streams]
  rfl

/-- The stream has taken the packet in and is about to write it out. -/
def relaying (srv : Server) (x : SessionId) (st st' : RtmpStream) (media : MediaManager)
    (pkt : MediaPacket) (writes : List (SessionId × MediaPacket)) : Server :=
  ({ srv with media }.setStream (srv.sessions x).url (some st')).emits
    (.cached x st.ref pkt :: relayEvents x st.ref writes)

inductive Act (may : Grants) (x : SessionId) (srv : Server) : Server → Prop where
  | wrote {srv' : Server} (same : srv'.quiet = srv.quiet) : Act may x srv srv'
  | note {e : Event} (routine : e.routine) (allowed : may.decode) : Act may x srv (srv.emit e)
  | own {s : RtmpSession} (state : s.state = (srv.sessions x).state)
      (decoder : s.decoder = (srv.sessions x).decoder ∨ may.decode) : Act may x srv (srv.set x s)
  | advanced {s : RtmpSession} {es : List Event}
      (phase : Advance x (srv.sessions x).state s.state es)
      (decoder : s.decoder = (srv.sessions x).decoder) : Act may x srv ((srv.set x s).emits es)
  | released {url : Bytes} (allowed : may.release url) : Act may x srv (srv.setStream url none)
  | departed {st : RtmpStream} (found : srv.streams (srv.sessions x).url = some st) :
      Act may x srv (srv.left (srv.sessions x).url st x)
  | closed (allowed : may.close) : Act may x srv (srv.set x { srv.sessions x with state := .close })
  | entered {srv₁ : Server} {st : RtmpStream} (publisher : Bool)
      (found : srv.findStream (srv.sessions x).url = .ok (st, srv₁))
      (phase : (srv.sessions x).state = .publishPlay) :
      Act may x srv (srv₁.joined x (srv.sessions x).url st publisher)
  | relayed {st st' : RtmpStream} {media : MediaManager} {cs : RtmpChunkStream} {pkt : MediaPacket}
      {writes : List (SessionId × MediaPacket)}
      (found : srv.streams (srv.sessions x).url = some st)
      (phase : (srv.sessions x).state = .mediaTransfer)
      (accepted : st.send srv.media x cs = .ok (some (st', media, pkt, writes))) :
      Act may x srv (srv.relaying x st st' media pkt writes)
  | crashed (f : Fault) : Act may x srv (srv.crash f)

theorem Act.other {may : Grants} {x y : SessionId} {srv srv' : Server} (other : y ≠ x)
    (act : Act may x srv srv') : (srv'.sessions y).quiet = (srv.sessions y).quiet := by
  cases act with
  | wrote same => exact quiet_session same y
  | note | released | departed | relayed | crashed => rfl
  | own | closed => rw [set_other _ _ other]
  | advanced => simp only [emits, set_other _ _ other]
  | @entered srv₁ st publisher found phase =>
      have sessions : srv₁.sessions = srv.sessions := by
        obtain ⟨_, rfl⟩ | ⟨_, _, _, _, _, _, _, _, sessions, _⟩ := findStream_ok found
        · rfl
        · exact sessions
      simp only [joined, emits, set_other _ _ other, setStream, sessions]

/-- How a session's state may move. -/
inductive Moves (may : Grants) (x : SessionId) : SessionState → SessionState → Prop where
  | stay (state : SessionState) : Moves may x state state
  | advance {before after : SessionState} {es : List Event} (phase : Advance x before after es) :
      Moves may x before after
  | enter : Moves may x .publishPlay .mediaTransfer
  | close {state : SessionState} (allowed : may.close) : Moves may x state .close

theorem Act.moves {may : Grants} {x : SessionId} {srv srv' : Server} (act : Act may x srv srv') :
    Moves may x (srv.sessions x).state (srv'.sessions x).state := by
  cases act with
  | wrote same =>
      rw [quiet_state same]
      exact .stay _
  | note | released | departed | relayed | crashed => exact .stay _
  | own state =>
      rw [set_sessions, state]
      exact .stay _
  | advanced phase =>
      simp only [emits, set_sessions]
      exact .advance phase
  | closed allowed =>
      rw [set_sessions]
      exact .close allowed
  | entered publisher found phase =>
      simp only [joined, emits, set_sessions, phase]
      exact .enter

/-- Any number of acts of one session. -/
abbrev Acts (may : Grants) (x : SessionId) : Server → Server → Prop :=
  Relation.ReflTransGen (Act may x)

theorem Act.inChunkPhase {may : Grants} {x : SessionId} {srv srv' : Server} (may_not : ¬ may.close)
    (act : Act may x srv srv') (phase : (srv.sessions x).InChunkPhase) :
    (srv'.sessions x).InChunkPhase := by
  have moves := act.moves
  unfold RtmpSession.InChunkPhase at phase ⊢
  generalize (srv.sessions x).state = before at moves phase
  generalize (srv'.sessions x).state = after at moves ⊢
  cases moves with
  | stay => exact phase
  | advance advance => cases advance <;> simp at phase ⊢
  | enter => decide
  | close allowed => exact absurd allowed may_not

theorem Act.acts {may : Grants} {x : SessionId} {srv srv' : Server} (act : Act may x srv srv') :
    Acts may x srv srv' := .single act

theorem Act.mono {may more : Grants} (le : may.Within more) {x : SessionId} {srv srv' : Server}
    (act : Act may x srv srv') : Act more x srv srv' := by
  cases act with
  | wrote same => exact .wrote same
  | note routine allowed => exact .note routine (le.decode allowed)
  | own state decoder => exact .own state (decoder.imp_right le.decode)
  | advanced phase decoder => exact .advanced phase decoder
  | released allowed => exact .released (le.release _ allowed)
  | departed found => exact .departed found
  | closed allowed => exact .closed (le.close allowed)
  | entered publisher found phase => exact .entered publisher found phase
  | relayed found phase accepted => exact .relayed found phase accepted
  | crashed f => exact .crashed f

theorem Acts.mono {may more : Grants} (le : may.Within more) {x : SessionId} {srv srv' : Server}
    (acts : Acts may x srv srv') : Acts more x srv srv' :=
  Relation.ReflTransGen.mono (fun _ _ => Act.mono le) srv srv' acts

/-- What every act preserves, any number of acts preserves. -/
theorem Acts.invariant {may : Grants} {x : SessionId} {P : Server → Prop}
    (preserved : ∀ srv srv', P srv → Act may x srv srv' → P srv') {srv srv' : Server}
    (acts : Acts may x srv srv') (holds : P srv) : P srv' := by
  induction acts with
  | refl => exact holds
  | tail _ act ih => exact preserved _ _ ih act

/-- The acts of one session do to the others no more than to write to them. -/
theorem Acts.other {may : Grants} {x y : SessionId} {srv srv' : Server} (other : y ≠ x)
    (acts : Acts may x srv srv') : (srv'.sessions y).quiet = (srv.sessions y).quiet :=
  acts.invariant (P := fun after => (after.sessions y).quiet = (srv.sessions y).quiet)
    (fun _ _ same act => (act.other other).trans same) rfl

/-- The app a `connect` names. -/
def ConnectArgs (sb : SimpleBuffer) (app : Bytes) : Prop :=
  ∃ ret co rest, Amf0Data.readObject (Amf0Data.readFuel sb) sb = .ok (ret, co, rest) ∧
    Amf0Properties.valueAt co (ascii "app") = some (.string app)

section Handlers

variable {may : Grants} {x : SessionId} {srv srv' : Server}

theorem own_acts {s : RtmpSession} (state : s.state = (srv.sessions x).state)
    (decoder : s.decoder = (srv.sessions x).decoder ∨ may.decode) :
    Acts may x srv (srv.set x s) := (Act.own state decoder).acts

theorem advanced_acts {s : RtmpSession} {es : List Event}
    (phase : Advance x (srv.sessions x).state s.state es)
    (decoder : s.decoder = (srv.sessions x).decoder) : Acts may x srv ((srv.set x s).emits es) :=
  (Act.advanced phase decoder).acts

theorem wrote_acts (same : srv'.quiet = srv.quiet) : Acts may x srv srv' := (Act.wrote same).acts

theorem leaveStream_acts (done : srv.leaveStream x = .ok srv') : Acts may x srv srv' := by
  obtain ⟨_, rfl⟩ | ⟨st, found, same⟩ := leaveStream_quiet done
  · exact .refl
  · exact (Act.departed found).acts.trans (wrote_acts same)

theorem onClose_acts (may_close : may.close) (done : srv.onClose x = .ok srv') :
    Acts may x srv srv' := by
  obtain ⟨srv₁, leaving, rest⟩ := bind_ok.mp done
  cases rest
  exact (leaveStream_acts leaving).tail (.closed may_close)

theorem close_acts (may_close : may.close) (srv : Server) : Acts may x srv (srv.close x) := by
  unfold close
  split
  · have shut : Act may x srv (srv.set x { srv.sessions x with isOpen := false }) :=
      .own rfl (.inl rfl)
    refine shut.acts.trans ?_
    simp only
    split
    · next closing => exact onClose_acts may_close closing
    · exact (Act.crashed _).acts
  · exact .refl

theorem sendMedia_acts {st : RtmpStream} {cs : RtmpChunkStream}
    (found : srv.streams (srv.sessions x).url = some st)
    (phase : (srv.sessions x).state = .mediaTransfer)
    (done : srv.sendMedia x (srv.sessions x).url st cs = .ok srv') : Acts may x srv srv' := by
  obtain ⟨sent, accepted, rest⟩ := bind_ok.mp done
  cases sent with
  | none =>
      cases rest
      exact .refl
  | some sent =>
      obtain ⟨st', media, pkt, writes⟩ := sent
      have act : Act may x srv (srv.relaying x st st' media pkt writes) :=
        .relayed found phase accepted
      refine act.acts.trans (wrote_acts ((relay_quiet rest).trans ?_))
      rw [emit_eq, emits_emits]
      rfl

theorem within_acts {f : RtmpSession → Except Fault RtmpSession}
    (keeps : ∀ s s', f s = .ok s' → s'.state = s.state)
    (decoder : (∀ s s', f s = .ok s' → s'.decoder = s.decoder) ∨ may.decode)
    (done : srv.within x f = .ok srv') : Acts may x srv srv' := by
  obtain ⟨s', ran, rfl⟩ := within_ok done
  exact (Act.own (keeps _ _ ran) (decoder.imp_left fun same => same _ _ ran)).acts

theorem clearCurrent_acts (may_decode : may.decode) (done : srv.within x (·.clearCurrent) = .ok srv') :
    Acts may x srv srv' := by
  refine within_acts (fun s s' cleared => ?_) (.inr may_decode) done
  obtain ⟨cs, _, rfl⟩ := RtmpSession.clearCurrent_ok cleared
  rfl

theorem handleMediaMessage_acts {ret : Ret} (may_decode : may.decode)
    (done : srv.handleMediaMessage x = .ok (ret, srv')) : Acts may x srv srv' := by
  unfold handleMediaMessage at done
  simp only at done
  split at done
  · cases done
    exact .refl
  · next phase =>
      have phase := not_not.mp phase
      split at done
      · next st found =>
          obtain ⟨srv₁, sent, rest⟩ := bind_ok.mp done
          obtain ⟨srv₂, cleared, rest⟩ := bind_ok.mp rest
          cases rest
          exact (sendMedia_acts found phase sent).trans (clearCurrent_acts may_decode cleared)
      · obtain ⟨srv₁, cleared, rest⟩ := bind_ok.mp done
        cases rest
        exact clearCurrent_acts may_decode cleared

theorem commandConnect_ok {sb : SimpleBuffer} (done : srv.commandConnect x sb = .ok srv') :
    ∃ (app : Bytes) (srv₁ srv₂ : Server), ConnectArgs sb app ∧
      srv₁.quiet = (srv.set x { srv.sessions x with app, maxChunkSize := 4096 }).quiet ∧
      srv₂.quiet = (srv₁.emit (.announce x 4096)).quiet ∧
      srv' = (srv₂.set x { srv₂.sessions x with state := .createStream }).emits [.connected x] := by
  obtain ⟨⟨ret, co, rest⟩, read, done⟩ := bind_ok.mp done
  simp only at done
  split at done
  · next app named =>
      obtain ⟨srv₁, announced, done⟩ := bind_ok.mp done
      obtain ⟨srv₂, second, done⟩ := bind_ok.mp done
      obtain ⟨srv₃, third, done⟩ := bind_ok.mp done
      obtain ⟨buf, _, done⟩ := bind_ok.mp done
      obtain ⟨srv₄, fourth, done⟩ := bind_ok.mp done
      cases done
      obtain ⟨srv₀, sized, announced⟩ := bind_ok.mp announced
      have stored := within_quiet (fun _ _ => RtmpSession.writeChunk_quiet) sized
      have size : (srv₀.sessions x).maxChunkSize = 4096 := by
        have same := quiet_decoder stored x
        rw [set_sessions] at same
        exact congrArg (·.maxChunkSize) same
      rw [size] at announced
      cases announced
      exact ⟨app, srv₀, srv₄, ⟨ret, co, rest, read, named⟩, stored,
        ((within_quiet (fun _ _ => RtmpSession.writeChunk_quiet) fourth).trans
          (within_quiet (fun _ _ => RtmpSession.writeChunk_quiet) third)).trans
            (within_quiet (fun _ _ => RtmpSession.writeChunk_quiet) second), rfl⟩
  · cases done

theorem commandConnect_acts {sb : SimpleBuffer} (may_decode : may.decode)
    (phase : (srv.sessions x).state = .connect) (done : srv.commandConnect x sb = .ok srv') :
    Acts may x srv srv' := by
  obtain ⟨app, srv₁, srv₂, _, stored, answered, rfl⟩ := commandConnect_ok done
  have resized : Act may x srv
      (srv.set x { srv.sessions x with app, maxChunkSize := 4096 }) := .own rfl (.inr may_decode)
  have noted : Act may x srv₁ (srv₁.emit (.announce x 4096)) := .note rfl may_decode
  have state : (srv₂.sessions x).state = .connect := by
    rw [quiet_state answered, emit_eq, quiet_state (quiet_emits stored _)]
    simp only [emits, set_sessions, phase]
  have moved : Act may x srv₂
      ((srv₂.set x { srv₂.sessions x with state := .createStream }).emits [.connected x]) :=
    .advanced (by rw [state]; exact .connected) rfl
  exact ((resized.acts.tail (.wrote stored)).tail noted).trans ((wrote_acts answered).tail moved)

theorem commandCreateStream_acts {marker : UInt8} {tid : UInt64}
    (phase : (srv.sessions x).state = .createStream)
    (done : srv.commandCreateStream x marker tid = .ok srv') : Acts may x srv srv' := by
  obtain ⟨buf, _, done⟩ := bind_ok.mp done
  obtain ⟨srv₁, wrote, done⟩ := bind_ok.mp done
  cases done
  have answered := within_quiet (fun _ _ => RtmpSession.writeChunk_quiet) wrote
  have moved : Act may x srv₁
      ((srv₁.set x { srv₁.sessions x with state := .publishPlay }).emits [.streamCreated x]) :=
    .advanced (by rw [quiet_state answered, phase]; exact .created) rfl
  exact (wrote_acts answered).tail moved

theorem commandReleaseStream_acts {sb : SimpleBuffer}
    (may_release : ∀ cid rest, readName sb = .ok (cid, rest) →
      may.release (urlOf (srv.sessions x).app cid))
    (done : srv.commandReleaseStream x sb = .ok srv') : Acts may x srv srv' := by
  obtain ⟨⟨cid, rest⟩, read, done⟩ := bind_ok.mp done
  cases done
  have renamed : Act may x srv (srv.set x
      { srv.sessions x with cid, url := urlOf (srv.sessions x).app cid }) := .own rfl (.inl rfl)
  exact renamed.acts.tail (.released (may_release cid rest read))

theorem commandFCPublish_acts {sb : SimpleBuffer} (done : srv.commandFCPublish x sb = .ok srv') :
    Acts may x srv srv' := by
  obtain ⟨⟨cid, rest⟩, _, done⟩ := bind_ok.mp done
  cases done
  have renamed : Act may x srv (srv.set x
      { srv.sessions x with cid, url := urlOf (srv.sessions x).app cid }) := .own rfl (.inl rfl)
  exact renamed.acts

theorem commandFCUnpublish_acts {sb : SimpleBuffer}
    (done : srv.commandFCUnpublish x sb = .ok srv') : Acts may x srv srv' := by
  obtain ⟨⟨cid, rest⟩, _, done⟩ := bind_ok.mp done
  simp only at done
  split at done
  · exact leaveStream_acts done
  · cases done
    exact .refl

theorem joinStream_sessions {publisher : Bool} (done : srv.joinStream x publisher = .ok srv') :
    srv'.sessions = srv.sessions := by
  obtain ⟨⟨st, srv₁⟩, found, stored⟩ := bind_ok.mp done
  cases stored
  obtain ⟨_, rfl⟩ | ⟨_, _, _, _, _, _, _, _, sessions, _⟩ := findStream_ok found
  · rfl
  · exact sessions

theorem enter_quiet {srv₁ srv₂ : Server} {publisher : Bool}
    (join : srv.joinStream x publisher = .ok srv₁) (replied : srv₂.quiet = srv₁.quiet) :
    ∃ st srv₀, srv.findStream (srv.sessions x).url = .ok (st, srv₀) ∧
      ((srv₂.set x { srv₂.sessions x with state := .mediaTransfer }).emits
        [if publisher then .published x else .played x]).quiet =
          (srv₀.joined x (srv.sessions x).url st publisher).quiet := by
  obtain ⟨⟨st, srv₀⟩, found, stored⟩ := bind_ok.mp join
  rw [pure_ok] at stored
  subst stored
  refine ⟨st, srv₀, found, ?_⟩
  rw [quiet_emits (quiet_setState replied x .mediaTransfer)]
  simp only [joined, emits, emit, set, setStream, List.append_assoc]
  rfl

theorem enter_acts {srv₁ srv₂ : Server} {publisher : Bool}
    (phase : (srv.sessions x).state = .publishPlay)
    (join : srv.joinStream x publisher = .ok srv₁) (replied : srv₂.quiet = srv₁.quiet) :
    Acts may x srv ((srv₂.set x { srv₂.sessions x with state := .mediaTransfer }).emits
      [if publisher then .published x else .played x]) := by
  obtain ⟨st, srv₀, found, same⟩ := enter_quiet join replied
  exact (Act.entered publisher found phase).acts.tail (.wrote same)

theorem commandPublish_acts {sb : SimpleBuffer} (phase : (srv.sessions x).state = .publishPlay)
    (done : srv.commandPublish x sb = .ok srv') : Acts may x srv srv' := by
  obtain ⟨⟨cid, sb⟩, _, done⟩ := bind_ok.mp done
  obtain ⟨⟨app, _⟩, _, done⟩ := bind_ok.mp done
  obtain ⟨srv₁, join, done⟩ := bind_ok.mp done
  obtain ⟨srv₂, begun, done⟩ := bind_ok.mp done
  obtain ⟨srv₃, told, done⟩ := bind_ok.mp done
  cases done
  have renamed : Act may x srv (srv.set x { srv.sessions x with
      app := app.getD [], cid, url := urlOf (app.getD []) cid }) := .own rfl (.inl rfl)
  have replied := (sendOnStatus_quiet told).trans
    (within_quiet (fun _ _ => RtmpSession.writeChunk_quiet) begun)
  exact renamed.acts.trans
    (enter_acts (by rw [set_sessions]; exact phase) join replied)

theorem commandPlay_acts {sb : SimpleBuffer} (phase : (srv.sessions x).state = .publishPlay)
    (done : srv.commandPlay x sb = .ok srv') : Acts may x srv srv' := by
  obtain ⟨⟨cid, sb⟩, _, done⟩ := bind_ok.mp done
  obtain ⟨srv₁, join, done⟩ := bind_ok.mp done
  obtain ⟨srv₂, begun, done⟩ := bind_ok.mp done
  obtain ⟨srv₃, reset, done⟩ := bind_ok.mp done
  obtain ⟨srv₄, told, done⟩ := bind_ok.mp done
  cases done
  have renamed : Act may x srv (srv.set x { srv.sessions x with
      cid, url := urlOf (srv.sessions x).app cid }) := .own rfl (.inl rfl)
  have replied := ((sendOnStatus_quiet told).trans (sendOnStatus_quiet reset)).trans
    (within_quiet (fun _ _ => RtmpSession.writeChunk_quiet) begun)
  exact renamed.acts.trans
    (enter_acts (by rw [set_sessions]; exact phase) join replied)

end Handlers

/-- The session accepts this command as its `connect`. -/
def Connects (srv : Server) (x : SessionId) (c : Command) : Prop :=
  c.name = ascii "connect" ∧ (srv.sessions x).state = .connect

/-- The command is a `releaseStream` that names this url. -/
def Releases (srv : Server) (x : SessionId) (c : Command) (url : Bytes) : Prop :=
  c.name = ascii "releaseStream" ∧
    ∃ cid rest, readName c.args = .ok (cid, rest) ∧ url = urlOf (srv.sessions x).app cid

/-- What a command allows. -/
def grants (srv : Server) (x : SessionId) (c : Command) : Grants where
  decode := srv.Connects x c
  release := srv.Releases x c

theorem runCommand_acts {env : Env} {x : SessionId} {c : Command} {srv srv' : Server}
    (done : srv.runCommand env x c = .ok srv') : Acts (srv.grants x c) x srv srv' := by
  unfold runCommand at done
  simp only at done
  split at done
  · next connects => exact commandConnect_acts connects connects.2 done
  split at done
  · next named => exact commandCreateStream_acts named.2 done
  split at done
  · next named =>
      exact commandReleaseStream_acts (fun cid rest read => ⟨named, cid, rest, read, rfl⟩) done
  split at done
  · obtain ⟨_, _, done⟩ := bind_ok.mp done
    obtain ⟨_, _, done⟩ := bind_ok.mp done
    cases done
    exact .refl
  split at done
  · exact commandFCPublish_acts done
  split at done
  · exact commandFCUnpublish_acts done
  split at done
  · cases done
    exact .refl
  split at done
  · next named => exact commandPublish_acts named.2 done
  split at done
  · next named => exact commandPlay_acts named.2 done
  · cases done
    exact .refl

/-- The message to be handled is this command. -/
def Carries (srv : Server) (x : SessionId) (c : Command) : Prop :=
  (srv.sessions x).current.type = 20 ∧ readCommand (srv.sessions x).current.data = .ok c

/-- What the message to be handled allows. -/
def messageGrants (srv : Server) (x : SessionId) : Grants where
  decode := True
  release := fun url => ∃ c, srv.Carries x c ∧ srv.Releases x c url

theorem handleControlMessage_acts {may : Grants} (may_decode : may.decode) {x : SessionId}
    {ret : Ret} {srv srv' : Server} (done : srv.handleControlMessage x = .ok (ret, srv')) :
    Acts may x srv srv' := by
  obtain ⟨srv₁, controlled, done⟩ := bind_ok.mp done
  have handled : Acts may x srv srv₁ :=
    within_acts (fun _ _ => RtmpSession.handleControlMessage_state) (.inr may_decode) controlled
  cases done
  split
  · refine handled.tail (.note rfl may_decode)
  · exact handled

theorem handleCommandMessage_acts {env : Env} {x : SessionId} {ret : Ret} {srv srv' : Server}
    (command : (srv.sessions x).current.type = 20)
    (done : srv.handleCommandMessage env x = .ok (ret, srv')) :
    Acts (srv.messageGrants x) x srv srv' := by
  obtain ⟨srv₁, cleared, done⟩ := bind_ok.mp done
  obtain ⟨c, read, done⟩ := bind_ok.mp done
  obtain ⟨srv₂, ran, done⟩ := bind_ok.mp done
  cases done
  have allowed : (srv₁.grants x c).Within (srv.messageGrants x) := by
    refine ⟨fun _ => trivial, ?_, id⟩
    rintro url ⟨named, cid, rest, name, rfl⟩
    obtain ⟨s, clearing, rfl⟩ := within_ok cleared
    obtain ⟨cs, _, rfl⟩ := RtmpSession.clearCurrent_ok clearing
    refine ⟨c, ⟨command, read⟩, named, cid, rest, name, ?_⟩
    rw [set_sessions]
    rfl
  exact (clearCurrent_acts trivial cleared).trans (Acts.mono allowed (runCommand_acts ran))

theorem handleChunkStream_acts {env : Env} {x : SessionId} {ret : Ret} {srv srv' : Server}
    (done : srv.handleChunkStream env x = .ok (ret, srv')) :
    Acts (srv.messageGrants x) x srv srv' := by
  unfold handleChunkStream at done
  simp only at done
  split at done
  · exact handleControlMessage_acts trivial done
  split at done
  · exact handleMediaMessage_acts trivial done
  split at done
  · next command => exact handleCommandMessage_acts command done
  · cases done
    exact .refl

theorem messageGrants_decoder {x : SessionId} {srv srv' : Server}
    (decoder : (srv'.sessions x).decoder = (srv.sessions x).decoder)
    (app : (srv'.sessions x).app = (srv.sessions x).app) :
    srv'.messageGrants x = srv.messageGrants x := by
  have current := RtmpSession.current_decoder decoder
  simp only [messageGrants, Carries, Releases, current, app]

/-- The message to be handled is one that makes its handler fail: of a type that has no handler, or
    a media message of a session that transfers no media or whose stream is not registered. -/
def Refused (srv : Server) (x : SessionId) : Prop :=
  ¬ ((srv.sessions x).current.type < 7 ∧ (srv.sessions x).current.streamId = 0) ∧
    (srv.sessions x).current.type ≠ 20 ∧
    ((srv.sessions x).current.type = 8 ∨ (srv.sessions x).current.type = 9 ∨
        (srv.sessions x).current.type = 18 →
      (srv.sessions x).state = .mediaTransfer → srv.streams (srv.sessions x).url = none)

instance (srv : Server) (x : SessionId) : Decidable (srv.Refused x) :=
  inferInstanceAs (Decidable (_ ∧ _ ∧ (_ → _ → _)))

/-- A handler that fails has changed nothing but the session's decoder. -/
theorem handleChunkStream_fail {env : Env} {x : SessionId} {srv srv' : Server}
    (done : srv.handleChunkStream env x = .ok (.fail, srv')) :
    srv.Refused x ∧ srv'.streams = srv.streams ∧
      (srv'.sessions x).url = (srv.sessions x).url := by
  unfold handleChunkStream at done
  simp only at done
  split at done
  · obtain ⟨_, _, rest⟩ := bind_ok.mp done
    cases rest
  next control =>
  split at done
  · next media =>
      have other : (srv.sessions x).current.type ≠ 20 := by
        rintro command
        rw [command] at media
        revert media
        decide
      unfold handleMediaMessage at done
      simp only at done
      split at done
      · next early =>
          cases done
          exact ⟨⟨control, other, fun _ phase => absurd phase early⟩, rfl, rfl⟩
      split at done
      · obtain ⟨_, _, rest⟩ := bind_ok.mp done
        obtain ⟨_, _, rest⟩ := bind_ok.mp rest
        cases rest
      · next absent =>
          obtain ⟨srv₁, cleared, rest⟩ := bind_ok.mp done
          cases rest
          obtain ⟨s, clearing, rfl⟩ := within_ok cleared
          obtain ⟨cs, _, rfl⟩ := RtmpSession.clearCurrent_ok clearing
          refine ⟨⟨control, other, fun _ _ => absent⟩, rfl, ?_⟩
          rw [set_sessions]
          rfl
  next media =>
  split at done
  · obtain ⟨_, _, rest⟩ := bind_ok.mp done
    obtain ⟨_, _, rest⟩ := bind_ok.mp rest
    obtain ⟨_, _, rest⟩ := bind_ok.mp rest
    cases rest
  · next command =>
      cases done
      exact ⟨⟨control, command, fun named => absurd named media⟩, rfl, rfl⟩

theorem dispatch_acts (env : Env) (srv : Server) (x : SessionId) :
    ∃ srv₁, Acts (srv.messageGrants x) x srv srv₁ ∧
      ((srv.dispatch env x).2 = srv₁ ∨
        (srv.dispatch env x).2 = srv₁.close x ∧ (srv.dispatch env x).1 = .fail ∧ srv.Refused x ∧
          srv₁.streams = srv.streams ∧ (srv₁.sessions x).url = (srv.sessions x).url) := by
  unfold dispatch
  split
  · exact ⟨_, (Act.crashed _).acts, .inl rfl⟩
  · next srv₁ counted =>
      obtain ⟨s, counting, rfl⟩ := within_ok counted
      obtain ⟨decoder, state, url, app, _⟩ := RtmpSession.acknowledge_ok counting
      have same : ((srv.set x s).messageGrants x) = srv.messageGrants x := by
        refine messageGrants_decoder ?_ ?_
        · rw [set_sessions, decoder]
        · rw [set_sessions, app]
      have counted : Act (srv.messageGrants x) x srv (srv.set x s) := .own state (.inl decoder)
      simp only
      generalize called : (srv.set x s).emit _ = srv₂
      have calling : Act (srv.messageGrants x) x (srv.set x s) srv₂ := by
        rw [← called]
        exact .note rfl trivial
      have asked : srv₂.messageGrants x = srv.messageGrants x := by
        rw [← same, ← called]
        rfl
      have begun := counted.acts.tail calling
      split
      · exact ⟨_, begun.tail (.crashed _), .inl rfl⟩
      · next ret srv₃ handled =>
          have acts := asked ▸ handleChunkStream_acts handled
          have noted : Act (srv.messageGrants x) x srv₃ (srv₃.emit (.result x ret)) :=
            .note rfl trivial
          refine ⟨srv₃.emit (.result x ret), begun.trans (acts.tail noted), ?_⟩
          split
          · next failed =>
              subst failed
              obtain ⟨refused, streams, named⟩ := handleChunkStream_fail handled
              have session : srv₂.sessions x = s := by
                rw [← called]
                exact set_sessions srv x s
              have current : (srv₂.sessions x).current = (srv.sessions x).current := by
                rw [session]
                exact RtmpSession.current_decoder decoder
              have stored : srv₂.streams = srv.streams := by
                rw [← called]
                rfl
              refine .inr ⟨rfl, rfl, ?_, streams.trans stored, ?_⟩
              · unfold Refused at refused ⊢
                rwa [current, stored, session, state, url] at refused
              · exact named.trans (by rw [session, url])
          · exact .inl rfl

theorem parse_acts {may : Grants} (may_decode : may.decode) (srv : Server) (x : SessionId)
    (buf : Bytes) : Acts may x srv (srv.parse x buf).2.1 := by
  unfold parse
  split
  · exact (Act.crashed _).acts
  · next ret s rest read => exact own_acts (RtmpSession.readChunkStream_keeps read).1 (.inr may_decode)

theorem shake_acts {may : Grants} (env : Env) (srv : Server) (x : SessionId) (buf : Bytes)
    (phase : (srv.sessions x).state = .init ∨ (srv.sessions x).state = .handshakeC2) :
    Acts may x srv (srv.shake env x buf).2.1 := by
  unfold shake
  simp only
  split
  · next init =>
      split
      · exact own_acts rfl (.inl rfl)
      · have phase : Advance x (srv.sessions x).state .handshakeC2 [] := init ▸ .greeted
        simp only
        rw [← emits_nil (srv.set x _)]
        exact advanced_acts phase rfl
  · next late =>
      split
      · exact own_acts rfl (.inl rfl)
      · have phase : Advance x (srv.sessions x).state .connect [.handshakeDone x] :=
          phase.resolve_left late ▸ .shaken
        exact advanced_acts phase rfl

theorem shake_streams (env : Env) (srv : Server) (x : SessionId) (buf : Bytes) :
    (srv.shake env x buf).2.1.streams = srv.streams := by
  unfold shake
  simp only
  split <;> split <;> rfl

end Server

namespace Label

/-- The session a step is about. -/
def session : Label → SessionId
  | .accept x | .receive x _ | .shake x _ | .parse x | .dispatch x _ | .close x => x

end Label

namespace Host

/-- What a step allows before the session may be closed: only the handling of a message can release
    a stream. -/
def grants (host : Host) : Label → Grants
  | .dispatch x _ => host.server.messageGrants x
  | _ => { decode := True }

/-- Why a step ends in closing its session, and what it has left alone until then. -/
inductive Closes (host : Host) : Label → Server → Prop where
  | broken (x : SessionId) : Closes host (.close x) host.server
  | refused {x : SessionId} {env : Env} {srv : Server} (ready : host.Ready x)
      (refused : host.server.Refused x) (streams : srv.streams = host.server.streams)
      (url : (srv.sessions x).url = (host.server.sessions x).url) :
      Closes host (.dispatch x env) srv
  | shaking {x : SessionId} {env : Env} {srv : Server}
      (state : (host.server.sessions x).state = .init ∨
        (host.server.sessions x).state = .handshakeC2)
      (streams : srv.streams = host.server.streams) : Closes host (.shake x env) srv
  | unreadable {x : SessionId} {s : RtmpSession} {rest : Bytes} {srv : Server}
      (read : (host.server.sessions x).readChunkStream (host.recvBuf x) = .ok (.fail, s, rest)) :
      Closes host (.parse x) srv

/-- Every step of the process is a sequence of acts of the session it is about, after which that
    session may be closed. -/
theorem step_acts (host : Host) (l : Label) :
    ∃ srv, Server.Acts (host.grants l) l.session host.server srv ∧
      ((host.step l).server = srv ∨
        (host.step l).server = srv.close l.session ∧ host.Closes l srv) := by
  unfold step
  split
  · next running =>
    cases l with
    | accept x =>
        simp only [perform]
        split
        · refine ⟨_, ?_, .inl rfl⟩
          exact Server.own_acts rfl (.inl rfl)
        · exact ⟨_, .refl, .inl rfl⟩
    | receive x data =>
        simp only [perform]
        split <;> exact ⟨_, .refl, .inl rfl⟩
    | shake x env =>
        simp only [perform]
        split
        · next enabled =>
            refine ⟨_, Server.shake_acts env host.server x (host.recvBuf x) enabled.2, ?_⟩
            split
            · exact .inr ⟨rfl, .shaking enabled.2 (Server.shake_streams env host.server x _)⟩
            · exact .inl rfl
        · exact ⟨_, .refl, .inl rfl⟩
    | parse x =>
        simp only [perform]
        split
        · refine ⟨_, Server.parse_acts trivial host.server x (host.recvBuf x), ?_⟩
          split
          · next failed =>
              refine .inr ⟨rfl, ?_⟩
              unfold Server.parse at failed
              split at failed
              · cases failed.1
              · next ret s rest read =>
                  obtain ⟨_, rfl⟩ := failed
                  exact .unreadable read
          · exact .inl rfl
        · exact ⟨_, .refl, .inl rfl⟩
    | dispatch x env =>
        simp only [perform]
        split
        · next ready =>
            obtain ⟨srv, acts, done⟩ := Server.dispatch_acts env host.server x
            refine ⟨srv, acts, done.imp_right ?_⟩
            exact fun ⟨closed, _, refused, streams, url⟩ =>
              ⟨closed, .refused ready refused streams url⟩
        · exact ⟨_, .refl, .inl rfl⟩
    | close x => exact ⟨_, .refl, .inr ⟨rfl, .broken x⟩⟩
  · exact ⟨_, .refl, .inl rfl⟩

/-- What a step allows, the closing included. -/
def closingGrants (host : Host) (l : Label) : Grants := { host.grants l with close := True }

theorem step_acts_close (host : Host) (l : Label) :
    Server.Acts (host.closingGrants l) l.session host.server (host.step l).server := by
  obtain ⟨srv, acts, done⟩ := host.step_acts l
  have allowed : (host.grants l).Within (host.closingGrants l) :=
    ⟨id, fun _ => id, fun _ => trivial⟩
  have acts := Server.Acts.mono allowed acts
  obtain done | ⟨done, _⟩ := done <;> rw [done]
  · exact acts
  · exact acts.trans (Server.close_acts trivial srv)

end Host

/-- What every act preserves holds in every state of every run. -/
theorem Reachable.of_acts {recordForce : Bool} {P : Server → Prop}
    (start : P { recordForce })
    (preserved : ∀ {may x srv srv'}, P srv → Server.Act may x srv srv' → P srv')
    {host : Host} (reached : (machine recordForce).Reachable host) : P host.server :=
  reached.invariant (P := fun host => P host.server) start fun host l holds =>
    Server.Acts.invariant (fun _ _ => preserved) (host.step_acts_close l) holds

end DroneServer
