import DroneServer.Rtmp.Outcome
import DroneServer.Rtmp.Peer
import DroneServer.Rtmp.Registry

/-! # What a publisher is told

`publish` answers with NetStream.Publish.Start and moves the session on whatever
`join` returned. So the answer is true exactly when the stream of that name had
no publisher.
-/

namespace DroneServer

namespace Server

/-- The message to be handled is a `publish` for this url, and the session may publish. -/
def AsksToPublish (srv : Server) (x : SessionId) (url : Bytes) : Prop :=
  (srv.sessions x).state = .publishPlay ∧ ∃ c cid app, srv.Carries x c ∧
    c.name = ascii "publish" ∧ PublishArgs c.args cid app ∧ url = urlOf app cid

theorem AsksToPublish.unique {srv : Server} {x : SessionId} {url url' : Bytes}
    (asks : srv.AsksToPublish x url) (again : srv.AsksToPublish x url') : url = url' := by
  obtain ⟨_, c, cid, app, ⟨_, read⟩, _, ⟨sb, type, rest, name, typed, rfl⟩, rfl⟩ := asks
  obtain ⟨_, c', cid', app', ⟨_, read'⟩, _, ⟨sb', type', rest', name', typed', rfl⟩, rfl⟩ := again
  cases read.symm.trans read'
  cases name.symm.trans name'
  cases typed.symm.trans typed'
  rfl

/-- From one server to the other nobody was told that it publishes. -/
def Untold (srv srv' : Server) : Prop :=
  ∃ es, srv'.log = srv.log ++ es ∧ ∀ y, Event.published y ∉ es

variable {srv srv₁ srv₂ srv' : Server} {x : SessionId}

theorem Untold.same (log : srv'.log = srv.log) : srv.Untold srv' :=
  ⟨[], by rw [log, List.append_nil], fun _ => List.not_mem_nil⟩

theorem Untold.noted (es : List Event) (log : srv'.log = srv.log ++ es)
    (other : ∀ y, Event.published y ∉ es) : srv.Untold srv' := ⟨es, log, other⟩

theorem Untold.trans (first : srv.Untold srv₁) (second : srv₁.Untold srv') : srv.Untold srv' := by
  obtain ⟨es, log, none⟩ := first
  obtain ⟨more, log', none'⟩ := second
  refine ⟨es ++ more, by rw [log', log, List.append_assoc], fun y inside => ?_⟩
  exact (List.mem_append.mp inside).elim (none y) (none' y)

theorem close_untold (srv : Server) (x : SessionId) : srv.Untold (srv.close x) := by
  unfold close
  split
  · simp only
    split
    · next closed =>
        obtain ⟨srv₁, leaving, closed⟩ := bind_ok.mp closed
        cases closed
        obtain ⟨_, rfl⟩ | ⟨st, _, same⟩ := leaveStream_quiet leaving
        · exact .same rfl
        · exact .noted _ (quiet_log same) (by simp)
    · exact .same rfl
  · exact .same rfl

theorem shake_untold (env : Env) (srv : Server) (x : SessionId) (buf : Bytes) :
    srv.Untold (srv.shake env x buf).2.1 := by
  unfold shake
  simp only
  split
  · split <;> exact .same rfl
  · split
    · exact .same rfl
    · exact .noted [.handshakeDone x] rfl (by simp)

theorem Counted.untold (counted : srv.Counted x srv₁) : srv.Untold srv₁ := by
  obtain ⟨_, _, same⟩ := counted
  exact .noted _ (quiet_log same) (by simp [calling])

/-- Only a `publish` is answered so; it has joined the stream of its url as its publisher, as far
    as that let it. -/
theorem Ran.told {c : Command} (ran : srv.Ran x c srv') :
    srv.Untold srv' ∨ ∃ cid app st srv₁, c.name = ascii "publish" ∧
      (srv.sessions x).state = .publishPlay ∧ (srv.sessions x).maxChunkSize ≠ 0 ∧
      PublishArgs c.args cid app ∧
      (srv.set x { srv.sessions x with app, cid, url := urlOf app cid }).findStream
        (urlOf app cid) = .ok (st, srv₁) ∧
      srv' = srv₁.joined x (urlOf app cid) st true := by
  cases ran with
  | connected | created => exact .inl (.noted _ rfl (by simp))
  | released | renamed | ignored => exact .inl (.same rfl)
  | unpublished => exact .inl (.noted _ rfl (by simp))
  | @published cid app st srv₁ named phase room args found =>
      exact .inr ⟨cid, app, st, srv₁, named, phase, room, args, found, rfl⟩
  | @played cid st srv₁ named phase args found =>
      refine .inl ?_
      have log : srv₁.log = srv.log := by
        obtain ⟨_, rfl⟩ | ⟨_, _, _, _, _, _, _, _, _, log⟩ := findStream_ok found
        · rfl
        · exact log
      refine .noted [.join x st.ref false (st.join x false).1, .played x] ?_ (by simp)
      rw [← log]
      rfl

/-- The session is about to join a stream under this url, registered before or just made. -/
structure Enters (srv : Server) (x : SessionId) (url : Bytes) (st : RtmpStream) (srv₁ : Server) :
    Prop where
  found : srv.streams url = some st ∨ srv.streams url = none ∧ st.publisher = none
  named : (srv₁.sessions x).url = url
  untold : srv.Untold srv₁

theorem Enters.of_findStream {url : Bytes} {st : RtmpStream} (streams : srv.streams = srv'.streams)
    (named : (srv.sessions x).url = url) (untold : srv'.Untold srv)
    (found : srv.findStream url = .ok (st, srv₁)) : srv'.Enters x url st srv₁ := by
  obtain ⟨found, rfl⟩ | ⟨absent, _, _, free, _, _, _, _, sessions, log⟩ := findStream_ok found
  · exact ⟨.inl (streams ▸ found), named, untold⟩
  · exact ⟨.inr ⟨streams ▸ absent, free⟩, sessions ▸ named, untold.trans (.same log)⟩

theorem Outcome.told {ret : Ret} (outcome : srv.Outcome x ret srv') :
    srv.Untold srv' ∨ ∃ url st srv₁, srv.AsksToPublish x url ∧
      (srv.sessions x).maxChunkSize ≠ 0 ∧ srv.Enters x url st srv₁ ∧ ret = .ok ∧
      srv' = srv₁.joined x url st true := by
  cases outcome with
  | control control done =>
      refine .inl (.noted _ rfl fun y => ?_)
      split <;> simp
  | relayed present found phase accepted =>
      refine .inl (.noted _ rfl fun y => ?_)
      simp [relayEvents]
  | unheard | unrouted | refused => exact .inl (.same rfl)
  | @command cs c _ present carries ran =>
      obtain untold | ⟨cid, app, st, srv₁, named, phase, room, args, found, rfl⟩ := ran.told
      · exact .inl untold
      · have state : ((srv.cleared x cs).sessions x).state = (srv.sessions x).state := by
          rw [cleared, set_sessions]
          rfl
        have size : ((srv.cleared x cs).sessions x).maxChunkSize = (srv.sessions x).maxChunkSize := by
          rw [cleared, set_sessions]
          rfl
        rw [state] at phase
        rw [size] at room
        have enters : srv.Enters x (urlOf app cid) st srv₁ := by
          refine .of_findStream ?_ ?_ ?_ found
          · rfl
          · rw [set_sessions]
          · exact .same rfl
        exact .inr ⟨urlOf app cid, st, srv₁, ⟨phase, c, cid, app, carries, named, args, rfl⟩, room,
          enters, rfl, rfl⟩

theorem Counted.asks (counted : srv.Counted x srv₁) {url : Bytes} :
    srv₁.AsksToPublish x url ↔ srv.AsksToPublish x url := by
  simp only [AsksToPublish, Carries, RtmpSession.current_decoder counted.decoder, counted.state]

theorem dispatch_told (env : Env) (srv : Server) (x : SessionId) :
    srv.Untold (srv.dispatch env x).2 ∨ ∃ url st srv₁, srv.AsksToPublish x url ∧
      (srv.sessions x).maxChunkSize ≠ 0 ∧ srv.Enters x url st srv₁ ∧
      (srv.dispatch env x).2.quiet = ((srv₁.joined x url st true).emits [.result x .ok]).quiet := by
  obtain ⟨f, srv₁, done, begun⟩ | ⟨ret, srv₁, srv₂, srv₃, counted, outcome, _, same, done⟩ :=
    dispatch_outcome env srv x <;> rw [done]
  · obtain rfl | counted := begun
    · exact .inl (.same rfl)
    · exact .inl counted.untold
  · obtain untold | ⟨url, st, srv₄, asks, room, enters, rfl, rfl⟩ := outcome.told
    · have noted : srv₂.Untold srv₃ := .noted _ (quiet_log same) (by simp)
      have before := (counted.untold.trans untold).trans noted
      simp only
      split
      · exact .inl (before.trans (close_untold srv₃ x))
      · exact .inl before
    · have size : (srv₁.sessions x).maxChunkSize = (srv.sessions x).maxChunkSize :=
        congrArg (·.maxChunkSize) counted.decoder
      exact .inr ⟨url, st, srv₄, counted.asks.mp asks, size ▸ room,
        ⟨counted.streams ▸ enters.found, enters.named, counted.untold.trans enters.untold⟩, same⟩

end Server

namespace Host

/-- The step answers session `x` with NetStream.Publish.Start. -/
def Acknowledges (host : Host) (l : Label) (x : SessionId) : Prop :=
  ∃ es, (host.step l).server.log = host.server.log ++ es ∧ .published x ∈ es

/-- The session transfers media, and is the publisher of the stream registered under its url. -/
def Publishes (host : Host) (x : SessionId) : Prop :=
  (host.server.sessions x).state = .mediaTransfer ∧
    ∃ st, host.server.streams (host.server.sessions x).url = some st ∧ st.publisher = some x

/-- Whoever the step answers so is the publisher of its stream after it. -/
def Truthful (host : Host) (l : Label) : Prop :=
  ∀ x, host.Acknowledges l x → (host.step l).Publishes x

/-- If the step handles a `publish` whose answer can be sent, the stream of that name has no
    publisher. -/
def Vacant (host : Host) : Label → Prop
  | .dispatch x _ => host.server.crashed = none → host.Ready x →
      (host.server.sessions x).maxChunkSize ≠ 0 → ∀ url, host.server.AsksToPublish x url →
        ∀ st, host.server.streams url = some st → st.publisher = none
  | _ => True

/-- A step that answers a `publish` has handled it, and the session has joined the stream of that
    name as far as `join` let it. -/
theorem acknowledged {host : Host} {l : Label} {y : SessionId} (told : host.Acknowledges l y) :
    ∃ env url st, l = .dispatch y env ∧ host.server.crashed = none ∧ host.Ready y ∧
      host.server.AsksToPublish y url ∧ (host.server.sessions y).maxChunkSize ≠ 0 ∧
      (host.server.streams url = some st ∨
        host.server.streams url = none ∧ st.publisher = none) ∧
      ((host.step l).server.sessions y).state = .mediaTransfer ∧
      ((host.step l).server.sessions y).url = url ∧
      (host.step l).server.streams url = some (st.join y true).2 := by
  obtain ⟨es, log, inside⟩ := told
  have silent : ¬ host.server.Untold (host.step l).server := by
    rintro ⟨es', log', other⟩
    rw [log, List.append_cancel_left_eq] at log'
    exact other y (log' ▸ inside)
  unfold step at log silent ⊢
  by_cases running : host.server.crashed = none
  · rw [if_pos running] at log silent ⊢
    cases l with
    | accept x | receive x data =>
        refine absurd (Server.Untold.same ?_) silent
        simp only [perform]
        split <;> rfl
    | shake x env =>
        refine absurd ?_ silent
        have shaken := Server.shake_untold env host.server x (host.recvBuf x)
        simp only [perform]
        split
        · split
          · exact shaken.trans (Server.close_untold _ x)
          · exact shaken
        · exact .same rfl
    | parse x =>
        refine absurd ?_ silent
        have parsed : host.server.Untold (host.server.parse x (host.recvBuf x)).2.1 := by
          unfold Server.parse
          split <;> exact .same rfl
        simp only [perform]
        split
        · split
          · exact parsed.trans (Server.close_untold _ x)
          · exact parsed
        · exact .same rfl
    | close x => exact absurd (Server.close_untold host.server x) silent
    | dispatch x env =>
        simp only [perform] at log silent ⊢
        by_cases ready : host.Ready x
        · rw [if_pos ready] at log silent ⊢
          obtain untold | ⟨url, st, srv₁, asks, room, enters, same⟩ :=
            Server.dispatch_told env host.server x
          · exact absurd untold silent
          · obtain ⟨before, begun, other⟩ := enters.untold
            have told := (Server.quiet_log same).symm.trans log
            simp only [Server.joined, Server.emits, Server.set, Server.setStream, begun,
              List.append_assoc, List.append_cancel_left_eq] at told
            have self : y = x := by
              rw [← told] at inside
              simpa [other y] using inside
            subst self
            refine ⟨env, url, st, rfl, running, ready, asks, room, enters.found, ?_, ?_, ?_⟩
            · rw [Server.quiet_state same]
              simp only [Server.joined, Server.emits, Server.set_sessions]
            · have named := congrArg RtmpSession.url (Server.quiet_session same y)
              refine named.trans ?_
              simp only [Server.joined, Server.emits, Server.set_sessions]
              exact enters.named
            · rw [Server.quiet_streams same]
              exact Function.update_self ..
        · rw [if_neg ready] at silent
          exact absurd (Server.Untold.same rfl) silent
  · rw [if_neg running] at silent
    exact absurd (Server.Untold.same rfl) silent

theorem Vacant.truthful {host : Host} {l : Label} (vacant : host.Vacant l) : host.Truthful l := by
  intro x told
  obtain ⟨env, url, st, rfl, running, ready, asks, room, entered, state, named, joined⟩ :=
    acknowledged told
  have free : st.publisher = none := by
    obtain found | ⟨_, free⟩ := entered
    · exact vacant running ready room url asks st found
    · exact free
  refine ⟨state, (st.join x true).2, by rw [named, joined], ?_⟩
  obtain ⟨_, _, taken⟩ | ⟨_, _, done⟩ := st.join_cases x true
  · rw [free] at taken
    cases taken
  · rw [done]
    rfl

end Host

namespace Server

variable {srv : Server} {x : SessionId}

theorem returns_bind {α β : Type} {part : Except Fault α} {value : α} (first : part = .ok value)
    {next : α → Except Fault β} (rest : ∃ result, next value = .ok result) :
    ∃ result, (part >>= next) = .ok result := by
  rw [first]
  exact rest

theorem within_room {f : RtmpSession → Except Fault RtmpSession}
    (sends : ∀ s, s.maxChunkSize ≠ 0 → ∃ s', f s = .ok s' ∧ s'.maxChunkSize = s.maxChunkSize)
    (room : (srv.sessions x).maxChunkSize ≠ 0) :
    ∃ srv', srv.within x f = .ok srv' ∧ (srv'.sessions x).maxChunkSize ≠ 0 := by
  obtain ⟨s', ran, size⟩ := sends _ room
  refine ⟨srv.set x s', by rw [within, ran]; rfl, ?_⟩
  rw [set_sessions, size]
  exact room

theorem joinStream_found (publisher : Bool) {st : RtmpStream}
    (found : srv.streams (srv.sessions x).url = some st) :
    ∃ srv', srv.joinStream x publisher = .ok srv' ∧ srv'.sessions = srv.sessions := by
  have done : srv.joinStream x publisher = .ok ((srv.setStream (srv.sessions x).url
      (some (st.join x publisher).2)).emit (.join x st.ref publisher (st.join x publisher).1)) := by
    simp only [joinStream, findStream, found]
    rfl
  exact ⟨_, done, rfl⟩

theorem commandPublish_answers {sb : SimpleBuffer} {cid app : Bytes} {st : RtmpStream}
    (args : PublishArgs sb cid app) (room : (srv.sessions x).maxChunkSize ≠ 0)
    (found : srv.streams (urlOf app cid) = some st) :
    ∃ srv', srv.commandPublish x sb = .ok srv' := by
  obtain ⟨sb', type, rest, name, read, rfl⟩ := args
  refine returns_bind name (returns_bind read ?_)
  simp only
  generalize named : srv.set x _ = srv₁
  have session : srv₁.sessions x = { srv.sessions x with
      app := type.getD [], cid, url := urlOf (type.getD []) cid } := by
    rw [← named, set_sessions]
  have found' : srv₁.streams (srv₁.sessions x).url = some st := by
    rw [session, ← named]
    exact found
  obtain ⟨srv₂, joined, sessions⟩ := joinStream_found true found'
  have room₂ : (srv₂.sessions x).maxChunkSize ≠ 0 := by
    rw [sessions, session]
    exact room
  obtain ⟨srv₃, begun, room₃⟩ := within_room
    (fun s room => RtmpSession.writeChunk_room room 2 0 0 4 0 _ true) room₂
  obtain ⟨srv₄, told, _⟩ := within_room
    (fun s room => RtmpSession.writeChunk_room room 3 0 0 20 0 _ false) room₃
  exact returns_bind joined (returns_bind begun (returns_bind told ⟨_, rfl⟩))

theorem acknowledge_room {s : RtmpSession} (room : s.maxChunkSize ≠ 0) :
    ∃ s', s.acknowledge = .ok s' ∧ s'.maxChunkSize = s.maxChunkSize := by
  unfold RtmpSession.acknowledge
  simp only
  split
  · obtain ⟨s', sent, size⟩ := RtmpSession.writeChunk_room (s := { s with
      ackRecv := s.ackRecv + UInt32.ofNat s.current.data.length
      ackRecvTotal := s.ackRecvTotal + UInt32.ofNat s.current.data.length }) room 2 0 0 3 0
        (Endian.toBE32 (s.ackRecvTotal + UInt32.ofNat s.current.data.length)) true
    refine ⟨{ s' with ackRecv := 0 }, ?_, size⟩
    simp only [RtmpSession.sendAck, RtmpSession.sendControl, sent]
    rfl
  · exact ⟨_, rfl, rfl⟩

theorem runCommand_answers (env : Env) {c : Command} {cid app : Bytes} {st : RtmpStream}
    (named : c.name = ascii "publish") (phase : (srv.sessions x).state = .publishPlay)
    (args : PublishArgs c.args cid app) (room : (srv.sessions x).maxChunkSize ≠ 0)
    (found : srv.streams (urlOf app cid) = some st) :
    ∃ srv', srv.runCommand env x c = .ok srv' ∧
      ∃ es, srv'.log = srv.log ++ es ∧ .published x ∈ es := by
  obtain ⟨srv', done⟩ := commandPublish_answers args room found
  have release : ascii "publish" ≠ ascii "releaseStream" := by decide
  have delete : ascii "publish" ≠ ascii "deleteStream" := by decide
  have announce : ascii "publish" ≠ ascii "FCPublish" := by decide
  have withdraw : ascii "publish" ≠ ascii "FCUnpublish" := by decide
  have measure : ascii "publish" ≠ ascii "getStreamLength" := by decide
  refine ⟨srv', ?_, ?_⟩
  · simp only [runCommand, phase, named, reduceCtorEq, and_false, and_true, if_false, if_true,
      release, delete, announce, withdraw, measure, done]
  · obtain ⟨cid', app', st', srv₁, _, _, found', same⟩ := commandPublish_ran done
    have log : srv₁.log = srv.log := by
      obtain ⟨_, rfl⟩ | ⟨_, _, _, _, _, _, _, _, _, log⟩ := findStream_ok found'
      · rfl
      · exact log
    refine ⟨[.join x st'.ref true (st'.join x true).1, .published x], ?_, by simp⟩
    rw [quiet_log same, ← log]
    rfl

/-- A message that asks to publish under the url of a registered stream is answered, if the session
    has room to write. -/
theorem dispatch_answers (env : Env) {url : Bytes} {st : RtmpStream}
    (asks : srv.AsksToPublish x url) (room : (srv.sessions x).maxChunkSize ≠ 0)
    (found : srv.streams url = some st) :
    ∃ es, (srv.dispatch env x).2.log = srv.log ++ es ∧ .published x ∈ es := by
  obtain ⟨phase, c, cid, app, ⟨type, read⟩, named, args, rfl⟩ := asks
  obtain ⟨s, counting, size⟩ := acknowledge_room room
  have counted : srv.within x (·.acknowledge) = .ok (srv.set x s) := by
    rw [within, counting]
    rfl
  obtain ⟨decoder, state, _⟩ := RtmpSession.acknowledge_ok counting
  have current := RtmpSession.current_decoder decoder
  -- a message of type 20 is in an entry of `cs_in`: a missing one reads as type 0
  obtain ⟨cs, present⟩ : ∃ cs, s.csIn s.csid = some cs := by
    rw [← Option.ne_none_iff_exists']
    intro absent
    rw [← current, RtmpSession.current, absent] at type
    cases type
  simp only [dispatch, counted]
  generalize called : (srv.set x s).emit _ = srv₁
  have session : srv₁.sessions x = s := by
    rw [← called]
    exact set_sessions srv x s
  have cleared : srv₁.within x (·.clearCurrent) = .ok (srv₁.cleared x cs) := by
    simp only [within, session, RtmpSession.clearCurrent, present, Server.cleared]
    rfl
  have room' : ((srv₁.cleared x cs).sessions x).maxChunkSize ≠ 0 := by
    rw [Server.cleared, set_sessions, session]
    exact size ▸ room
  have phase' : ((srv₁.cleared x cs).sessions x).state = .publishPlay := by
    rw [Server.cleared, set_sessions, session]
    exact state.trans phase
  have found' : (srv₁.cleared x cs).streams (urlOf app cid) = some st := by
    rw [← called]
    exact found
  obtain ⟨srv₂, ran, es, log, told⟩ := runCommand_answers env named phase' args room' found'
  have handled : srv₁.handleChunkStream env x = .ok (.ok, srv₂) := by
    have commands : srv₁.handleChunkStream env x = srv₁.handleCommandMessage env x := by
      simp only [handleChunkStream, session, current, type]
      rfl
    have payload : (srv₁.sessions x).current.data = (srv.sessions x).current.data := by
      rw [session, current]
    rw [commands, handleCommandMessage, payload, cleared]
    exact bind_ok.mpr ⟨_, rfl, bind_ok.mpr ⟨c, read, bind_ok.mpr ⟨srv₂, ran, rfl⟩⟩⟩
  simp only [handled, reduceCtorEq, if_false]
  obtain ⟨e, begun⟩ : ∃ e, srv₁.log = srv.log ++ [e] := ⟨_, by rw [← called]; rfl⟩
  have stored : (srv₁.cleared x cs).log = srv₁.log := rfl
  refine ⟨e :: es ++ [.result x .ok], ?_, by simp [told]⟩
  rw [emit, log, stored, begun]
  simp only [List.append_assoc, List.cons_append, List.nil_append]

end Server

namespace Host

variable {recordForce : Bool} {host : Host} {l : Label}

theorem Truthful.vacant (reached : (machine recordForce).Reachable host)
    (truthful : host.Truthful l) : host.Vacant l := by
  cases l with
  | accept | receive | shake | parse | close => trivial
  | dispatch x env =>
      intro running ready room url asks st found
      have step : host.step (.dispatch x env) =
          { host with server := (host.server.dispatch env x).2 } := by
        rw [step, if_pos running, perform, if_pos ready]
      have told : host.Acknowledges (.dispatch x env) x := by
        unfold Acknowledges
        rw [step]
        exact Server.dispatch_answers env asks room found
      obtain ⟨_, st', found', publishes⟩ := truthful x told
      obtain ⟨_, url', st₁, _, _, _, asks', _, entered, _, named, joined⟩ := acknowledged told
      obtain rfl := asks.unique asks'
      rw [named, joined] at found'
      cases found'
      obtain found₁ | ⟨absent, _⟩ := entered
      · rw [found] at found₁
        cases found₁
        obtain ⟨refused, _⟩ | ⟨_, free, _⟩ := st.join_cases x true
        · -- a session that may publish is in no stream, so it cannot be the one that holds the name
          rw [refused] at publishes
          have reg := Registry.reachable reached
          have inside := (reg.sound found).hosted x publishes
          rcases reg.entered found inside with state | state <;> rw [asks.1] at state <;> cases state
        · exact free rfl
      · rw [found] at absent
        cases absent

end Host

/-- In a run, every session that is answered with NetStream.Publish.Start is at that moment the
    publisher of the stream registered under its url, exactly when no `publish` that can be
    answered was for a name whose stream had a publisher. -/
theorem publish_acknowledged_truthfully (recordForce : Bool) (labels : List Label) :
    (machine recordForce).Steps Host.Truthful labels ↔
      (machine recordForce).Steps Host.Vacant labels :=
  ⟨Machine.Steps.mono fun _ _ reached => Host.Truthful.vacant reached,
    Machine.Steps.mono fun _ _ _ => Host.Vacant.truthful⟩

/-- Two sessions, and a `publish` of each for `live/1`, the second still to be handled. -/
def publishedTwice : List Label :=
  Peer.enter 1 "live" ++ Peer.deliver 1 (Peer.publish "1" "live") ++ Peer.enter 2 "live" ++
    [.receive 2 (Peer.publish "1" "live"), .parse 2]

set_option maxRecDepth 4000 in
/-- The second is answered as the first was, and publishes nothing. -/
theorem publish_acknowledged_to_second :
    ¬ ∀ labels : List Label, (machine false).Steps Host.Truthful labels := by
  intro all
  have truthful := all (publishedTwice ++ [.dispatch 2 Peer.env]) publishedTwice
    (.dispatch 2 Peer.env) (List.prefix_refl _)
  have grown : ∀ {l l' : List Event}, l'.take l.length = l → l' = l ++ l'.drop l.length := by
    intro l l' same
    rw [← List.take_append_drop l.length l', same]
    simp only [List.drop_left]
  obtain ⟨kept, told, held⟩ : let host := (machine false).run publishedTwice
      let after := (host.step (.dispatch 2 Peer.env)).server
      after.log.take host.server.log.length = host.server.log ∧
        .published 2 ∈ after.log.drop host.server.log.length ∧
        (after.streams (after.sessions 2).url).map (·.publisher) = some (some 1) := by
    decide +kernel
  obtain ⟨_, st, found, publishes⟩ := truthful 2 ⟨_, grown kept, told⟩
  rw [found, Option.map_some, publishes] at held
  cases held

end DroneServer
