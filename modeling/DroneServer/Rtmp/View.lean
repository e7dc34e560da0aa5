import DroneServer.Rtmp.Act
import DroneServer.Rtmp.Chunk

/-! # What a step does to the decoders

The `view` of a server is every session's decoder and the record of calls and
chunk sizes. Only two kinds of step change it: reading a chunk, and handling a
completed message. `dispatch_view` says exactly what handling does, whatever the
message; no other session's decoder is ever touched.
-/

namespace DroneServer

structure View where
  decoders : SessionId → RtmpSession.Decoder
  events : List Event

namespace Server

def view (srv : Server) : View where
  decoders x := (srv.sessions x).decoder
  events := srv.log.filter Event.routine

/-- The view with another decoder for one session and more events. -/
def viewWith (srv : Server) (x : SessionId) (d : RtmpSession.Decoder) (es : List Event) : View where
  decoders := Function.update srv.view.decoders x d
  events := srv.view.events ++ es

theorem view_set (srv : Server) (x : SessionId) (s : RtmpSession) :
    (srv.set x s).view = srv.viewWith x s.decoder [] := by
  simp only [view, viewWith, set, List.append_nil]
  congr 1
  funext y
  by_cases self : y = x
  · subst self
    simp only [Function.update_self]
  · simp only [Function.update_of_ne self]

theorem viewWith_self (srv : Server) (x : SessionId) :
    srv.viewWith x (srv.sessions x).decoder [] = srv.view := by
  rw [← view_set, set_self]

theorem view_keep (srv : Server) {x : SessionId} {s : RtmpSession}
    (decoder : s.decoder = (srv.sessions x).decoder) : (srv.set x s).view = srv.view := by
  rw [view_set, decoder, viewWith_self]

theorem view_emits (srv : Server) (es : List Event) : (srv.emits es).view =
    { srv.view with events := srv.view.events ++ es.filter Event.routine } := by
  simp only [view, emits, List.filter_append]

theorem view_emits_silent (srv : Server) {es : List Event} (silent : es.filter Event.routine = []) :
    (srv.emits es).view = srv.view := by
  rw [view_emits, silent, List.append_nil]

theorem quiet_view {srv srv' : Server} (same : srv'.quiet = srv.quiet) : srv'.view = srv.view :=
  quiet_agree same view fun _ => rfl

private theorem advance_silent {x : SessionId} {before after : SessionState} {es : List Event}
    (phase : Advance x before after es) : es.filter Event.routine = [] := by
  cases phase <;> rfl

private theorem relaying_silent (x : SessionId) (ref : Nat) (pkt : MediaPacket)
    (writes : List (SessionId × MediaPacket)) :
    (Event.cached x ref pkt :: relayEvents x ref writes).filter Event.routine = [] := by
  refine List.filter_eq_nil_iff.mpr fun e inside => ?_
  rcases List.mem_cons.mp inside with rfl | inside
  · exact Bool.false_ne_true
  · obtain ⟨⟨peer, written⟩, _, rfl⟩ := List.mem_map.mp inside
    exact Bool.false_ne_true

theorem Act.view {may : Grants} (may_not : ¬ may.decode) {x : SessionId} {srv srv' : Server}
    (act : Act may x srv srv') : srv'.view = srv.view := by
  cases act with
  | wrote same => exact quiet_view same
  | note _ allowed => exact absurd allowed may_not
  | own _ decoder => exact view_keep srv (decoder.resolve_right may_not)
  | advanced phase decoder =>
      rw [view_emits_silent _ (advance_silent phase), view_keep srv decoder]
  | released => rfl
  | @departed st found =>
      have silent : [Event.leave x st.ref].filter Event.routine = [] := rfl
      exact (view_emits_silent _ silent).trans rfl
  | closed => exact view_keep srv rfl
  | @entered srv₁ st publisher found phase =>
      have same : srv₁.view = srv.view := by
        obtain ⟨_, rfl⟩ | ⟨_, _, _, _, _, _, _, _, sessions, log⟩ := findStream_ok found
        · rfl
        · simp only [Server.view, sessions, log]
      have silent : [Event.join x st.ref publisher (st.join x publisher).1,
          if publisher then .published x else .played x].filter Event.routine = [] := by
        cases publisher <;> rfl
      rw [joined, view_emits_silent _ silent, ← same]
      exact view_keep (srv₁.setStream _ _) rfl
  | relayed => exact view_emits_silent _ (relaying_silent x _ _ _)
  | crashed => rfl

theorem Acts.view {may : Grants} (may_not : ¬ may.decode) {x : SessionId} {srv srv' : Server}
    (acts : Acts may x srv srv') : srv'.view = srv.view :=
  Acts.invariant (P := fun s => s.view = srv.view) (fun _ _ same act => (act.view may_not).trans same)
    acts rfl

theorem viewWith_set (srv : Server) (x : SessionId) (s : RtmpSession) (d : RtmpSession.Decoder)
    (es : List Event) : (srv.set x s).viewWith x d es = srv.viewWith x d es := by
  simp only [viewWith, view_set, Function.update_idem, List.append_nil]

theorem viewWith_viewWith {srv srv' : Server} {x : SessionId} {d : RtmpSession.Decoder}
    {es : List Event} (view : srv'.view = srv.viewWith x d es) (d' : RtmpSession.Decoder)
    (es' : List Event) : srv'.viewWith x d' es' = srv.viewWith x d' (es ++ es') := by
  simp only [viewWith, view, Function.update_idem, List.append_assoc]

theorem viewWith_congr {srv srv' : Server} (same : srv'.view = srv.view) (x : SessionId)
    (d : RtmpSession.Decoder) (es : List Event) : srv'.viewWith x d es = srv.viewWith x d es :=
  viewWith_viewWith (same.trans (viewWith_self srv x).symm) d es

theorem view_emit_with {srv srv' : Server} {x : SessionId} {d : RtmpSession.Decoder}
    {es : List Event} (view : srv'.view = srv.viewWith x d es) {e : Event} (routine : e.routine) :
    (srv'.emit e).view = srv.viewWith x d (es ++ [e]) := by
  have noted : [e].filter Event.routine = [e] := by simp [routine]
  rw [emit_eq, view_emits, noted, view]
  simp only [viewWith, List.append_assoc]

theorem commandConnect_view {srv srv' : Server} {x : SessionId} {sb : SimpleBuffer}
    (done : srv.commandConnect x sb = .ok srv') :
    srv'.view = srv.viewWith x { (srv.sessions x).decoder with maxChunkSize := 4096 }
      [.announce x 4096] := by
  obtain ⟨app, srv₁, srv₂, _, stored, answered, rfl⟩ := commandConnect_ok done
  have sized := (quiet_view stored).trans (view_set srv x _)
  refine (view_emits_silent _ rfl).trans (Eq.trans ?_ (view_emit_with sized rfl))
  rw [← quiet_view answered]
  exact view_keep srv₂ rfl

/-- The message is a protocol control message. -/
def Control (srv : Server) (x : SessionId) : Prop :=
  (srv.sessions x).current.type < 7 ∧ (srv.sessions x).current.streamId = 0

/-- The message is a `connect` that is accepted. -/
def Connecting (srv : Server) (x : SessionId) : Prop := ∃ c, srv.Carries x c ∧ srv.Connects x c

instance (srv : Server) (x : SessionId) : Decidable (srv.Control x) :=
  inferInstanceAs (Decidable (_ ∧ _))

instance (srv : Server) (x : SessionId) : Decidable (srv.Connecting x) :=
  match read : readCommand (srv.sessions x).current.data with
  | .ok c =>
      decidable_of_iff ((srv.sessions x).current.type = 20 ∧ c.name = ascii "connect" ∧
        (srv.sessions x).state = .connect) <| by
        constructor
        · exact fun ⟨command, connects⟩ => ⟨c, ⟨command, read⟩, connects⟩
        · rintro ⟨c', ⟨command, again⟩, connects⟩
          rw [read] at again
          cases again
          exact ⟨command, connects⟩
  | .error _ => .isFalse <| by
      rintro ⟨c, ⟨_, again⟩, _⟩
      rw [read] at again
      cases again

/-- How a handler that returns leaves the decoder, and the chunk sizes it notes. -/
inductive Handled (srv : Server) (x : SessionId) : Ret → RtmpSession.Decoder → List Event → Prop where
  | sized {cs : RtmpChunkStream} {size : UInt32} (control : srv.Control x)
      (type : (srv.sessions x).current.type = 1)
      (read : RtmpSession.wordAt (srv.sessions x).current.data 0 = .ok size)
      (present : (srv.sessions x).csIn (srv.sessions x).csid = some cs) :
      Handled srv x .ok { (srv.sessions x).decoder.store cs.clear with maxChunkSize := size }
        [.announced x size]
  | aborted {cs : RtmpChunkStream} {csid : UInt32} (control : srv.Control x)
      (type : (srv.sessions x).current.type = 2)
      (read : RtmpSession.wordAt (srv.sessions x).current.data 0 = .ok csid)
      (other : csid.toUInt16 ≠ (srv.sessions x).csid)
      (present : (srv.sessions x).csIn (srv.sessions x).csid = some cs) :
      Handled srv x .ok (((srv.sessions x).decoder.drop csid.toUInt16).store cs.clear) []
  | cleared {cs : RtmpChunkStream} {ret : Ret}
      (plain : srv.Control x →
        (srv.sessions x).current.type ≠ 1 ∧ (srv.sessions x).current.type ≠ 2)
      (idle : ¬ srv.Connecting x)
      (present : (srv.sessions x).csIn (srv.sessions x).csid = some cs) :
      Handled srv x ret ((srv.sessions x).decoder.store cs.clear) []
  | connected {cs : RtmpChunkStream} (connecting : srv.Connecting x)
      (present : (srv.sessions x).csIn (srv.sessions x).csid = some cs) :
      Handled srv x .ok
        { (srv.sessions x).decoder.store cs.clear with maxChunkSize := 4096 } [.announce x 4096]
  | kept (refused : srv.Refused x) : Handled srv x .fail (srv.sessions x).decoder []

/-- What a handler does to the decoder depends on little else. -/
theorem Handled.congr {srv srv₁ : Server} {x : SessionId} {ret : Ret} {d : RtmpSession.Decoder}
    {es : List Event} (decoder : (srv₁.sessions x).decoder = (srv.sessions x).decoder)
    (state : (srv₁.sessions x).state = (srv.sessions x).state)
    (url : (srv₁.sessions x).url = (srv.sessions x).url) (streams : srv₁.streams = srv.streams)
    (handled : srv₁.Handled x ret d es) : srv.Handled x ret d es := by
  have current := RtmpSession.current_decoder decoder
  have csIn : (srv₁.sessions x).csIn = (srv.sessions x).csIn := congrArg (·.csIn) decoder
  have csid : (srv₁.sessions x).csid = (srv.sessions x).csid := congrArg (·.csid) decoder
  have connecting : srv₁.Connecting x ↔ srv.Connecting x := by
    simp only [Connecting, Carries, Connects, current, state]
  cases handled with
  | sized control type read present =>
      rw [Control, current] at control
      rw [current] at type read
      rw [csIn, csid] at present
      rw [decoder]
      exact .sized control type read present
  | aborted control type read other present =>
      rw [Control, current] at control
      rw [current] at type read
      rw [csid] at other
      rw [csIn, csid] at present
      rw [decoder]
      exact .aborted control type read other present
  | cleared plain idle present =>
      rw [Control, current] at plain
      rw [csIn, csid] at present
      rw [decoder]
      exact .cleared plain (mt connecting.mpr idle) present
  | connected accepted present =>
      rw [csIn, csid] at present
      rw [decoder]
      exact .connected (connecting.mp accepted) present
  | kept refused =>
      rw [Refused, current, state, url, streams] at refused
      rw [decoder]
      exact .kept refused

theorem clearCurrent_view {srv srv₁ srv' : Server} {x : SessionId} (same : srv₁.view = srv.view)
    (done : srv₁.within x (·.clearCurrent) = .ok srv') :
    ∃ cs, (srv.sessions x).csIn (srv.sessions x).csid = some cs ∧
      srv'.view = srv.viewWith x ((srv.sessions x).decoder.store cs.clear) [] := by
  obtain ⟨s, clearing, rfl⟩ := within_ok done
  obtain ⟨cs, present, rfl⟩ := RtmpSession.clearCurrent_ok clearing
  have decoder : (srv₁.sessions x).decoder = (srv.sessions x).decoder :=
    congrFun (congrArg View.decoders same) x
  refine ⟨cs, ?_, ?_⟩
  · have csIn : (srv₁.sessions x).csIn = (srv.sessions x).csIn := congrArg (·.csIn) decoder
    have csid : (srv₁.sessions x).csid = (srv.sessions x).csid := congrArg (·.csid) decoder
    rwa [csIn, csid] at present
  · rw [view_set, RtmpSession.setCurrent_decoder, decoder, viewWith_congr same]

theorem handleControlMessage_view {srv srv' : Server} {x : SessionId} {ret : Ret}
    (control : srv.Control x) (done : srv.handleControlMessage x = .ok (ret, srv')) :
    ∃ d es, srv.Handled x ret d es ∧ srv'.view = srv.viewWith x d es := by
  have idle : ¬ srv.Connecting x := by
    rintro ⟨c, ⟨command, _⟩, _⟩
    have small := control.1
    rw [command] at small
    revert small
    decide
  obtain ⟨srv₁, handled, done⟩ := bind_ok.mp done
  obtain ⟨s, ran, rfl⟩ := within_ok handled
  obtain ⟨s₁, body, cleared⟩ := bind_ok.mp ran
  obtain ⟨cs, present, rfl⟩ := RtmpSession.clearCurrent_ok cleared
  cases done
  have stored := view_set srv x (s₁.setCurrent cs.clear)
  obtain ⟨type, size, read, rfl⟩ | ⟨type, csid, read, rfl⟩ |
      ⟨not_one, not_two, windowSize, peerBandwidth, peerBandwidthType, same⟩ :=
    RtmpSession.controlBody_ok body
  · refine ⟨_, _, .sized control type read present, ?_⟩
    rw [if_pos type, set_sessions]
    exact view_emit_with stored rfl
  · have other : csid.toUInt16 ≠ (srv.sessions x).csid := by
      intro self
      simp only [self, Function.update_self, reduceCtorEq] at present
    simp only [Function.update_of_ne other.symm] at present
    refine ⟨_, _, .aborted control type read other present, ?_⟩
    rw [if_neg (by rw [type]; decide)]
    exact stored
  · have same : s₁.decoder = (srv.sessions x).decoder := by
      rw [same]
      rfl
    have csIn : s₁.csIn = (srv.sessions x).csIn := congrArg (·.csIn) same
    have csid : s₁.csid = (srv.sessions x).csid := congrArg (·.csid) same
    rw [csIn, csid] at present
    refine ⟨_, _, .cleared (fun _ => ⟨not_one, not_two⟩) idle present, ?_⟩
    rw [if_neg not_one, ← same]
    exact stored

theorem handleMediaMessage_view {srv srv' : Server} {x : SessionId} {ret : Ret}
    (control : ¬ srv.Control x) (media : (srv.sessions x).current.type ≠ 20)
    (done : srv.handleMediaMessage x = .ok (ret, srv')) :
    (ret = .fail ∧ srv' = srv) ∨
      ∃ d es, srv.Handled x ret d es ∧ srv'.view = srv.viewWith x d es := by
  have idle : ¬ srv.Connecting x := fun ⟨c, carries, _⟩ => media carries.1
  unfold handleMediaMessage at done
  simp only at done
  split at done
  · cases done
    exact .inl ⟨rfl, rfl⟩
  next phase =>
  split at done
  · next st found =>
      obtain ⟨srv₁, sent, done⟩ := bind_ok.mp done
      obtain ⟨srv₂, cleared, done⟩ := bind_ok.mp done
      cases done
      have acts : Acts {} x srv srv₁ := sendMedia_acts found (not_not.mp phase) sent
      obtain ⟨cs, present, view⟩ := clearCurrent_view (acts.view id) cleared
      exact .inr ⟨_, _, .cleared (absurd · control) idle present, view⟩
  · obtain ⟨srv₁, cleared, done⟩ := bind_ok.mp done
    cases done
    obtain ⟨cs, present, view⟩ := clearCurrent_view rfl cleared
    exact .inr ⟨_, _, .cleared (absurd · control) idle present, view⟩

theorem handleCommandMessage_view {env : Env} {srv srv' : Server} {x : SessionId} {ret : Ret}
    (control : ¬ srv.Control x) (command : (srv.sessions x).current.type = 20)
    (done : srv.handleCommandMessage env x = .ok (ret, srv')) :
    ∃ d es, srv.Handled x ret d es ∧ srv'.view = srv.viewWith x d es := by
  obtain ⟨srv₁, cleared, done⟩ := bind_ok.mp done
  obtain ⟨c, read, done⟩ := bind_ok.mp done
  obtain ⟨srv₂, ran, done⟩ := bind_ok.mp done
  cases done
  obtain ⟨s, clearing, rfl⟩ := within_ok cleared
  obtain ⟨cs, present, rfl⟩ := RtmpSession.clearCurrent_ok clearing
  have stored := view_set srv x ((srv.sessions x).setCurrent cs.clear)
  have phase : (srv.set x ((srv.sessions x).setCurrent cs.clear)).Connects x c ↔
      srv.Connects x c := by
    rw [Connects, set_sessions]
    rfl
  by_cases connects : srv.Connects x c
  · have accepted := phase.mpr connects
    unfold Connects at accepted
    unfold runCommand at ran
    simp only [if_pos accepted] at ran
    have view := commandConnect_view ran
    rw [viewWith_set, set_sessions] at view
    exact ⟨_, _, .connected ⟨c, ⟨command, read⟩, connects⟩ present, view⟩
  · have idle : ¬ srv.Connecting x := by
      rintro ⟨c', ⟨_, again⟩, accepted⟩
      rw [read] at again
      cases again
      exact connects accepted
    have view := (runCommand_acts ran).view (mt phase.mp connects)
    exact ⟨_, _, .cleared (absurd · control) idle present, view.trans stored⟩

/-- Every handler that returns leaves one of the decoders `Handled` lists, and no other session's
    decoder differs. -/
theorem handleChunkStream_view {env : Env} {srv srv' : Server} {x : SessionId} {ret : Ret}
    (done : srv.handleChunkStream env x = .ok (ret, srv')) :
    ∃ d es, srv.Handled x ret d es ∧ srv'.view = srv.viewWith x d es := by
  have kept : ret = .fail → srv' = srv →
      ∃ d es, srv.Handled x ret d es ∧ srv'.view = srv.viewWith x d es := by
    rintro rfl rfl
    exact ⟨_, _, .kept (handleChunkStream_fail done).1, (viewWith_self _ x).symm⟩
  have ran := done
  unfold handleChunkStream at ran
  simp only at ran
  split at ran
  · next control => exact handleControlMessage_view control ran
  next control =>
  split at ran
  · next media =>
      have other : (srv.sessions x).current.type ≠ 20 := by
        intro command
        rw [command] at media
        revert media
        decide
      obtain ⟨failed, same⟩ | handled := handleMediaMessage_view control other ran
      · exact kept failed same
      · exact handled
  split at ran
  · next command => exact handleCommandMessage_view control command ran
  · cases ran
    exact kept rfl rfl

/-- The call that handling the message of a session makes. -/
def calling (srv : Server) (x : SessionId) : Event :=
  .call x (srv.sessions x).csid (srv.sessions x).current.type (srv.sessions x).current.len
    (srv.sessions x).current.streamId (srv.sessions x).current.time (srv.sessions x).current.data

theorem dispatch_view (env : Env) (srv : Server) (x : SessionId) :
    (∃ d es, srv.Handled x (srv.dispatch env x).1 d es ∧
      (srv.dispatch env x).2.view = srv.viewWith x d
        (srv.calling x :: es ++ [.result x (srv.dispatch env x).1])) ∨
    (srv.dispatch env x).2.crashed.isSome ∧ (srv.dispatch env x).1 = .fail ∧
      ∃ es, (es = [] ∨ es = [srv.calling x]) ∧
        (srv.dispatch env x).2.view = srv.viewWith x (srv.sessions x).decoder es := by
  unfold dispatch
  split
  · exact .inr ⟨rfl, rfl, [], .inl rfl, (viewWith_self srv x).symm⟩
  · next srv₁ counted =>
      obtain ⟨s, counting, rfl⟩ := within_ok counted
      obtain ⟨decoder, state, url, app, _⟩ := RtmpSession.acknowledge_ok counting
      have current := RtmpSession.current_decoder decoder
      have csid : s.csid = (srv.sessions x).csid := congrArg (·.csid) decoder
      have named : (srv.set x s).calling x = srv.calling x := by
        rw [calling, calling, set_sessions, current, csid]
      have called := view_emit_with ((view_keep srv decoder).trans (viewWith_self srv x).symm)
        (e := (srv.set x s).calling x) rfl
      rw [named, List.nil_append, ← named] at called
      simp only
      generalize begun : (srv.set x s).emit _ = srv₁
      replace called : srv₁.view = srv.viewWith x (srv.sessions x).decoder [srv.calling x] := by
        rw [← begun, ← named]
        exact called
      have session : srv₁.sessions x = s := by
        rw [← begun]
        exact set_sessions srv x s
      have streams : srv₁.streams = srv.streams := by
        rw [← begun]
        rfl
      split
      · exact .inr ⟨rfl, rfl, _, .inr rfl, called⟩
      · next ret srv₂ ran =>
          obtain ⟨d, es, handled, view⟩ := handleChunkStream_view ran
          rw [viewWith_viewWith called] at view
          have noted := view_emit_with view (e := .result x ret) rfl
          refine .inl ⟨d, es, ?_, ?_⟩
          · exact handled.congr (session ▸ decoder) (session ▸ state) (session ▸ url) streams
          · split
            · have closed : Acts { close := True } x (srv₂.emit (.result x ret))
                  ((srv₂.emit (.result x ret)).close x) := close_acts trivial _
              exact (closed.view id).trans noted
            · exact noted

theorem close_view (srv : Server) (x : SessionId) : (srv.close x).view = srv.view := by
  have acts : Acts { close := True } x srv (srv.close x) := close_acts trivial srv
  exact acts.view id

end Server

namespace Host

theorem parse_view {host : Host} {x : SessionId} (running : host.server.crashed = none)
    (parsing : host.Parsing x) {ret : Ret} {s : RtmpSession} {rest : Bytes}
    (read : (host.server.sessions x).readChunkStream (host.recvBuf x) = .ok (ret, s, rest)) :
    (host.step (.parse x)).server.view = host.server.viewWith x s.decoder [] := by
  rw [step, if_pos running]
  simp only [perform, parsing, if_true, Server.parse, read]
  split
  · exact (Server.close_view _ x).trans (Server.view_set host.server x s)
  · exact Server.view_set host.server x s

/-- Only reading a chunk and handling a message show in the view. -/
theorem step_view (host : Host) (l : Label) :
    (host.step l).server.view = host.server.view ∨
    (∃ x ret s rest, l = .parse x ∧ host.server.crashed = none ∧ host.Parsing x ∧
      (host.server.sessions x).readChunkStream (host.recvBuf x) = .ok (ret, s, rest)) ∨
    ∃ x env, l = .dispatch x env ∧ host.Ready x ∧
      (host.step l).server = (host.server.dispatch env x).2 := by
  by_cases running : host.server.crashed = none
  · cases l with
    | accept x =>
        refine .inl ?_
        simp only [step, running, if_true, perform]
        split
        · exact Server.view_keep host.server rfl
        · rfl
    | receive x data =>
        refine .inl ?_
        simp only [step, running, if_true, perform]
        split <;> rfl
    | shake x env =>
        refine .inl ?_
        simp only [step, running, if_true, perform]
        split
        · next enabled =>
            have acts : Server.Acts {} x host.server (host.server.shake env x (host.recvBuf x)).2.1 :=
              Server.shake_acts env host.server x (host.recvBuf x) enabled.2
            split
            · exact (Server.close_view _ x).trans (acts.view id)
            · exact acts.view id
        · rfl
    | parse x =>
        by_cases parsing : host.Parsing x
        · cases read : (host.server.sessions x).readChunkStream (host.recvBuf x) with
          | error fault =>
              refine .inl ?_
              simp only [step, running, if_true, perform, parsing, Server.parse, read]
              split
              · exact Server.close_view _ x
              · rfl
          | ok result =>
              obtain ⟨ret, s, rest⟩ := result
              exact .inr (.inl ⟨x, ret, s, rest, rfl, running, parsing, read⟩)
        · refine .inl ?_
          simp only [step, running, if_true, perform, parsing, if_false]
    | dispatch x env =>
        simp only [step, running, if_true, perform]
        split
        · next ready => exact .inr (.inr ⟨x, env, rfl, ready, rfl⟩)
        · exact .inl rfl
    | close x =>
        refine .inl ?_
        simp only [step, running, if_true, perform]
        exact Server.close_view _ x
  · refine .inl ?_
    rw [step, if_neg running]

/-- In a run of the process no chunk is refused. -/
theorem type_fits {recordForce : Bool} {host : Host} (reached : (machine recordForce).Reachable host)
    (x : SessionId) : (host.server.sessions x).fmt < 4 := by
  refine reached.invariant (P := fun host => ∀ x, (host.server.view.decoders x).fmt < 4)
    (fun _ => (by decide : (0 : UInt8) < 4)) (fun host l fits y => ?_) x
  have update : ∀ {x d es}, d.fmt < 4 → ((host.server.viewWith x d es).decoders y).fmt < 4 := by
    intro x d es type
    simp only [Server.viewWith]
    by_cases self : y = x
    · subst self
      rwa [Function.update_self]
    · rw [Function.update_of_ne self]
      exact fits y
  obtain view | ⟨x, ret, s, rest, rfl, running, parsing, read⟩ | ⟨x, env, rfl, ready, done⟩ :=
    host.step_view l
  · change ((host.step l).server.view.decoders y).fmt < 4
    rw [view]
    exact fits y
  · change ((host.step (.parse x)).server.view.decoders y).fmt < 4
    rw [host.parse_view running parsing read]
    exact update (RtmpSession.readChunkStream_accepts (fits x) read).2
  · change ((host.step (.dispatch x env)).server.view.decoders y).fmt < 4
    rw [done]
    obtain ⟨d, es, handled, view⟩ | ⟨_, _, es, _, view⟩ := host.server.dispatch_view env x <;>
      rw [view]
    · refine update ?_
      generalize (host.server.dispatch env x).1 = ret at handled
      cases handled <;> exact fits x
    · exact update (fits x)

end Host

end DroneServer
