import DroneServer.Rtmp.Act

/-! # What the handling of a message leaves in place

A handler sets the session it runs for, writes to the peers of streams, and puts
nobody else into a stream. A relation between two states that follows from this
much, a `Frame`, follows from the handling of any message. One is that the sessions
stay `Steady`: nothing a session has handed to `async_write` is taken back, no
payload is counted, no connection opened or closed. Counting, the handshake and
the close are for others.
-/

namespace DroneServer

namespace RtmpSession

/-- The session has written more at most, and is open and has counted as before. -/
structure Steady (s s' : RtmpSession) : Prop where
  isOpen : s'.isOpen = s.isOpen
  ackRecv : s'.ackRecv = s.ackRecv
  ackRecvTotal : s'.ackRecvTotal = s.ackRecvTotal
  written : s.written <+: s'.written

theorem Steady.refl (s : RtmpSession) : s.Steady s := ⟨rfl, rfl, rfl, List.prefix_refl _⟩

theorem Steady.trans {a b c : RtmpSession} (first : a.Steady b) (second : b.Steady c) :
    a.Steady c where
  isOpen := second.isOpen.trans first.isOpen
  ackRecv := second.ackRecv.trans first.ackRecv
  ackRecvTotal := second.ackRecvTotal.trans first.ackRecvTotal
  written := first.written.trans second.written

variable {s s' : RtmpSession}

theorem writeChunk_steady {csid : UInt16} {time dtime : UInt32} {typeId : UInt8}
    {streamId : UInt32} {msg : Bytes} {forceF0 : Bool}
    (wrote : s.writeChunk csid time dtime typeId streamId msg forceF0 = .ok s') : s.Steady s' := by
  obtain ⟨written, _, rest⟩ := bind_ok.mp wrote
  cases rest
  exact ⟨rfl, rfl, rfl, List.prefix_append _ _⟩

theorem writeMediaPacket_steady {pkt : MediaPacket} (wrote : s.writeMediaPacket pkt = .ok s') :
    s.Steady s' := by
  unfold writeMediaPacket at wrote
  split at wrote
  · exact writeChunk_steady wrote
  · cases wrote
    exact .refl s

theorem clearCurrent_steady (done : s.clearCurrent = .ok s') : s.Steady s' := by
  obtain ⟨cs, _, rfl⟩ := clearCurrent_ok done
  exact ⟨rfl, rfl, rfl, List.prefix_refl _⟩

theorem acknowledge_written (done : s.acknowledge = .ok s') : s.written <+: s'.written := by
  unfold acknowledge at done
  simp only at done
  split at done
  · obtain ⟨s₁, wrote, rest⟩ := bind_ok.mp done
    cases rest
    exact (writeChunk_steady wrote).written
  · cases done
    exact List.prefix_refl _

theorem handleControlMessage_steady (done : s.handleControlMessage = .ok s') : s.Steady s' := by
  obtain ⟨_, _, _, _, _, rfl⟩ := handleControlMessage_own done
  exact ⟨rfl, rfl, rfl, List.prefix_refl _⟩

theorem readChunkStream_steady {buf rest : Bytes} {ret : Ret}
    (read : s.readChunkStream buf = .ok (ret, s', rest)) : s.Steady s' := by
  obtain ⟨_, _, _, _, rfl⟩ := readChunkStream_own read
  exact ⟨rfl, rfl, rfl, List.prefix_refl _⟩

end RtmpSession

namespace Server

open RtmpSession

/-- The session is in a registered stream. -/
def Placed (srv : Server) (y : SessionId) : Prop :=
  ∃ url st, srv.streams url = some st ∧ y ∈ st.peers

/-- What there is between two states if only the session `x` and peers of streams are set, and that
    steadily, and nobody but `x` gets into a stream. -/
structure Frame (x : SessionId) (R : Server → Server → Prop) : Prop where
  refl : ∀ srv, R srv srv
  trans : ∀ {srv₁ srv₂ srv₃}, R srv₁ srv₂ → R srv₂ srv₃ → R srv₁ srv₃
  set : ∀ {srv y s}, y = x ∨ srv.Placed y → (srv.sessions y).Steady s → R srv (srv.set y s)
  rest : ∀ {srv srv'}, srv'.sessions = srv.sessions →
    (∀ y, srv'.Placed y → y = x ∨ srv.Placed y) → R srv srv'

variable {srv srv' srv₁ srv₂ : Server} {x : SessionId}

namespace Frame

variable {R : Server → Server → Prop} (frame : Frame x R)
include frame

theorem same (sessions : srv'.sessions = srv.sessions) (streams : srv'.streams = srv.streams) :
    R srv srv' := by
  refine frame.rest sessions fun y placed => .inr ?_
  obtain ⟨url, st, found, inside⟩ := placed
  exact ⟨url, st, streams ▸ found, inside⟩

theorem register {url : Bytes} {st : RtmpStream} (sessions : srv'.sessions = srv.sessions)
    (streams : srv'.streams = Function.update srv.streams url (some st))
    (peers : ∀ y, y ∈ st.peers → y = x ∨ srv.Placed y) : R srv srv' := by
  refine frame.rest sessions fun y placed => ?_
  obtain ⟨url', st', found, inside⟩ := placed
  rw [streams] at found
  by_cases here : url' = url
  · subst here
    rw [Function.update_self] at found
    cases found
    exact peers y inside
  · rw [Function.update_of_ne here] at found
    exact .inr ⟨url', st', found, inside⟩

theorem release (srv : Server) (url : Bytes) : R srv (srv.setStream url none) := by
  refine frame.rest rfl fun y placed => .inr ?_
  obtain ⟨url', st', found, inside⟩ := placed
  simp only [setStream] at found
  by_cases here : url' = url
  · rw [here, Function.update_self] at found
    cases found
  · rw [Function.update_of_ne here] at found
    exact ⟨url', st', found, inside⟩

theorem within {y : SessionId} (placed : y = x ∨ srv.Placed y)
    {f : RtmpSession → Except Fault RtmpSession} (steady : ∀ s s', f s = .ok s' → s.Steady s')
    (done : srv.within y f = .ok srv') : R srv srv' := by
  obtain ⟨s, ran, rfl⟩ := within_ok done
  exact frame.set placed (steady _ _ ran)

theorem own {f : RtmpSession → Except Fault RtmpSession} (steady : ∀ s s', f s = .ok s' → s.Steady s')
    (done : srv.within x f = .ok srv') : R srv srv' :=
  frame.within (.inl rfl) steady done

theorem foldlM {α : Type} {f : Server → SessionId × α → Except Fault Server}
    {l : List (SessionId × α)}
    (each : ∀ srv a srv', srv.Placed a.1 → f srv a = .ok srv' →
      R srv srv' ∧ srv'.streams = srv.streams)
    (placed : ∀ a ∈ l, srv.Placed a.1) (done : l.foldlM f srv = .ok srv') : R srv srv' := by
  induction l generalizing srv with
  | nil =>
      cases done
      exact frame.refl _
  | cons a l ih =>
      obtain ⟨srv₁, first, rest⟩ := bind_ok.mp done
      obtain ⟨wrote, streams⟩ := each srv a srv₁ (placed a List.mem_cons_self) first
      refine frame.trans wrote (ih (fun b inside => ?_) rest)
      obtain ⟨url, st, found, peer⟩ := placed b (List.mem_cons_of_mem a inside)
      exact ⟨url, st, streams ▸ found, peer⟩

theorem leaveStream (done : srv.leaveStream x = .ok srv') : R srv srv' := by
  unfold Server.leaveStream at done
  simp only at done
  split at done
  · cases done
    exact frame.refl srv
  · next st found =>
      have left : R srv ((srv.setStream (srv.sessions x).url (some (st.leave x))).emit
          (.leave x st.ref)) :=
        frame.register rfl rfl fun y inside =>
          .inr ⟨_, st, found, (RtmpStream.mem_leave.mp inside).2⟩
      have gone : ∀ srv₁ : Server, R srv₁
          (if (st.leave x).count = 0 then srv₁.setStream (srv.sessions x).url none else srv₁) := by
        intro srv₁
        split
        · exact frame.release srv₁ _
        · exact frame.refl srv₁
      split at done
      · obtain ⟨srv₁, told, rest⟩ := bind_ok.mp done
        cases rest
        have each : ∀ srv (peer : SessionId × Bool) srv', srv.Placed peer.1 →
            srv.within peer.1 (·.sendStreamEof mediaStreamId) = .ok srv' →
            R srv srv' ∧ srv'.streams = srv.streams := by
          intro srv peer srv' placed sent
          refine ⟨frame.within (.inr placed) (fun _ _ => writeChunk_steady) sent, ?_⟩
          obtain ⟨_, _, rfl⟩ := within_ok sent
          rfl
        have told := frame.foldlM each (fun peer entry =>
          ⟨_, _, Function.update_self _ _ _, Table.mem_of_entry entry⟩) told
        refine frame.trans (frame.trans left ?_) (gone srv₁)
        refine frame.trans ?_ told
        exact frame.same rfl rfl
      · cases done
        exact frame.trans left (gone _)

theorem onClose (done : srv.onClose x = .ok srv') : R srv srv' := by
  obtain ⟨srv₁, left, rest⟩ := bind_ok.mp done
  cases rest
  exact frame.trans (frame.leaveStream left) (frame.set (.inl rfl) ⟨rfl, rfl, rfl, List.prefix_refl _⟩)

theorem close (srv : Server) :
    R (srv.set x { srv.sessions x with isOpen := false }) (srv.close x) := by
  unfold Server.close
  split
  · simp only
    split
    · next closed => exact frame.onClose closed
    · exact frame.same rfl rfl
  · next shut =>
      have same : { srv.sessions x with isOpen := false } = srv.sessions x := by
        have isOpen : (srv.sessions x).isOpen = false := by simpa using shut
        rw [← isOpen]
      rw [same, set_self]
      exact frame.refl srv

theorem sendOnStatus {level code desc : String}
    (done : srv.sendOnStatus x level code desc = .ok srv') : R srv srv' := by
  obtain ⟨buf, _, wrote⟩ := bind_ok.mp done
  exact frame.own (fun _ _ => writeChunk_steady) wrote

theorem sendMedia {url : Bytes} {st : RtmpStream} {cs : RtmpChunkStream}
    (found : srv.streams url = some st) (done : srv.sendMedia x url st cs = .ok srv') :
    R srv srv' := by
  obtain ⟨sent, passed, rest⟩ := bind_ok.mp done
  cases sent with
  | none =>
      cases rest
      exact frame.refl srv
  | some sent =>
      obtain ⟨st', media, pkt, writes⟩ := sent
      obtain ⟨_, _, _, kept, addressed⟩ := RtmpStream.send_ok passed
      have peers : ∀ y, y ∈ st'.peers ↔ y ∈ st.peers := fun y => by rw [kept, Table.mem_mapValues]
      have each : ∀ srv (w : SessionId × MediaPacket) srv', srv.Placed w.1 →
          (do pure ((← srv.within w.1 (·.writeMediaPacket w.2)).emit
            (.relayed x st.ref w.1 w.2))) = .ok srv' →
          R srv srv' ∧ srv'.streams = srv.streams := by
        intro srv w srv' placed sent
        obtain ⟨srv₁, wrote, noted⟩ := bind_ok.mp sent
        cases noted
        have written := frame.within (.inr placed) (fun _ _ => writeMediaPacket_steady) wrote
        refine ⟨frame.trans written (frame.same rfl rfl), ?_⟩
        obtain ⟨_, _, rfl⟩ := within_ok wrote
        rfl
      refine frame.trans ?_ (frame.foldlM each (fun w inside => ?_) rest)
      · exact frame.register rfl rfl fun y inside => .inr ⟨url, st, found, (peers y).mp inside⟩
      · rw [addressed] at inside
        obtain ⟨⟨peer, served⟩, entry, inside⟩ := List.mem_flatMap.mp inside
        obtain ⟨_, _, rfl⟩ := List.mem_map.mp inside
        exact ⟨url, _, Function.update_self _ _ _, (peers peer).mpr (Table.mem_of_entry entry)⟩

theorem handleMediaMessage {ret : Ret} (done : srv.handleMediaMessage x = .ok (ret, srv')) :
    R srv srv' := by
  unfold Server.handleMediaMessage at done
  simp only at done
  split at done
  · cases done
    exact frame.refl srv
  split at done
  · next found =>
      obtain ⟨srv₁, sent, done⟩ := bind_ok.mp done
      obtain ⟨srv₂, cleared, done⟩ := bind_ok.mp done
      cases done
      exact frame.trans (frame.sendMedia found sent)
        (frame.own (fun _ _ => clearCurrent_steady) cleared)
  · obtain ⟨srv₁, cleared, done⟩ := bind_ok.mp done
    cases done
    exact frame.own (fun _ _ => clearCurrent_steady) cleared

theorem handleControlMessage {ret : Ret}
    (done : srv.handleControlMessage x = .ok (ret, srv')) : R srv srv' := by
  obtain ⟨srv₁, controlled, done⟩ := bind_ok.mp done
  have steady := frame.own (fun _ _ => RtmpSession.handleControlMessage_steady) controlled
  cases done
  split
  · exact frame.trans steady (frame.same rfl rfl)
  · exact steady

theorem renamed (srv : Server) (app cid url : Bytes) :
    R srv (srv.set x { srv.sessions x with app, cid, url }) :=
  frame.set (.inl rfl) ⟨rfl, rfl, rfl, List.prefix_refl _⟩

theorem moved (srv : Server) (state : SessionState) (e : Event) :
    R srv ((srv.set x { srv.sessions x with state }).emit e) := by
  have moved : R srv (srv.set x { srv.sessions x with state }) :=
    frame.set (.inl rfl) ⟨rfl, rfl, rfl, List.prefix_refl _⟩
  exact frame.trans moved (frame.same rfl rfl)

theorem commandConnect {sb : SimpleBuffer} (done : srv.commandConnect x sb = .ok srv') :
    R srv srv' := by
  obtain ⟨⟨ret, co, rest⟩, _, done⟩ := bind_ok.mp done
  simp only at done
  split at done
  · next app _ =>
      obtain ⟨srv₁, announced, done⟩ := bind_ok.mp done
      obtain ⟨srv₂, second, done⟩ := bind_ok.mp done
      obtain ⟨srv₃, third, done⟩ := bind_ok.mp done
      obtain ⟨buf, _, done⟩ := bind_ok.mp done
      obtain ⟨srv₄, fourth, done⟩ := bind_ok.mp done
      cases done
      obtain ⟨srv₀, sized, announced⟩ := bind_ok.mp announced
      cases announced
      have stored : R srv (srv.set x { srv.sessions x with app, maxChunkSize := 4096 }) :=
        frame.set (.inl rfl) ⟨rfl, rfl, rfl, List.prefix_refl _⟩
      have first : R srv srv₀ :=
        frame.trans stored (frame.own (fun _ _ => writeChunk_steady) sized)
      have noted : R srv₀ (srv₀.emit (.announce x (srv₀.sessions x).maxChunkSize)) :=
        frame.same rfl rfl
      have rest : R (srv₀.emit (.announce x (srv₀.sessions x).maxChunkSize)) srv₄ :=
        frame.trans (frame.trans (frame.own (fun _ _ => writeChunk_steady) second)
          (frame.own (fun _ _ => writeChunk_steady) third))
            (frame.own (fun _ _ => writeChunk_steady) fourth)
      exact frame.trans (frame.trans first noted) (frame.trans rest (frame.moved srv₄ _ _))
  · cases done

theorem commandCreateStream {marker : UInt8} {tid : UInt64}
    (done : srv.commandCreateStream x marker tid = .ok srv') : R srv srv' := by
  obtain ⟨buf, _, done⟩ := bind_ok.mp done
  obtain ⟨srv₁, wrote, done⟩ := bind_ok.mp done
  cases done
  exact frame.trans (frame.own (fun _ _ => writeChunk_steady) wrote) (frame.moved srv₁ _ _)

theorem joinStream {publisher : Bool} (join : srv.joinStream x publisher = .ok srv₁) : R srv srv₁ := by
  have sessions := joinStream_sessions join
  obtain ⟨⟨st, srv₀⟩, found, stored⟩ := bind_ok.mp join
  cases stored
  obtain ⟨found, rfl⟩ | ⟨_, _, _, _, empty, _, _, streams, _⟩ := findStream_ok found
  · exact frame.register sessions rfl fun y inside =>
      (RtmpStream.mem_join inside).imp_right fun before => ⟨_, st, found, before⟩
  · refine frame.register sessions (congrArg (Function.update · _ _) streams) fun y inside => ?_
    obtain own | before := RtmpStream.mem_join inside
    · exact .inl own
    · rw [empty] at before
      exact absurd before (Table.not_mem_empty y)

theorem commandPublish {sb : SimpleBuffer} (done : srv.commandPublish x sb = .ok srv') :
    R srv srv' := by
  obtain ⟨⟨cid, sb⟩, _, done⟩ := bind_ok.mp done
  obtain ⟨⟨app, _⟩, _, done⟩ := bind_ok.mp done
  obtain ⟨srv₁, join, done⟩ := bind_ok.mp done
  obtain ⟨srv₂, begun, done⟩ := bind_ok.mp done
  obtain ⟨srv₃, told, done⟩ := bind_ok.mp done
  cases done
  have joined := frame.trans (frame.renamed srv _ _ _) (frame.joinStream join)
  have replied := frame.trans (frame.own (fun _ _ => writeChunk_steady) begun)
    (frame.sendOnStatus told)
  exact frame.trans (frame.trans joined replied) (frame.moved srv₃ _ _)

theorem commandPlay {sb : SimpleBuffer} (done : srv.commandPlay x sb = .ok srv') : R srv srv' := by
  obtain ⟨⟨cid, sb⟩, _, done⟩ := bind_ok.mp done
  obtain ⟨srv₁, join, done⟩ := bind_ok.mp done
  obtain ⟨srv₂, begun, done⟩ := bind_ok.mp done
  obtain ⟨srv₃, reset, done⟩ := bind_ok.mp done
  obtain ⟨srv₄, told, done⟩ := bind_ok.mp done
  cases done
  have joined := frame.trans (frame.renamed srv _ _ _) (frame.joinStream join)
  have replied := frame.trans (frame.trans (frame.own (fun _ _ => writeChunk_steady) begun)
    (frame.sendOnStatus reset)) (frame.sendOnStatus told)
  exact frame.trans (frame.trans joined replied) (frame.moved srv₄ _ _)

theorem runCommand {env : Env} {c : Command} (done : srv.runCommand env x c = .ok srv') :
    R srv srv' := by
  unfold Server.runCommand at done
  simp only at done
  split at done
  · exact frame.commandConnect done
  split at done
  · exact frame.commandCreateStream done
  split at done
  · obtain ⟨⟨cid, rest⟩, _, done⟩ := bind_ok.mp done
    cases done
    exact frame.trans (frame.renamed srv _ _ _) (frame.release _ _)
  split at done
  · obtain ⟨_, _, done⟩ := bind_ok.mp done
    obtain ⟨_, _, done⟩ := bind_ok.mp done
    cases done
    exact frame.refl srv
  split at done
  · obtain ⟨⟨cid, rest⟩, _, done⟩ := bind_ok.mp done
    cases done
    exact frame.renamed srv _ _ _
  split at done
  · obtain ⟨⟨cid, rest⟩, _, done⟩ := bind_ok.mp done
    simp only at done
    split at done
    · exact frame.leaveStream done
    · cases done
      exact frame.refl srv
  split at done
  · cases done
    exact frame.refl srv
  split at done
  · exact frame.commandPublish done
  split at done
  · exact frame.commandPlay done
  · cases done
    exact frame.refl srv

theorem handleChunkStream {env : Env} {ret : Ret}
    (done : srv.handleChunkStream env x = .ok (ret, srv')) : R srv srv' := by
  unfold Server.handleChunkStream at done
  simp only at done
  split at done
  · exact frame.handleControlMessage done
  split at done
  · exact frame.handleMediaMessage done
  split at done
  · obtain ⟨srv₁, cleared, done⟩ := bind_ok.mp done
    obtain ⟨c, _, done⟩ := bind_ok.mp done
    obtain ⟨srv₂, ran, done⟩ := bind_ok.mp done
    cases done
    exact frame.trans (frame.own (fun _ _ => clearCurrent_steady) cleared) (frame.runCommand ran)
  · cases done
    exact frame.refl srv

end Frame

/-- Every session stays so. -/
def Steady (srv srv' : Server) : Prop := ∀ y, (srv.sessions y).Steady (srv'.sessions y)

theorem steady_frame (x : SessionId) : Frame x Steady where
  refl _ _ := .refl _
  trans first second y := (first y).trans (second y)
  set := by
    intro srv z s _ steady y
    by_cases self : y = z
    · subst self
      rwa [set_sessions]
    · rw [set_other _ _ self]
      exact .refl _
  rest := by
    intro srv srv' sessions _ y
    rw [sessions]
    exact .refl _

theorem close_written (srv : Server) (x y : SessionId) :
    (srv.sessions y).written <+: ((srv.close x).sessions y).written := by
  refine List.IsPrefix.trans ?_ ((steady_frame x).close srv y).written
  by_cases self : y = x
  · subst self
    rw [set_sessions]
  · rw [set_other _ _ self]

theorem dispatch_written (env : Env) (srv : Server) (x y : SessionId) :
    (srv.sessions y).written <+: ((srv.dispatch env x).2.sessions y).written := by
  unfold dispatch
  split
  · exact List.prefix_refl _
  · next srv₁ counted =>
      obtain ⟨s, counting, rfl⟩ := within_ok counted
      have acknowledged : (srv.sessions y).written <+: ((srv.set x s).sessions y).written := by
        by_cases self : y = x
        · subst self
          rw [set_sessions]
          exact acknowledge_written counting
        · rw [set_other _ _ self]
      simp only
      split
      · exact acknowledged
      · next ret srv₂ handled =>
          have steady := ((steady_frame x).handleChunkStream handled y).written
          refine (acknowledged.trans steady).trans ?_
          split
          · exact close_written (srv₂.emit (.result x ret)) x y
          · exact List.prefix_refl _

end Server

/-- Whatever happens, what a session has written stays written. -/
theorem Host.step_written (host : Host) (l : Label) (y : SessionId) :
    (host.server.sessions y).written <+: ((host.step l).server.sessions y).written := by
  have set : ∀ {srv : Server} {x : SessionId} {s : RtmpSession},
      (srv.sessions x).written <+: s.written →
      (srv.sessions y).written <+: ((srv.set x s).sessions y).written := by
    intro srv x s longer
    by_cases self : y = x
    · subst self
      rwa [Server.set_sessions]
    · rw [Server.set_other _ _ self]
  unfold step
  split
  · cases l with
    | accept x =>
        simp only [perform]
        split
        · exact set (List.prefix_refl _)
        · exact List.prefix_refl _
    | receive x data =>
        simp only [perform]
        split <;> exact List.prefix_refl _
    | shake x env =>
        simp only [perform]
        split
        · have shaken : (host.server.sessions y).written <+:
              ((host.server.shake env x (host.recvBuf x)).2.1.sessions y).written := by
            unfold Server.shake
            simp only
            split
            · split
              · exact set (List.prefix_refl _)
              · exact set (List.prefix_append _ _)
            · split
              · exact set (List.prefix_refl _)
              · exact set (List.prefix_refl _)
          split
          · exact shaken.trans (Server.close_written _ x y)
          · exact shaken
        · exact List.prefix_refl _
    | parse x =>
        simp only [perform]
        split
        · have parsed : (host.server.sessions y).written <+:
              ((host.server.parse x (host.recvBuf x)).2.1.sessions y).written := by
            unfold Server.parse
            split
            · exact List.prefix_refl _
            · next read => exact set (RtmpSession.readChunkStream_steady read).written
          split
          · exact parsed.trans (Server.close_written _ x y)
          · exact parsed
        · exact List.prefix_refl _
    | dispatch x env =>
        simp only [perform]
        split
        · exact Server.dispatch_written env host.server x y
        · exact List.prefix_refl _
    | close x => exact Server.close_written _ x y
  · exact List.prefix_refl _

end DroneServer
