import DroneServer.Rtmp.Bystander
import DroneServer.Rtmp.ChunkSize
import DroneServer.Rtmp.Deeds

/-! # What a session hears

Over any run, whatever the other sessions do, the bytes a session is sent after the
handshake are messages and nothing else to a peer that reads as this program reads
and heeds the chunk sizes it is told. The media messages among them are the packets
that were passed to the session, in this order, and the chunk sizes those that were
announced to it. The peer must not set a chunk size itself, because the program
takes that for its own, and the packets must fit the header.
-/

namespace DroneServer

open Endian

/-- A message of audio, video or metadata. -/
def Incoming.media (m : Incoming) : Bool := m.type = 8 ∨ m.type = 9 ∨ m.type = 18

/-- The packet fits a header without an extended time. -/
structure MediaPacket.Fits (pkt : MediaPacket) : Prop where
  time : 0 ≤ pkt.dts ∧ pkt.dts < 0xffffff
  streamId : pkt.streamId ≠ 0xffffffff
  short : pkt.data.length < 2 ^ 24

instance (pkt : MediaPacket) : Decidable pkt.Fits :=
  decidable_of_iff ((0 ≤ pkt.dts ∧ pkt.dts < 0xffffff) ∧ pkt.streamId ≠ 0xffffffff ∧
    pkt.data.length < 2 ^ 24) ⟨fun ⟨t, i, s⟩ => ⟨t, i, s⟩, fun ⟨t, i, s⟩ => ⟨t, i, s⟩⟩

namespace Event

/-- The packet this event passes to `y`. -/
def passedTo (y : SessionId) : Event → Option MediaPacket
  | .relayed _ _ z pkt => if z = y then some pkt else none
  | _ => none

/-- The peer of `y` set no chunk size, and the packet passed to `y` fits. -/
def Fine (y : SessionId) : Event → Prop
  | .announced z _ => z ≠ y
  | .relayed _ _ z pkt => z = y → pkt.Fits
  | _ => True

instance (y : SessionId) : (e : Event) → Decidable (e.Fine y)
  | .announced .. => inferInstanceAs (Decidable (_ ≠ _))
  | .relayed .. => inferInstanceAs (Decidable (_ → _))
  | .call .. | .result .. | .announce .. | .handshakeDone .. | .connected .. | .streamCreated ..
  | .join .. | .published .. | .played .. | .leave .. | .cached .. => isTrue trivial

theorem passedTo_silent {y : SessionId} {e : Event} (silent : ¬ e.Tells y) : e.passedTo y = none := by
  cases e with
  | relayed => exact if_neg silent
  | _ => rfl

theorem sizeTo_silent {y : SessionId} {e : Event} (silent : ¬ e.Tells y) : e.sizeTo y = none := by
  cases e with
  | announce => exact if_neg silent
  | _ => rfl

end Event

/-- The message that a packet becomes on its chunk stream. -/
def MediaPacket.sent (pkt : MediaPacket) (csid : UInt16) : Outgoing :=
  pkt.outgoing csid (UInt32.ofNat (pkt.dts % 2 ^ 32).toNat)

theorem MediaPacket.Tagged.sent {pkt : MediaPacket} (tagged : pkt.Tagged) (fits : pkt.Fits) :
    ∃ csid, (∀ s : RtmpSession, s.writeMediaPacket pkt = s.write (pkt.sent csid)) ∧
      (pkt.sent csid).Fits ∧ ∀ m : Incoming, m.Matches (pkt.sent csid) → m.Relays pkt := by
  obtain ⟨⟨early, late⟩, stream, short⟩ := fits
  have time : (UInt32.ofNat (pkt.dts % 2 ^ 32).toNat).toNat = pkt.dts.toNat := by
    have wide : pkt.dts.toNat < 2 ^ 32 := by omega
    rw [Int.emod_eq_of_lt early (by omega), UInt32.toNat_ofNat_of_lt' wide]
  obtain ⟨csid, known, narrow⟩ : ∃ csid, RtmpSession.mediaCsid pkt.type = some csid ∧ csid < 64 := by
    rcases tagged with ⟨_, kind⟩ | ⟨_, kind⟩ | ⟨_, kind⟩ <;> rw [kind]
    · exact ⟨6, rfl, by decide⟩
    · exact ⟨4, rfl, by decide⟩
    · exact ⟨6, rfl, by decide⟩
  refine ⟨csid, fun s => ?_, ⟨narrow, ?_, (by decide : 0 < 0xffffff), stream, short⟩,
    fun m matching => ⟨matching.type, matching.streamId, matching.payload, ?_⟩⟩
  · simp only [RtmpSession.writeMediaPacket, known]
    rfl
  · simp only [MediaPacket.sent, MediaPacket.outgoing, time]
    omega
  · rw [matching.time rfl]
    simp only [MediaPacket.sent, MediaPacket.outgoing, time]
    omega

theorem RtmpSession.readChunkStream_narrow {s s' : RtmpSession} {buf rest : Bytes} {ret : Ret}
    (narrow : s.csid < 64) (read : s.readChunkStream buf = .ok (ret, s', rest)) : s'.csid < 64 := by
  by_cases some : buf = []
  · subst some
    cases read
    exact narrow
  · have basic : (s.readBasicHeader buf).1.csid < 64 := by
      unfold readBasicHeader
      split
      · exact narrow
      · refine UInt16.lt_iff_toNat_lt.mpr ?_
        simp only [UInt8.toNat_toUInt16, UInt8.toNat_and]
        exact Nat.lt_succ_of_le Nat.and_le_right
    cases readChunkStream_cases some read with
    | header | waiting | taken => exact basic

namespace Server

/-- What `y` was sent in `chunks` leaves a peer at `r`, in step with what the session remembers. -/
structure Heard (y : SessionId) (srv : Server) (chunks : List Bytes) (r : Reader) : Prop where
  agree : Reader.Agree (srv.sessions y) r.session
  room : 4 ≤ (srv.sessions y).maxChunkSize.toNat
  listens : ∀ rest d, Feed.Drains Reader.listen r rest d →
    Feed.Drains Reader.listen { session := {} } (chunks.flatten ++ rest) d
  media : List.Forall₂ Incoming.Relays (r.messages.filter (·.media))
    (srv.log.filterMap (Event.passedTo y))
  sizes : r.messages.filterMap (·.size) = srv.log.filterMap (Event.sizeTo y)

variable {x y : SessionId} {srv srv' : Server} {chunks : List Bytes} {r : Reader}

theorem Heard.silent (heard : Heard y srv chunks r)
    (csOut : (srv'.sessions y).csOut = (srv.sessions y).csOut)
    (size : (srv'.sessions y).maxChunkSize = (srv.sessions y).maxChunkSize) {es : List Event}
    (log : srv'.log = srv.log ++ es) (silent : ∀ e ∈ es, ¬ e.Tells y) : Heard y srv' chunks r := by
  have passed : es.filterMap (Event.passedTo y) = [] :=
    List.filterMap_eq_nil_iff.mpr fun e inside => Event.passedTo_silent (silent e inside)
  have sized : es.filterMap (Event.sizeTo y) = [] :=
    List.filterMap_eq_nil_iff.mpr fun e inside => Event.sizeTo_silent (silent e inside)
  refine ⟨⟨heard.agree.between, heard.agree.size.trans size.symm, size ▸ heard.agree.positive,
    fun csid => ?_⟩, size ▸ heard.room, heard.listens, ?_, ?_⟩
  · rw [csOut]
    exact heard.agree.inStep csid
  · rw [log, List.filterMap_append, passed, List.append_nil]
    exact heard.media
  · rw [log, List.filterMap_append, sized, List.append_nil]
    exact heard.sizes

theorem Heard.said (heard : Heard y srv chunks r) {buffers : List Bytes} {s' : RtmpSession}
    {m : Incoming} {es : List Event} (agree : Reader.Agree (srv'.sessions y) s')
    (room : 4 ≤ (srv'.sessions y).maxChunkSize.toNat)
    (listens : ∀ rest d, Feed.Drains Reader.listen
      { session := s', messages := r.messages ++ [m] } rest d →
        Feed.Drains Reader.listen r (buffers.flatten ++ rest) d)
    (log : srv'.log = srv.log ++ es)
    (media : List.Forall₂ Incoming.Relays ([m].filter (·.media)) (es.filterMap (Event.passedTo y)))
    (size : [m].filterMap (·.size) = es.filterMap (Event.sizeTo y)) :
    Heard y srv' (chunks ++ buffers) { session := s', messages := r.messages ++ [m] } := by
  refine ⟨agree, room, fun rest d drained => ?_, ?_, ?_⟩
  · rw [List.flatten_append, List.append_assoc]
    exact heard.listens _ d (listens rest d drained)
  · rw [log, List.filterMap_append, List.filter_append]
    exact List.rel_append heard.media media
  · rw [log, List.filterMap_append, List.filterMap_append, heard.sizes, size]

theorem Heard.replied (heard : Heard y srv chunks r) {o : Outgoing} {s : RtmpSession}
    (reply : o.Reply) (wrote : (srv.sessions y).write o = .ok s) : ∃ more r',
      ((srv.set y s).sessions y).written = (srv.sessions y).written ++ more ∧
        Heard y (srv.set y s) (chunks ++ more) r' := by
  obtain ⟨w', buffers, s', m, wrote', written, agree, matching, listens⟩ :=
    heard.agree.go reply.fits reply.type.1 fun s ready matching =>
      Reader.sent_heeds (.inl reply) matching ready rfl
  cases wrote.symm.trans wrote'
  obtain ⟨unsized, audio, video, metadata⟩ := reply.type
  rw [← matching.type] at unsized audio video metadata
  have size : s.maxChunkSize = (srv.sessions y).maxChunkSize :=
    congrArg (·.maxChunkSize) (RtmpSession.writeChunk_quiet wrote)
  refine ⟨buffers, _, by rwa [set_sessions], heard.said (by rwa [set_sessions]) ?_ listens
    (List.append_nil srv.log).symm ?_ ?_⟩
  · rw [set_sessions, size]
    exact heard.room
  · simp [Incoming.media, audio, video, metadata]
  · simp [Incoming.size, unsized]

theorem Heard.passed (heard : Heard y srv chunks r) {ref : Nat} {pkt : MediaPacket} {s : RtmpSession}
    (tagged : pkt.Tagged) (fits : pkt.Fits) (wrote : (srv.sessions y).writeMediaPacket pkt = .ok s) :
    ∃ more r', (((srv.set y s).emit (.relayed x ref y pkt)).sessions y).written =
        (srv.sessions y).written ++ more ∧
      Heard y ((srv.set y s).emit (.relayed x ref y pkt)) (chunks ++ more) r' := by
  obtain ⟨csid, writes, outgoing, relays⟩ := tagged.sent fits
  have kind : pkt.rtmpType = 8 ∨ pkt.rtmpType = 9 ∨ pkt.rtmpType = 18 := by
    rcases tagged with ⟨type, _⟩ | ⟨type, _⟩ | ⟨type, _⟩ <;> simp [type]
  have unsized : pkt.rtmpType ≠ 1 ∧ ¬ pkt.rtmpType < 7 := by
    rcases kind with type | type | type <;> rw [type] <;> decide
  rw [writes] at wrote
  obtain ⟨w', buffers, s', m, wrote', written, agree, matching, listens⟩ :=
    heard.agree.go outgoing unsized.1 fun s ready matching => by
      have type : s.current.type = pkt.rtmpType := matching.type
      exact Reader.heeds_other ready (type ▸ unsized.2)
  cases wrote.symm.trans wrote'
  have size : s.maxChunkSize = (srv.sessions y).maxChunkSize :=
    congrArg (·.maxChunkSize) (RtmpSession.writeChunk_quiet wrote)
  have relayed := relays m matching
  rw [← relayed.type] at kind unsized
  simp only [emit, set_sessions]
  refine ⟨buffers, _, written, heard.said ?_ ?_ listens rfl ?_ ?_⟩
  · simp only [set_sessions]
    exact agree
  · simp only [set_sessions, size]
    exact heard.room
  · simp [Incoming.media, kind, Event.passedTo, relayed]
  · simp [Incoming.size, unsized.1, Event.sizeTo]

theorem Heard.announced (heard : Heard y srv chunks r) {app : Bytes} {s : RtmpSession}
    (wrote : RtmpSession.write { srv.sessions y with app, maxChunkSize := 4096 }
      (.control 1 (toBE32 4096)) = .ok s) :
    ∃ more r', (((srv.set y s).emit (.announce y 4096)).sessions y).written =
        (srv.sessions y).written ++ more ∧
      Heard y ((srv.set y s).emit (.announce y 4096)) (chunks ++ more) r' := by
  have agree₀ : Reader.Agree { srv.sessions y with app } r.session :=
    ⟨heard.agree.between, heard.agree.size, heard.agree.positive, heard.agree.inStep⟩
  obtain ⟨w', buffers, s', m, wrote', written, agree, matching, listens⟩ :=
    agree₀.announce (n := 4096) heard.room (by decide)
  cases wrote.symm.trans wrote'
  have size : s.maxChunkSize = 4096 := congrArg (·.maxChunkSize) (RtmpSession.writeChunk_quiet wrote)
  have type : m.type = 1 := matching.type
  have said : m.size = some 4096 := by
    have payload : m.payload = toBE32 4096 := matching.payload
    rw [Incoming.size, if_pos ⟨type, matching.streamId⟩, payload, RtmpSession.wordAt_toBE32]
    rfl
  simp only [emit, set_sessions]
  refine ⟨buffers, _, written, heard.said ?_ ?_ listens rfl ?_ ?_⟩
  · simp only [set_sessions]
    exact agree
  · simp only [set_sessions, size]
    decide
  · simp [Incoming.media, type, Event.passedTo]
  · simp [said, Event.sizeTo]

theorem Heard.deed (heard : Heard y srv chunks r) (deed : Deed x srv srv')
    (fine : ∀ e ∈ srv'.log, e.Fine y) : ∃ more r',
      (srv'.sessions y).written = (srv.sessions y).written ++ more ∧
        Heard y srv' (chunks ++ more) r' := by
  -- a session that is not concerned
  have other : ∀ {es : List Event}, srv'.sessions y = srv.sessions y → srv'.log = srv.log ++ es →
      (∀ e ∈ es, ¬ e.Tells y) → ∃ more r',
        (srv'.sessions y).written = (srv.sessions y).written ++ more ∧
          Heard y srv' (chunks ++ more) r' := by
    intro es same log silent
    refine ⟨[], r, by rw [same, List.append_nil], ?_⟩
    rw [List.append_nil]
    exact heard.silent (by rw [same]) (by rw [same]) log silent
  cases deed with
  | @replied z o s addressed reply wrote =>
      by_cases self : y = z
      · subst self
        exact heard.replied reply wrote
      · exact other (set_other _ _ self) (List.append_nil _).symm (by simp)
  | @passed z ref pkt s placed tagged wrote =>
      by_cases self : y = z
      · subst self
        have noted : .relayed x ref y pkt ∈ srv.log ++ [.relayed x ref y pkt] := by simp
        exact heard.passed tagged (fine _ noted rfl) wrote
      · exact other (set_other _ _ self) rfl (by simp [Event.Tells, Ne.symm self])
  | @announced app s wrote =>
      by_cases self : y = x
      · subst self
        exact heard.announced wrote
      · exact other (set_other _ _ self) rfl (by simp [Event.Tells, Ne.symm self])
  | @own s csOut written size =>
      by_cases self : y = x
      · subst self
        refine ⟨[], r, by rw [set_sessions, written, List.append_nil], ?_⟩
        rw [List.append_nil]
        exact heard.silent (by rwa [set_sessions]) (by rwa [set_sessions])
          (List.append_nil srv.log).symm (by simp)
      · exact other (set_other _ _ self) (List.append_nil _).symm (by simp)
  | @resized s size =>
      by_cases self : y = x
      · subst self
        have noted : .announced y size ∈ srv.log ++ [.announced y size] := by simp
        exact absurd rfl (fine _ noted)
      · exact other (set_other _ _ self) rfl (by simp [Event.Tells, Ne.symm self])
  | registered sessions log silent =>
      exact other (congrFun sessions y) log fun e inside => silent e inside y

theorem Heard.deeds (heard : Heard y srv chunks r) (deeds : Deeds x srv srv')
    (fine : ∀ e ∈ srv'.log, e.Fine y) : ∃ more r',
      (srv'.sessions y).written = (srv.sessions y).written ++ more ∧
        Heard y srv' (chunks ++ more) r' := by
  induction deeds with
  | refl => exact ⟨[], r, (List.append_nil _).symm, by rwa [List.append_nil]⟩
  | tail _ deed ih =>
      obtain ⟨more, r₁, written, heard₁⟩ := ih fun e inside => fine e (deed.log.subset inside)
      obtain ⟨more', r', written', heard'⟩ := heard₁.deed deed fine
      refine ⟨more ++ more', r', by rw [written', written, List.append_assoc], ?_⟩
      rwa [← List.append_assoc]

theorem shake_deeds (env : Env) (srv : Server) (x : SessionId) (buf : Bytes) :
    Deeds x srv (srv.shake env x buf).2.1 ∨ (srv.shake env x buf).1 = .ok ∧
      ∃ hs reply, (srv.sessions x).state = .init ∧ reply.length ≤ 1 ∧
        (srv.shake env x buf).2.1 = srv.set x { srv.sessions x with
          hs
          state := .handshakeC2
          written := (srv.sessions x).written ++ reply } := by
  have shaken := srv.shake_cases env x buf
  generalize srv.shake env x buf = result at shaken
  cases shaken with
  | waits => exact .inl .refl
  | refused => exact .inl (own_deeds rfl rfl rfl)
  | greeted init =>
      refine .inr ⟨rfl, _, _, init, ?_, rfl⟩
      exact Option.length_toList_le
  | @shaken hs =>
      have moved : Deeds x srv (srv.set x { srv.sessions x with hs, state := .connect }) :=
        own_deeds rfl rfl rfl
      exact .inl (moved.trans (note_deeds fun _ => id))

theorem parse_deeds (srv : Server) (x : SessionId) (buf : Bytes) :
    Deeds x srv (srv.parse x buf).2.1 := by
  unfold parse
  split
  · exact same_deeds rfl rfl rfl
  · next read =>
      obtain ⟨_, _, _, _, rfl⟩ := RtmpSession.readChunkStream_own read
      exact own_deeds rfl rfl rfl

theorem close_init (srv : Server) (x : SessionId)
    (init : ((srv.close x).sessions x).state = .init) :
    ((srv.close x).sessions x).written = (srv.sessions x).written := by
  unfold close at init ⊢
  split
  · next opened =>
      simp only [opened, if_true] at init ⊢
      split
      · next srv' closed =>
          simp only [closed] at init
          obtain ⟨srv₁, _, rest⟩ := bind_ok.mp closed
          cases rest
          rw [set_sessions] at init
          cases init
      · rw [crash, set_sessions]
  · rfl

end Server

namespace Host

/-- A step is deeds of its session, or its reply to the first half of the handshake. -/
theorem step_deeds (host : Host) (l : Label) (tidy : host.server.Tidy)
    (narrow : ∀ x, (host.server.sessions x).csid < 64) :
    host.server.Deeds l.session (host.step l).server ∨
      ∃ hs reply, (host.server.sessions l.session).state = .init ∧ reply.length ≤ 1 ∧
        (host.step l).server = host.server.set l.session { host.server.sessions l.session with
          hs
          state := .handshakeC2
          written := (host.server.sessions l.session).written ++ reply } := by
  unfold step
  split
  · cases l with
    | accept x =>
        simp only [perform]
        split
        · exact .inl (Server.own_deeds rfl rfl rfl)
        · exact .inl .refl
    | receive x data =>
        simp only [perform]
        split <;> exact .inl .refl
    | shake x env =>
        simp only [perform]
        split
        · obtain deeds | ⟨done, greeting⟩ := Server.shake_deeds env host.server x (host.recvBuf x)
          · split
            · exact .inl (deeds.trans (Server.close_deeds _ x))
            · exact .inl deeds
          · rw [if_neg (by rw [done]; decide)]
            exact .inr greeting
        · exact .inl .refl
    | parse x =>
        have deeds := Server.parse_deeds host.server x (host.recvBuf x)
        simp only [perform]
        split
        · split
          · exact .inl (deeds.trans (Server.close_deeds _ x))
          · exact .inl deeds
        · exact .inl .refl
    | dispatch x env =>
        simp only [perform]
        split
        · exact .inl (Server.dispatch_deeds env tidy (narrow x))
        · exact .inl .refl
    | close x => exact .inl (Server.close_deeds host.server x)
  · exact .inl .refl

/-- A session that is not past `INIT` was sent nothing. -/
def Unspoken (host : Host) : Prop :=
  ∀ y, (host.server.sessions y).state = .init → (host.server.sessions y).written = []

theorem Unspoken.step {recordForce : Bool} {host : Host} (reached : (machine recordForce).Reachable host)
    (unspoken : host.Unspoken) (l : Label) : (host.step l).Unspoken := by
  intro y init
  have first : (host.server.sessions y).state = .init := by
    have forward := (host.step_acts_close l).forward y
    rw [init] at forward
    exact SessionState.rank_init forward
  have before := unspoken y first
  by_cases self : y = l.session
  · subst self
    unfold Host.step at init ⊢
    split
    · next running =>
        rw [if_pos running] at init
        cases l with
        | accept x =>
            simp only [perform] at init ⊢
            split
            · simp only [Server.set_sessions, Label.session]
              exact before
            · exact before
        | receive x data =>
            simp only [perform]
            split <;> exact before
        | shake x env =>
            have shaken := host.server.shake_cases env x (host.recvBuf x)
            simp only [perform] at init ⊢
            split
            · next phase =>
                rw [if_pos phase] at init
                generalize host.server.shake env x (host.recvBuf x) = result at shaken init
                cases shaken with
                | waits => exact before
                | refused =>
                    refine (Server.close_init _ x init).trans ?_
                    simp only [put, Server.set_sessions]
                    exact before
                | greeted | shaken =>
                    simp [put, Server.emit, Label.session] at init
            · exact before
        | parse x =>
            have idle : ¬ host.Parsing x := fun parsing => parsing.2.1.1 first
            simp only [perform]
            rw [if_neg idle]
            exact before
        | dispatch x env =>
            have idle : ¬ host.Ready x := fun ready => ready.2.1.1 first
            simp only [perform]
            rw [if_neg idle]
            exact before
        | close x => exact (Server.close_init host.server x init).trans before
    · exact before
  · have early : ¬ (host.server.sessions y).Entered := by
      rintro (entered | entered) <;> rw [first] at entered <;> cases entered
    rw [(host.step_other self (gone reached early)).1]
    exact before

theorem csid_fits {recordForce : Bool} {host : Host} (reached : (machine recordForce).Reachable host)
    (x : SessionId) : (host.server.sessions x).csid < 64 := by
  refine reached.invariant (P := fun host => ∀ x, (host.server.view.decoders x).csid < 64)
    (fun _ => (by decide : (0 : UInt16) < 64)) (fun host l fits y => ?_) x
  have update : ∀ {x d es}, d.csid < 64 → ((host.server.viewWith x d es).decoders y).csid < 64 := by
    intro x d es narrow
    simp only [Server.viewWith]
    by_cases self : y = x
    · subst self
      rwa [Function.update_self]
    · rw [Function.update_of_ne self]
      exact fits y
  obtain view | ⟨x, ret, s, rest, rfl, running, parsing, read⟩ | ⟨x, env, rfl, ready, done⟩ :=
    host.step_view l
  · change ((host.step l).server.view.decoders y).csid < 64
    rw [view]
    exact fits y
  · change ((host.step (.parse x)).server.view.decoders y).csid < 64
    rw [host.parse_view running parsing read]
    exact update (RtmpSession.readChunkStream_narrow (fits x) read)
  · change ((host.step (.dispatch x env)).server.view.decoders y).csid < 64
    rw [done]
    obtain ⟨d, es, handled, view⟩ | ⟨_, _, es, _, view⟩ := host.server.dispatch_view env x <;>
      rw [view]
    · refine update ?_
      generalize (host.server.dispatch env x).1 = ret at handled
      cases handled <;> exact fits x
    · exact update (fits x)

/-- The caches hold packets that are what they are said to be, and nobody was sent anything early. -/
theorem wire_ready {recordForce : Bool} {host : Host} (reached : (machine recordForce).Reachable host) :
    host.server.Tidy ∧ host.Unspoken := by
  obtain ⟨labels, rfl⟩ := reached
  induction labels using List.reverseRecOn with
  | nil =>
      refine ⟨?_, fun _ _ => rfl⟩
      rintro pkt ⟨url, st, found, _⟩
      cases found
  | append_singleton labels l ih =>
      obtain ⟨tidy, unspoken⟩ := ih
      have reached := Machine.Reachable.run (machine recordForce) labels
      rw [Machine.run_snoc]
      refine ⟨?_, unspoken.step reached l⟩
      obtain deeds | ⟨_, _, _, _, greeted⟩ := step_deeds _ l tidy (csid_fits reached)
      · exact Server.Deeds.tidy deeds tidy
      · change Server.Tidy (Host.step _ l).server
        rw [greeted]
        exact tidy

/-- What `y` was sent is the reply to the first half of the handshake, if any, and what it heard. -/
def Wired (host : Host) (y : SessionId) : Prop :=
  ∃ hello chunks r, (host.server.sessions y).written = hello ++ chunks ∧ hello.length ≤ 1 ∧
    host.server.Heard y chunks r

theorem Wired.step {recordForce : Bool} {host : Host} {y : SessionId}
    (reached : (machine recordForce).Reachable host) (wired : host.Wired y) (l : Label)
    (fine : ∀ e ∈ (host.step l).server.log, e.Fine y) : (host.step l).Wired y := by
  obtain ⟨hello, chunks, r, written, one, heard⟩ := wired
  obtain ⟨tidy, unspoken⟩ := wire_ready reached
  obtain deeds | ⟨hs, reply, init, short, greeted⟩ := host.step_deeds l tidy (csid_fits reached)
  · obtain ⟨more, r', written', heard'⟩ := heard.deeds deeds fine
    exact ⟨hello, chunks ++ more, r', by rw [written', written, List.append_assoc], one, heard'⟩
  · unfold Wired
    rw [greeted]
    by_cases self : y = l.session
    · subst self
      have nothing := unspoken _ init
      rw [written] at nothing
      obtain ⟨rfl, rfl⟩ := List.append_eq_nil_iff.mp nothing
      refine ⟨reply, [], r, ?_, short, heard.silent ?_ ?_ (List.append_nil host.server.log).symm (by simp)⟩
      all_goals rw [Server.set_sessions]
      simp [written]
    · refine ⟨hello, chunks, r, ?_, one, heard.silent ?_ ?_ (List.append_nil host.server.log).symm
        (by simp)⟩
      all_goals rw [Server.set_other _ _ self]
      exact written

theorem Wired.run (recordForce : Bool) (labels : List Label) (y : SessionId)
    (fine : ∀ e ∈ ((machine recordForce).run labels).server.log, e.Fine y) :
    ((machine recordForce).run labels).Wired y := by
  induction labels using List.reverseRecOn with
  | nil =>
      refine ⟨[], [], { session := {} }, rfl, Nat.zero_le _,
        ⟨rfl, rfl, (by decide : 0 < (128 : UInt32).toNat), fun csid => ?_⟩,
        (by decide : 4 ≤ (128 : UInt32).toNat), fun rest d drained => drained, .nil, rfl⟩
      exact ⟨⟨rfl, rfl, rfl, rfl, rfl⟩, rfl, rfl, fun known => absurd rfl known⟩
  | append_singleton labels l ih =>
      rw [Machine.run_snoc] at fine ⊢
      have reached := Machine.Reachable.run (machine recordForce) labels
      refine Wired.step reached (ih fun e inside => fine e ?_) l fine
      obtain ⟨tidy, _⟩ := wire_ready reached
      obtain deeds | ⟨_, _, _, _, greeted⟩ := step_deeds _ l tidy (csid_fits reached)
      · exact (Server.Deeds.log deeds).subset inside
      · change e ∈ (Host.step _ l).server.log
        rw [greeted]
        exact inside

end Host

/-- Whatever all the sessions do, what one is sent after the reply to its handshake is read back by a
    peer that heeds the chunk sizes it is told: nothing is left over, the media messages are the
    packets passed to the session in their order, and the chunk sizes those announced to it. The peer
    itself must have set none, and the packets must fit. -/
theorem session_hears (recordForce : Bool) (labels : List Label) (y : SessionId)
    (fine : ∀ e ∈ ((machine recordForce).run labels).server.log, e.Fine y) :
    ∃ hello chunks,
      (((machine recordForce).run labels).server.sessions y).written = hello ++ chunks ∧
      hello.length ≤ 1 ∧
      (Reader.hear { session := {} } chunks.flatten).halted = false ∧
      (Reader.hear { session := {} } chunks.flatten).rest = [] ∧
      (Reader.hear { session := {} } chunks.flatten).state.session.Rests ∧
      List.Forall₂ Incoming.Relays
        ((Reader.hear { session := {} } chunks.flatten).state.messages.filter (·.media))
        (((machine recordForce).run labels).server.log.filterMap (Event.passedTo y)) ∧
      (Reader.hear { session := {} } chunks.flatten).state.messages.filterMap (·.size) =
        ((machine recordForce).run labels).server.log.filterMap (Event.sizeTo y) := by
  obtain ⟨hello, chunks, r, written, one, heard⟩ := Host.Wired.run recordForce labels y fine
  have drained := heard.listens [] _ (.empty r)
  rw [List.append_nil] at drained
  have same := (Reader.hear_drains _ _).unique drained
  refine ⟨hello, chunks, written, one, ?_⟩
  rw [same]
  exact ⟨rfl, rfl, heard.agree.rests, heard.media, heard.sizes⟩

/-- Session 1 publishes, session 2 plays, and two video messages come. -/
def viewedRun : List Label :=
  Peer.enter 1 "live" ++ Peer.enter 2 "live" ++ Peer.deliver 2 (Peer.named "play" "1") ++
    Peer.deliver 1 (Peer.publish "1" "live") ++
    Peer.deliver 1 (Peer.message 6 9 1 [0x17, 0, 0, 0, 0, 1]) ++
    Peer.deliver 1 (Peer.message 6 9 1 [0x27, 1, 0, 0, 0, 2, 3])

set_option maxRecDepth 4000 in
theorem session_hears_viewer :
    ∃ hello chunks, (((machine false).run viewedRun).server.sessions 2).written = hello ++ chunks ∧
      hello.length ≤ 1 ∧
      ((Reader.hear { session := {} } chunks.flatten).state.messages.filter (·.media)).length = 2 ∧
      (Reader.hear { session := {} } chunks.flatten).state.messages.filterMap (·.size) = [4096] := by
  obtain ⟨hello, chunks, written, one, _, _, _, media, sizes⟩ :=
    session_hears false viewedRun 2 (by decide +kernel)
  refine ⟨hello, chunks, written, one, ?_, ?_⟩
  · rw [media.length_eq]
    decide +kernel
  · rw [sizes]
    decide +kernel

end DroneServer
