import DroneServer.Rtmp.Peer
import DroneServer.Rtmp.Registry

/-! # Which media pipe a stream feeds

A stream feeds the pipe of the drone its name stands for, and only its own
publisher makes that pipe go. Streams are kept by url and pipes by the id in the
name, so two streams of one drone share a pipe, and two of different drones never
touch each other's.
-/

namespace DroneServer

namespace FlvDemuxer

theorem readPacket_cid {d d' : FlvDemuxer} {pkt : MediaPacket} (done : d.readPacket pkt = .ok d') :
    d'.cid = d.cid := by
  unfold readPacket at done
  split at done
  · cases done
  split at done
  · cases done
    rfl
  split at done <;> cases done <;> rfl

theorem decode_ok {this demux : Option FlvDemuxer} {mm mm' : MediaManager} {pkt : MediaPacket}
    (done : decode this mm pkt = .ok (demux, mm')) :
    (demux = this ∧ mm' = mm) ∨ ∃ d d', this = some d ∧ demux = some d' ∧ d'.cid = d.cid ∧
      mm' = (mm.pipe d.cid).2 := by
  unfold decode at done
  split at done
  · cases done
    exact .inl ⟨rfl, rfl⟩
  split at done
  · cases done
  · next d =>
      refine .inr ?_
      simp only at done
      split at done
      · cases done
        exact ⟨d, d, rfl, rfl, rfl, rfl⟩
      · obtain ⟨d', read, rest⟩ := bind_ok.mp done
        cases rest
        exact ⟨d, d', rfl, rfl, readPacket_cid read, rfl⟩

theorem wrapWrite_ok {demux demux' : Option FlvDemuxer} {mm mm' : MediaManager} {pkt : MediaPacket}
    {cid : ClientId} (made : pkt.cid = cid) (fed : ∀ d, demux = some d → d.cid = cid)
    (done : wrapWrite demux mm pkt = .ok (demux', mm')) :
    (∀ d, demux' = some d → d.cid = cid) ∧ (mm' = mm ∨ mm' = (mm.pipe cid).2) := by
  have own : ∀ {this}, (∀ d, this = some d → d.cid = cid) →
      decode this mm pkt = .ok (demux', mm') →
      (∀ d, demux' = some d → d.cid = cid) ∧ (mm' = mm ∨ mm' = (mm.pipe cid).2) := by
    intro this drone done
    obtain ⟨rfl, rfl⟩ | ⟨d, d', found, rfl, same, rfl⟩ := decode_ok done
    · exact ⟨drone, .inl rfl⟩
    · refine ⟨fun d'' again => ?_, .inr (by rw [drone d found])⟩
      cases again
      exact same.trans (drone d found)
  cases demux with
  | some d => exact own fed done
  | none =>
      refine own (fun d found => ?_) done
      simp only at found
      split at found
      · cases found
        exact made
      · cases found

end FlvDemuxer

theorem MediaManager.pipe_other (mm : MediaManager) {cid c : ClientId} (other : c ≠ cid) :
    (mm.pipe cid).2.recs c = mm.recs c := by
  unfold pipe
  split
  · rfl
  · exact Function.update_of_ne other _ _

theorem MediaManager.erase_other (mm : MediaManager) {cid c : ClientId} (other : c ≠ cid) :
    (mm.erase cid).recs c = mm.recs c := Function.update_of_ne other _ _

namespace RtmpStream

/-- The stream is that of the drone its url names, and so is its demuxer. -/
structure Fed (st : RtmpStream) : Prop where
  drone : cidFromHex (nameOf st.url) = .ok st.cid
  demux : ∀ d, st.demux = some d → d.cid = st.cid

/-- A packet that is accepted looks up the pipe of the stream's drone at most. -/
theorem send_fed {st st' : RtmpStream} {mm mm' : MediaManager} {x : SessionId}
    {cs : RtmpChunkStream} {pkt : MediaPacket} {writes : List (SessionId × MediaPacket)}
    (fed : st.Fed) (done : st.send mm x cs = .ok (some (st', mm', pkt, writes))) :
    st'.Fed ∧ st'.cid = st.cid ∧ (mm' = mm ∨ mm' = (mm.pipe st.cid).2) := by
  unfold send at done
  split at done
  · cases done
  · obtain ⟨pkt', made, done⟩ := bind_ok.mp done
    obtain ⟨⟨demux, mm₁⟩, wrote, done⟩ := bind_ok.mp done
    cases done
    have drone : pkt.cid = st.cid :=
      Except.ok.inj ((chunkStreamToMediaPkt_ok made).1.symm.trans fed.drone)
    obtain ⟨own, media⟩ := FlvDemuxer.wrapWrite_ok drone fed.demux wrote
    exact ⟨⟨fed.drone, own⟩, rfl, media⟩

theorem create_fed {ref : Nat} {url : Bytes} {st : RtmpStream} (done : create ref url = .ok st) :
    st.Fed := by
  obtain ⟨cid, named, rest⟩ := bind_ok.mp done
  cases rest
  exact ⟨named, fun _ none => by cases none⟩

theorem Fed.join {st : RtmpStream} (fed : st.Fed) (x : SessionId) (publisher : Bool) :
    (st.join x publisher).2.Fed := by
  obtain ⟨same, _⟩ | ⟨_, _, same⟩ := st.join_cases x publisher <;> rw [same]
  · exact fed
  · exact ⟨fed.drone, fed.demux⟩

end RtmpStream

namespace Server

/-- Every registered stream feeds the pipe of the drone its url names. -/
def Fed (srv : Server) : Prop := ∀ url st, srv.streams url = some st → st.Fed

variable {srv srv' : Server} {x : SessionId}

theorem Fed.put (fed : srv.Fed) {url : Bytes} {new : Option RtmpStream}
    (streams : srv'.streams = Function.update srv.streams url new)
    (own : ∀ st, new = some st → st.Fed) : srv'.Fed := by
  intro u st found
  rw [streams] at found
  by_cases same : u = url
  · rw [same, Function.update_self] at found
    exact own st found
  · rw [Function.update_of_ne same] at found
    exact fed u st found

theorem findStream_fed (fed : srv.Fed) {url : Bytes} {st : RtmpStream} {srv₁ : Server}
    (done : srv.findStream url = .ok (st, srv₁)) : st.Fed := by
  unfold findStream at done
  split at done
  · next found =>
      cases done
      exact fed url st found
  · obtain ⟨made, created, rest⟩ := bind_ok.mp done
    cases rest
    exact RtmpStream.create_fed created

theorem findStream_streams {url : Bytes} {st : RtmpStream} {srv₁ : Server}
    (done : srv.findStream url = .ok (st, srv₁)) : srv₁.streams = srv.streams := by
  obtain ⟨_, rfl⟩ | ⟨_, _, _, _, _, _, _, streams, _⟩ := findStream_ok done
  · rfl
  · exact streams

theorem Fed.act {may : Grants} (fed : srv.Fed) (act : Act may x srv srv') : srv'.Fed := by
  cases act with
  | wrote quiet =>
      intro url st found
      rw [quiet_streams quiet] at found
      exact fed url st found
  | note | own | advanced | closed | crashed => exact fed
  | released => exact fed.put rfl fun _ none => by cases none
  | @departed st found =>
      refine fed.put rfl fun st' stays => ?_
      split at stays
      · cases stays
      · cases stays
        exact ⟨(fed _ st found).drone, (fed _ st found).demux⟩
  | @entered srv₁ st publisher found phase =>
      refine fed.put (joined_streams (findStream_streams found) x _ st publisher) fun st' same => ?_
      cases same
      exact (findStream_fed fed found).join x publisher
  | relayed found phase accepted =>
      refine fed.put rfl fun st' same => ?_
      cases same
      exact (RtmpStream.send_fed (fed _ _ found) accepted).1

/-- The session transfers media or is closed, and the only drone it publishes for is this one. -/
structure PublishesFor (srv : Server) (x : SessionId) (cid : ClientId) : Prop where
  entered : (srv.sessions x).Entered
  drone : ∀ url st, srv.streams url = some st → st.publisher = some x → st.cid = cid

theorem PublishesFor.put {cid : ClientId} (publishes : srv.PublishesFor x cid) {url : Bytes}
    {new : Option RtmpStream} (streams : srv'.streams = Function.update srv.streams url new)
    (own : ∀ st, new = some st → st.publisher = some x → st.cid = cid)
    (entered : (srv'.sessions x).Entered) : srv'.PublishesFor x cid := by
  refine ⟨entered, fun u st found host => ?_⟩
  rw [streams] at found
  by_cases same : u = url
  · rw [same, Function.update_self] at found
    exact own st found host
  · rw [Function.update_of_ne same] at found
    exact publishes.drone u st found host

/-- What a session that publishes for one drone does leaves the pipes of all others alone. -/
theorem PublishesFor.act {may : Grants} {cid : ClientId} (fed : srv.Fed)
    (publishes : srv.PublishesFor x cid) (act : Act may x srv srv') :
    srv'.PublishesFor x cid ∧ ∀ c, c ≠ cid → srv'.media.recs c = srv.media.recs c := by
  have entered : (srv'.sessions x).Entered := by
    have moves := act.moves
    have before := publishes.entered
    unfold RtmpSession.Entered at before ⊢
    generalize (srv.sessions x).state = state at moves before
    generalize (srv'.sessions x).state = state' at moves ⊢
    cases moves with
    | stay => exact before
    | advance phase => rcases before with rfl | rfl <;> cases phase
    | enter => exact .inl rfl
    | close => exact .inr rfl
  cases act with
  | wrote quiet =>
      have media : srv'.media = srv.media := quiet_agree quiet Server.media fun _ => rfl
      refine ⟨⟨entered, fun url st found => ?_⟩, fun c _ => by rw [media]⟩
      rw [quiet_streams quiet] at found
      exact publishes.drone url st found
  | note | own | advanced | closed | crashed =>
      exact ⟨⟨entered, publishes.drone⟩, fun _ _ => rfl⟩
  | released => exact ⟨publishes.put rfl (fun _ none => by cases none) entered, fun _ _ => rfl⟩
  | @departed st found =>
      refine ⟨publishes.put rfl (fun st' stays host => ?_) entered, fun c other => ?_⟩
      · split at stays
        · cases stays
        · cases stays
          exact absurd rfl (RtmpStream.leave_publisher.mp host).1
      · simp only [left, mediaWithout]
        split
        · next host =>
            have drone := publishes.drone _ st found host
            exact MediaManager.erase_other _ (drone ▸ other)
        · rfl
  | entered publisher found phase =>
      rcases publishes.entered with state | state <;> rw [phase] at state <;> cases state
  | @relayed st st' media cs pkt writes found phase accepted =>
      obtain ⟨host, _⟩ := RtmpStream.send_ok accepted
      have drone := publishes.drone _ st found host
      obtain ⟨_, same, looked⟩ := RtmpStream.send_fed (fed _ st found) accepted
      refine ⟨publishes.put rfl (fun st'' again _ => ?_) entered, fun c other => ?_⟩
      · cases again
        exact same.trans drone
      · rcases looked with rfl | rfl
        · rfl
        · exact MediaManager.pipe_other _ (drone ▸ other)

theorem PublishesFor.acts {may : Grants} {cid : ClientId} (fed : srv.Fed)
    (publishes : srv.PublishesFor x cid) (acts : Acts may x srv srv') :
    ∀ c, c ≠ cid → srv'.media.recs c = srv.media.recs c := by
  have all := Acts.invariant (P := fun srv' => (srv'.Fed ∧ srv'.PublishesFor x cid) ∧
    ∀ c, c ≠ cid → srv'.media.recs c = srv.media.recs c)
    (fun _ _ ⟨⟨fed, publishes⟩, same⟩ act => by
      obtain ⟨publishes', kept⟩ := publishes.act fed act
      exact ⟨⟨fed.act act, publishes'⟩, fun c other => (kept c other).trans (same c other)⟩)
    acts ⟨⟨fed, publishes⟩, fun _ _ => rfl⟩
  exact all.2

end Server

theorem Server.Fed.reachable {recordForce : Bool} {host : Host}
    (reached : (machine recordForce).Reachable host) : host.server.Fed :=
  Reachable.of_acts (fun _ _ none => by cases none) (fun fed act => fed.act act) reached

/-- Whatever the publisher of a stream does, leaving it by a close or an FCUnpublish included, the
    media pipe of every stream of another drone stays as it is, with its writers; and that is the
    pipe the frames of such a stream go to. -/
theorem pipes_isolated (recordForce : Bool) (labels : List Label) (l : Label) (u v : Bytes)
    (st other : RtmpStream)
    (registered : ((machine recordForce).run labels).server.streams u = some st)
    (publisher : st.publisher = some l.session)
    (found : ((machine recordForce).run labels).server.streams v = some other)
    (apart : other.cid ≠ st.cid) :
    (cidFromHex (RtmpStream.nameOf v) = .ok other.cid ∧
      ∀ d, other.demux = some d → d.cid = other.cid) ∧
    ((machine recordForce).run (labels ++ [l])).server.media.recs other.cid =
      ((machine recordForce).run labels).server.media.recs other.cid := by
  have reached := Machine.Reachable.run (machine recordForce) labels
  rw [Machine.run_snoc]
  generalize (machine recordForce).run labels = host at reached registered found ⊢
  have reg := Registry.reachable reached
  have fed := Server.Fed.reachable reached
  have named := (reg.sound found).named
  subst named
  have inside := (reg.sound registered).hosted _ publisher
  have publishes : host.server.PublishesFor l.session st.cid := by
    refine ⟨reg.entered registered inside, fun url st' found' publisher' => ?_⟩
    obtain rfl := reg.single registered found' inside ((reg.sound found').hosted _ publisher')
    rw [registered] at found'
    cases found'
    rfl
  refine ⟨⟨(fed _ _ found).drone, (fed _ _ found).demux⟩, ?_⟩
  exact publishes.acts fed (host.step_acts_close l) other.cid apart

/-- Two sessions publish for drones 1 and 2, with recording forced. -/
def twoDrones : List Label :=
  Peer.enter 1 "live" ++ Peer.deliver 1 (Peer.publish "1" "live") ++
    Peer.enter 2 "live" ++ Peer.deliver 2 (Peer.publish "2" "live")

set_option maxRecDepth 4000 in
/-- The recorder of the second drone stays attached when the first session is closed. -/
theorem pipes_isolated_twoDrones :
    (((machine true).run (twoDrones ++ [.close 1])).server.media.recs 2).map (·.writers) =
      some [1] := by
  obtain ⟨publisher, drone, attached⟩ : (((machine true).run twoDrones).server.streams
        (ascii "live/1")).map (fun st => (st.publisher, st.cid)) = some (some 1, 1) ∧
      (((machine true).run twoDrones).server.streams (ascii "live/2")).map (·.cid) = some 2 ∧
      (((machine true).run twoDrones).server.media.recs 2).map (·.writers) = some [1] := by
    decide +kernel
  obtain ⟨st, registered, host⟩ := Option.map_eq_some_iff.mp publisher
  obtain ⟨other, found, second⟩ := Option.map_eq_some_iff.mp drone
  obtain ⟨host, first⟩ := Prod.mk.inj host
  have apart : other.cid ≠ st.cid := by
    rw [first, second]
    decide
  obtain ⟨_, kept⟩ := pipes_isolated true twoDrones (.close 1) (ascii "live/1") (ascii "live/2") st
    other registered host found apart
  rw [second] at kept
  rw [kept]
  exact attached

/-- Two sessions publish under two urls for the same drone, with recording forced. -/
def oneDroneTwice : List Label :=
  Peer.enter 1 "live" ++ Peer.deliver 1 (Peer.publish "1" "live") ++
    Peer.enter 2 "rec" ++ Peer.deliver 2 (Peer.publish "1" "rec")

set_option maxRecDepth 4000 in
/-- Closing the one takes the pipe of the other, with the recorders attached to it. -/
theorem pipe_lost_with_other_stream :
    ¬ ∀ (labels : List Label) (x : SessionId) (u v : Bytes) (st other : RtmpStream), u ≠ v →
      ((machine true).run labels).server.streams u = some st → st.publisher = some x →
      ((machine true).run labels).server.streams v = some other →
      ((machine true).run (labels ++ [.close x])).server.media.recs other.cid =
        ((machine true).run labels).server.media.recs other.cid := by
  intro all
  obtain ⟨publisher, drone, before, gone⟩ : (((machine true).run oneDroneTwice).server.streams
        (ascii "live/1")).map (·.publisher) = some (some 1) ∧
      (((machine true).run oneDroneTwice).server.streams (ascii "rec/1")).map (·.cid) = some 1 ∧
      (((machine true).run oneDroneTwice).server.media.recs 1).isSome ∧
      (((machine true).run (oneDroneTwice ++ [.close 1])).server.media.recs 1).isNone := by
    decide +kernel
  obtain ⟨st, registered, host⟩ := Option.map_eq_some_iff.mp publisher
  obtain ⟨other, found, second⟩ := Option.map_eq_some_iff.mp drone
  have kept := all oneDroneTwice 1 (ascii "live/1") (ascii "rec/1") st other (by decide) registered
    host found
  rw [second] at kept
  rw [kept, Option.isNone_iff_eq_none] at gone
  rw [gone] at before
  cases before

end DroneServer
