import DroneServer.Rtmp.Sending
import DroneServer.Rtmp.Steady

/-! # What a handler sends, message by message

An act of a session leaves out what is sent. A deed tells it: a reply to the session
itself or to a peer of a stream, a packet passed to such a peer, the announcement of
a chunk size. Everything else a handler does, to its session or to the registry,
sends nothing.
-/

namespace DroneServer

open Endian

/-- The packet is of the kind its message type says. -/
def MediaPacket.Tagged (pkt : MediaPacket) : Prop :=
  (pkt.rtmpType = 9 ∧ pkt.type = .video) ∨ (pkt.rtmpType = 8 ∧ pkt.type = .audio) ∨
    (pkt.rtmpType = 18 ∧ pkt.type = .metadata)

theorem RtmpStream.chunkStreamToMediaPkt_tagged {st : RtmpStream} {ptr : Nat} {cs : RtmpChunkStream}
    {pkt : MediaPacket} (media : cs.type = 8 ∨ cs.type = 9 ∨ cs.type = 18)
    (done : st.chunkStreamToMediaPkt ptr cs = .ok pkt) : pkt.Tagged := by
  unfold chunkStreamToMediaPkt at done
  obtain ⟨cid, _, done⟩ := bind_ok.mp done
  simp only at done
  split at done
  · next video =>
      obtain ⟨_, _, done⟩ := bind_ok.mp done
      obtain ⟨_, _, done⟩ := bind_ok.mp done
      obtain ⟨_, _, done⟩ := bind_ok.mp done
      obtain ⟨_, _, done⟩ := bind_ok.mp done
      obtain ⟨_, _, done⟩ := bind_ok.mp done
      cases done
      exact .inl ⟨video, rfl⟩
  split at done
  · next audio =>
      obtain ⟨_, _, done⟩ := bind_ok.mp done
      split at done
      · obtain ⟨_, _, done⟩ := bind_ok.mp done
        cases done
        exact .inr (.inl ⟨audio, rfl⟩)
      · cases done
        exact .inr (.inl ⟨audio, rfl⟩)
  next no_video no_audio =>
  have metadata : cs.type = 18 := (media.resolve_left no_audio).resolve_left no_video
  rw [if_pos (.inl metadata)] at done
  cases done
  exact .inr (.inr ⟨metadata, rfl⟩)

/-- The event goes with a packet or a chunk size that `y` is sent, or with one that it set. -/
def Event.Tells (y : SessionId) : Event → Prop
  | .announce z _ | .announced z _ | .relayed _ _ z _ => z = y
  | _ => False

namespace Server

/-- The packet is in the cache of a registered stream. -/
def Cached (srv : Server) (pkt : MediaPacket) : Prop :=
  ∃ url st, srv.streams url = some st ∧ pkt ∈ st.gop.write

/-- Every packet in a cache is of the kind its message type says. -/
def Tidy (srv : Server) : Prop := ∀ pkt, srv.Cached pkt → pkt.Tagged

inductive Deed (x : SessionId) (srv : Server) : Server → Prop where
  | replied {y : SessionId} {o : Outgoing} {s : RtmpSession} (addressed : y = x ∨ srv.Placed y)
      (reply : o.Reply) (wrote : (srv.sessions y).write o = .ok s) : Deed x srv (srv.set y s)
  | passed {y : SessionId} {ref : Nat} {pkt : MediaPacket} {s : RtmpSession} (placed : srv.Placed y)
      (tagged : pkt.Tagged) (wrote : (srv.sessions y).writeMediaPacket pkt = .ok s) :
      Deed x srv ((srv.set y s).emit (.relayed x ref y pkt))
  | announced {app : Bytes} {s : RtmpSession}
      (wrote : RtmpSession.write { srv.sessions x with app, maxChunkSize := 4096 }
        (.control 1 (toBE32 4096)) = .ok s) : Deed x srv ((srv.set x s).emit (.announce x 4096))
  | own {s : RtmpSession} (csOut : s.csOut = (srv.sessions x).csOut)
      (written : s.written = (srv.sessions x).written)
      (size : s.maxChunkSize = (srv.sessions x).maxChunkSize) : Deed x srv (srv.set x s)
  | resized {s : RtmpSession} (size : UInt32) : Deed x srv ((srv.set x s).emit (.announced x size))
  | registered {srv' : Server} {es : List Event} (sessions : srv'.sessions = srv.sessions)
      (log : srv'.log = srv.log ++ es) (silent : ∀ e ∈ es, ∀ y, ¬ e.Tells y)
      (placed : ∀ y, srv'.Placed y → y = x ∨ srv.Placed y)
      (cached : ∀ pkt, srv'.Cached pkt → pkt.Tagged ∨ srv.Cached pkt) : Deed x srv srv'

/-- Any number of deeds on behalf of one session. -/
abbrev Deeds (x : SessionId) : Server → Server → Prop := Relation.ReflTransGen (Deed x)

theorem Deed.log {x : SessionId} {srv srv' : Server} (deed : Deed x srv srv') :
    srv.log <+: srv'.log := by
  cases deed with
  | replied | own => exact List.prefix_refl _
  | passed | announced | resized => exact List.prefix_append _ _
  | registered _ log => exact log ▸ List.prefix_append _ _

theorem Deed.tidy {x : SessionId} {srv srv' : Server} (deed : Deed x srv srv') (tidy : srv.Tidy) :
    srv'.Tidy := by
  cases deed with
  | replied | passed | announced | own | resized => exact tidy
  | registered _ _ _ _ cached => exact fun pkt inside => (cached pkt inside).elim id (tidy pkt)

theorem Deeds.log {x : SessionId} {srv srv' : Server} (deeds : Deeds x srv srv') :
    srv.log <+: srv'.log := by
  induction deeds with
  | refl => exact List.prefix_refl _
  | tail _ deed ih => exact ih.trans deed.log

theorem Deeds.tidy {x : SessionId} {srv srv' : Server} (deeds : Deeds x srv srv') (tidy : srv.Tidy) :
    srv'.Tidy := by
  induction deeds with
  | refl => exact tidy
  | tail _ deed ih => exact deed.tidy ih

section Handlers

variable {x : SessionId} {srv srv' : Server}

theorem same_deeds (sessions : srv'.sessions = srv.sessions) (streams : srv'.streams = srv.streams)
    (log : srv'.log = srv.log) : Deeds x srv srv' := by
  refine .single (.registered sessions (show _ = _ ++ [] by rw [log, List.append_nil]) (by simp)
    (fun y => ?_) fun pkt => ?_)
  · rintro ⟨url, st, found, inside⟩
    exact .inr ⟨url, st, streams ▸ found, inside⟩
  · rintro ⟨url, st, found, inside⟩
    exact .inr ⟨url, st, streams ▸ found, inside⟩

theorem note_deeds {e : Event} (silent : ∀ y, ¬ e.Tells y) : Deeds x srv (srv.emit e) := by
  refine .single (.registered rfl (show _ = _ ++ [e] from rfl) (fun e' inside => ?_) (fun y => .inr)
    fun pkt => .inr)
  rw [List.mem_singleton.mp inside]
  exact silent

theorem stream_deeds {url : Bytes} {new : Option RtmpStream} (sessions : srv'.sessions = srv.sessions)
    (streams : srv'.streams = Function.update srv.streams url new) (log : srv'.log = srv.log)
    (kept : ∀ st, new = some st → (∀ y, y ∈ st.peers → y = x ∨ srv.Placed y) ∧
      ∀ pkt, pkt ∈ st.gop.write → pkt.Tagged ∨ srv.Cached pkt) : Deeds x srv srv' := by
  have before : ∀ url' st', srv'.streams url' = some st' →
      new = some st' ∨ srv.streams url' = some st' := by
    intro url' st' found
    rw [streams] at found
    by_cases here : url' = url
    · rw [here, Function.update_self] at found
      exact .inl found
    · rw [Function.update_of_ne here] at found
      exact .inr found
  refine .single (.registered sessions (show _ = _ ++ [] by rw [log, List.append_nil]) (by simp)
    (fun y => ?_) fun pkt => ?_)
  · rintro ⟨url', st', found, inside⟩
    exact (before url' st' found).elim (fun here => (kept st' here).1 y inside)
      fun old => .inr ⟨url', st', old, inside⟩
  · rintro ⟨url', st', found, inside⟩
    exact (before url' st' found).elim (fun here => (kept st' here).2 pkt inside)
      fun old => .inr ⟨url', st', old, inside⟩

theorem own_deeds {s : RtmpSession} (csOut : s.csOut = (srv.sessions x).csOut)
    (written : s.written = (srv.sessions x).written)
    (size : s.maxChunkSize = (srv.sessions x).maxChunkSize) : Deeds x srv (srv.set x s) :=
  .single (.own csOut written size)

theorem reply_deeds {f : RtmpSession → Except Fault RtmpSession} (o : RtmpSession → Outgoing)
    (reply : (o (srv.sessions x)).Reply) (writes : ∀ s, f s = s.write (o s))
    (done : srv.within x f = .ok srv') : Deeds x srv srv' := by
  obtain ⟨s, ran, rfl⟩ := within_ok done
  rw [writes] at ran
  exact .single (.replied (.inl rfl) reply ran)

theorem foldlM_deeds {α : Type} {f : Server → SessionId × α → Except Fault Server}
    {l : List (SessionId × α)}
    (each : ∀ srv a srv', a ∈ l → srv.Placed a.1 → f srv a = .ok srv' →
      Deeds x srv srv' ∧ srv'.streams = srv.streams)
    (placed : ∀ a ∈ l, srv.Placed a.1) (done : l.foldlM f srv = .ok srv') : Deeds x srv srv' := by
  induction l generalizing srv with
  | nil =>
      cases done
      exact .refl
  | cons a l ih =>
      obtain ⟨srv₁, first, rest⟩ := bind_ok.mp done
      obtain ⟨wrote, streams⟩ := each srv a srv₁ List.mem_cons_self (placed a List.mem_cons_self) first
      refine wrote.trans (ih (fun srv b srv' inside => each srv b srv' (List.mem_cons_of_mem a inside))
        (fun b inside => ?_) rest)
      obtain ⟨url, st, found, peer⟩ := placed b (List.mem_cons_of_mem a inside)
      exact ⟨url, st, streams ▸ found, peer⟩

theorem leaveStream_deeds (done : srv.leaveStream x = .ok srv') : Deeds x srv srv' := by
  unfold leaveStream at done
  simp only at done
  split at done
  · cases done
    exact .refl
  · next st found =>
      have stored : Deeds x srv (srv.setStream (srv.sessions x).url (some (st.leave x))) := by
        refine stream_deeds rfl rfl rfl ?_
        rintro st' same
        cases same
        exact ⟨fun y inside => .inr ⟨_, st, found, (RtmpStream.mem_leave.mp inside).2⟩,
          fun pkt inside => .inr ⟨_, st, found, inside⟩⟩
      have left := stored.trans (note_deeds (e := .leave x st.ref) fun _ => id)
      have gone : ∀ srv₁ : Server, Deeds x srv₁
          (if (st.leave x).count = 0 then srv₁.setStream (srv.sessions x).url none else srv₁) := by
        intro srv₁
        split
        · exact stream_deeds rfl rfl rfl (by simp)
        · exact .refl
      split at done
      · obtain ⟨srv₁, told, rest⟩ := bind_ok.mp done
        cases rest
        have each : ∀ srv (peer : SessionId × Bool) srv', peer ∈ (st.leave x).peers.entries →
            srv.Placed peer.1 → srv.within peer.1 (·.sendStreamEof mediaStreamId) = .ok srv' →
            Deeds x srv srv' ∧ srv'.streams = srv.streams := by
          intro srv peer srv' _ placed sent
          obtain ⟨s, ran, rfl⟩ := within_ok sent
          exact ⟨.single (.replied (.inr placed) (.event (.inr rfl) _) ran), rfl⟩
        have told := foldlM_deeds each (fun peer entry =>
          ⟨_, _, Function.update_self _ _ _, Table.mem_of_entry entry⟩) told
        refine (left.trans ?_).trans (told.trans (gone srv₁))
        exact same_deeds rfl rfl rfl
      · cases done
        exact left.trans (gone _)

theorem onClose_deeds (done : srv.onClose x = .ok srv') : Deeds x srv srv' := by
  obtain ⟨srv₁, left, rest⟩ := bind_ok.mp done
  cases rest
  exact (leaveStream_deeds left).trans (own_deeds rfl rfl rfl)

theorem close_deeds (srv : Server) (x : SessionId) : Deeds x srv (srv.close x) := by
  unfold close
  split
  · refine Relation.ReflTransGen.trans
      (own_deeds (s := { srv.sessions x with isOpen := false }) rfl rfl rfl) ?_
    simp only
    split
    · next closed => exact onClose_deeds closed
    · exact same_deeds rfl rfl rfl
  · exact .refl

theorem sendOnStatus_deeds {level code desc : String}
    (short : ∀ buf, encode [str "onStatus", num0, .null, .object [(ascii "level", str level),
      (ascii "code", str code), (ascii "description", str desc)]] = .ok buf → buf.length < 2 ^ 24)
    (done : srv.sendOnStatus x level code desc = .ok srv') : Deeds x srv srv' := by
  obtain ⟨buf, encoded, wrote⟩ := bind_ok.mp done
  exact reply_deeds (fun _ => .command 3 buf) (.command (by decide) (short buf encoded))
    (fun _ => rfl) wrote

theorem sendMedia_deeds {url : Bytes} {st : RtmpStream} {cs : RtmpChunkStream} (tidy : srv.Tidy)
    (media : cs.type = 8 ∨ cs.type = 9 ∨ cs.type = 18) (found : srv.streams url = some st)
    (done : srv.sendMedia x url st cs = .ok srv') : Deeds x srv srv' := by
  obtain ⟨sent, passed, rest⟩ := bind_ok.mp done
  cases sent with
  | none =>
      cases rest
      exact .refl
  | some sent =>
      obtain ⟨st', mm, pkt, writes⟩ := sent
      obtain ⟨_, demux, made, kept, addressed⟩ := RtmpStream.send_ok passed
      have tagged := RtmpStream.chunkStreamToMediaPkt_tagged media made
      have peers : ∀ y, y ∈ st'.peers ↔ y ∈ st.peers := fun y => by rw [kept, Table.mem_mapValues]
      obtain ⟨held, fewer, perm⟩ := st.gop.insert_write pkt
      have cached : ∀ p ∈ (st.gop.insert pkt).write, p.Tagged ∨ srv.Cached p := by
        intro p inside
        obtain rfl | older := List.mem_cons.mp (perm.mem_iff.mp inside)
        · exact .inl tagged
        · exact .inr ⟨url, st, found, fewer.subset older⟩
      -- what is passed on is the packet itself, or was in the cache
      have each : ∀ srv₀ (w : SessionId × MediaPacket) srv', w ∈ writes → srv₀.Placed w.1 →
          (do pure ((← srv₀.within w.1 (·.writeMediaPacket w.2)).emit
            (.relayed x st.ref w.1 w.2))) = .ok srv' →
          Deeds x srv₀ srv' ∧ srv'.streams = srv₀.streams := by
        intro srv₀ w srv' inside placed sent
        obtain ⟨srv₁, wrote, noted⟩ := bind_ok.mp sent
        cases noted
        obtain ⟨s, ran, rfl⟩ := within_ok wrote
        refine ⟨.single (.passed placed ?_ ran), rfl⟩
        rw [addressed] at inside
        obtain ⟨⟨peer, served⟩, entry, inside⟩ := List.mem_flatMap.mp inside
        obtain ⟨p, written, rfl⟩ := List.mem_map.mp inside
        unfold RtmpStream.writesTo at written
        split at written
        · cases written
        split at written
        · rw [List.mem_singleton.mp written]
          exact tagged
        · exact (cached p written).elim id (tidy p)
      have stored : Deeds x srv ({ srv with media := mm }.setStream url (some st')) := by
        refine stream_deeds rfl rfl rfl ?_
        rintro st'' same
        cases same
        refine ⟨fun y inside => .inr ⟨url, st, found, (peers y).mp inside⟩, fun p inside => ?_⟩
        rw [kept] at inside
        exact cached p inside
      have noted := stored.trans (note_deeds (e := .cached x st.ref pkt) fun _ => id)
      refine noted.trans (foldlM_deeds each (fun w inside => ?_) rest)
      rw [addressed] at inside
      obtain ⟨⟨peer, served⟩, entry, inside⟩ := List.mem_flatMap.mp inside
      obtain ⟨_, _, rfl⟩ := List.mem_map.mp inside
      exact ⟨url, _, Function.update_self _ _ _, (peers peer).mpr (Table.mem_of_entry entry)⟩

theorem clearCurrent_deeds (done : srv.within x (·.clearCurrent) = .ok srv') : Deeds x srv srv' := by
  obtain ⟨s, ran, rfl⟩ := within_ok done
  obtain ⟨cs, _, rfl⟩ := RtmpSession.clearCurrent_ok ran
  exact own_deeds rfl rfl rfl

theorem handleMediaMessage_deeds {ret : Ret} (tidy : srv.Tidy)
    (media : (srv.sessions x).current.type = 8 ∨ (srv.sessions x).current.type = 9 ∨
      (srv.sessions x).current.type = 18)
    (done : srv.handleMediaMessage x = .ok (ret, srv')) : Deeds x srv srv' := by
  unfold handleMediaMessage at done
  simp only at done
  split at done
  · cases done
    exact .refl
  split at done
  · next found =>
      obtain ⟨srv₁, sent, done⟩ := bind_ok.mp done
      obtain ⟨srv₂, cleared, done⟩ := bind_ok.mp done
      cases done
      exact (sendMedia_deeds tidy media found sent).trans (clearCurrent_deeds cleared)
  · obtain ⟨srv₁, cleared, done⟩ := bind_ok.mp done
    cases done
    exact clearCurrent_deeds cleared

theorem handleControlMessage_deeds {ret : Ret}
    (done : srv.handleControlMessage x = .ok (ret, srv')) : Deeds x srv srv' := by
  obtain ⟨srv₁, controlled, done⟩ := bind_ok.mp done
  obtain ⟨s, ran, rfl⟩ := within_ok controlled
  obtain ⟨s₁, body, cleared⟩ := bind_ok.mp ran
  obtain ⟨cs, _, rfl⟩ := RtmpSession.clearCurrent_ok cleared
  cases done
  split
  · exact .single (.resized _)
  · next unsized =>
      obtain ⟨sized, _⟩ | ⟨_, _, _, rfl⟩ | ⟨_, _, _, _, _, rfl⟩ := RtmpSession.controlBody_ok body
      · exact absurd sized unsized
      · exact own_deeds rfl rfl rfl
      · exact own_deeds rfl rfl rfl

theorem commandConnect_deeds {sb : SimpleBuffer} (narrow : (srv.sessions x).csid < 64)
    (done : srv.commandConnect x sb = .ok srv') : Deeds x srv srv' := by
  obtain ⟨⟨ret, co, rest⟩, _, done⟩ := bind_ok.mp done
  simp only at done
  split at done
  · next app _ =>
      obtain ⟨srv₁, announced, done⟩ := bind_ok.mp done
      obtain ⟨srv₂, second, done⟩ := bind_ok.mp done
      obtain ⟨srv₃, third, done⟩ := bind_ok.mp done
      obtain ⟨buf, encoded, done⟩ := bind_ok.mp done
      obtain ⟨srv₄, fourth, done⟩ := bind_ok.mp done
      cases done
      obtain ⟨srv₀, sized, announced⟩ := bind_ok.mp announced
      cases announced
      obtain ⟨s, ran, rfl⟩ := within_ok sized
      rw [set_sessions] at ran
      have quiet := RtmpSession.writeChunk_quiet ran
      have size : s.maxChunkSize = 4096 := congrArg (·.maxChunkSize) quiet
      have csid : s.csid = (srv.sessions x).csid := congrArg (·.csid) quiet
      simp only [set_set, set_sessions, size] at second fourth ⊢
      have first : Deeds x srv ((srv.set x s).emit (.announce x 4096)) := .single (.announced ran)
      have windowed : Deeds x _ srv₂ :=
        reply_deeds (fun s => .control 5 (toBE32 s.windowSize)) (.windowAck _) (fun _ => rfl) second
      have limited : Deeds x srv₂ srv₃ :=
        reply_deeds (fun s => .control 6 (toBE32 s.peerBandwidth ++ [s.peerBandwidthType]))
          (.peerBandwidth _ _) (fun _ => rfl) third
      have narrow : (srv₃.sessions x).csid < 64 := by
        have same := (within_quiet (fun _ _ => RtmpSession.writeChunk_quiet) third).trans
          (within_quiet (fun _ _ => RtmpSession.writeChunk_quiet) second)
        have kept := congrArg (·.csid) (quiet_decoder same x)
        simp only [emit, set_sessions, RtmpSession.decoder] at kept
        rw [kept, csid]
        exact narrow
      have short : buf.length < 2 ^ 24 := by
        cases encoded
        exact (by decide : 189 < 2 ^ 24)
      have answered : Deeds x srv₃ srv₄ :=
        reply_deeds (fun s => .command s.csid buf) (.command narrow short) (fun _ => rfl) fourth
      refine (((first.trans windowed).trans limited).trans answered).trans ?_
      exact (own_deeds (s := { srv₄.sessions x with state := .createStream }) rfl rfl rfl).trans
        (note_deeds fun _ => id)
  · cases done

theorem commandCreateStream_deeds {marker : UInt8} {tid : UInt64}
    (done : srv.commandCreateStream x marker tid = .ok srv') : Deeds x srv srv' := by
  obtain ⟨buf, encoded, done⟩ := bind_ok.mp done
  obtain ⟨srv₁, wrote, done⟩ := bind_ok.mp done
  cases done
  have short : buf.length < 2 ^ 24 := by
    cases encoded
    exact (by decide : 29 < 2 ^ 24)
  have answered : Deeds x srv srv₁ :=
    reply_deeds (fun _ => .command 3 buf) (.command (by decide) short) (fun _ => rfl) wrote
  exact (answered.trans (own_deeds (s := { srv₁.sessions x with state := .publishPlay })
    rfl rfl rfl)).trans (note_deeds fun _ => id)

theorem joinStream_deeds {publisher : Bool} (join : srv.joinStream x publisher = .ok srv') :
    Deeds x srv srv' := by
  have sessions := joinStream_sessions join
  obtain ⟨⟨st, srv₀⟩, found, stored⟩ := bind_ok.mp join
  cases stored
  have gop : (st.join x publisher).2.gop = st.gop := by
    obtain ⟨same, _⟩ | ⟨_, _, same⟩ := st.join_cases x publisher <;> rw [same]
  have entered : Deeds x srv (srv₀.setStream (srv.sessions x).url (some (st.join x publisher).2)) := by
    obtain ⟨found, rfl⟩ | ⟨_, _, _, _, empty, cache, _, streams, _, log⟩ := findStream_ok found
    · refine stream_deeds sessions rfl rfl ?_
      rintro st' same
      cases same
      exact ⟨fun y inside => (RtmpStream.mem_join inside).imp_right fun before => ⟨_, st, found, before⟩,
        fun pkt inside => .inr ⟨_, st, found, gop ▸ inside⟩⟩
    · refine stream_deeds sessions (congrArg (Function.update · _ _) streams) log ?_
      rintro st' same
      cases same
      refine ⟨fun y inside => (RtmpStream.mem_join inside).imp_right fun before => ?_,
        fun pkt inside => ?_⟩
      · rw [empty] at before
        exact absurd before (Table.not_mem_empty y)
      · rw [gop, cache] at inside
        cases inside
  exact entered.trans (note_deeds fun _ => id)

theorem renamed_deeds (srv : Server) (x : SessionId) (app cid url : Bytes) :
    Deeds x srv (srv.set x { srv.sessions x with app, cid, url }) := own_deeds rfl rfl rfl

theorem enter_deeds {publisher : Bool} {srv₁ srv₂ : Server} (join : srv.joinStream x publisher = .ok srv₁)
    (begun : srv₁.within x (fun s => s.sendStreamBegin s.current.streamId) = .ok srv₂) :
    Deeds x srv srv₂ :=
  (joinStream_deeds join).trans (reply_deeds (fun s => .control 4 ([0, 0] ++ toBE32 s.current.streamId))
    (.event (.inl rfl) _) (fun _ => rfl) begun)

theorem commandPublish_deeds {sb : SimpleBuffer} (done : srv.commandPublish x sb = .ok srv') :
    Deeds x srv srv' := by
  obtain ⟨⟨cid, sb⟩, _, done⟩ := bind_ok.mp done
  obtain ⟨⟨app, _⟩, _, done⟩ := bind_ok.mp done
  obtain ⟨srv₁, join, done⟩ := bind_ok.mp done
  obtain ⟨srv₂, begun, done⟩ := bind_ok.mp done
  obtain ⟨srv₃, told, done⟩ := bind_ok.mp done
  cases done
  have started : Deeds x srv₂ srv₃ := sendOnStatus_deeds (fun buf encoded => by
    cases encoded
    exact (by decide : 105 < 2 ^ 24)) told
  have moved : Deeds x srv₃ (srv₃.set x { srv₃.sessions x with state := .mediaTransfer }) :=
    own_deeds rfl rfl rfl
  exact ((renamed_deeds srv x _ _ _).trans (enter_deeds join begun)).trans
    ((started.trans moved).trans (note_deeds fun _ => id))

theorem commandPlay_deeds {sb : SimpleBuffer} (done : srv.commandPlay x sb = .ok srv') :
    Deeds x srv srv' := by
  obtain ⟨⟨cid, sb⟩, _, done⟩ := bind_ok.mp done
  obtain ⟨srv₁, join, done⟩ := bind_ok.mp done
  obtain ⟨srv₂, begun, done⟩ := bind_ok.mp done
  obtain ⟨srv₃, reset, done⟩ := bind_ok.mp done
  obtain ⟨srv₄, told, done⟩ := bind_ok.mp done
  cases done
  have reset : Deeds x srv₂ srv₃ := sendOnStatus_deeds (fun buf encoded => by
    cases encoded
    exact (by decide : 96 < 2 ^ 24)) reset
  have started : Deeds x srv₃ srv₄ := sendOnStatus_deeds (fun buf encoded => by
    cases encoded
    exact (by decide : 96 < 2 ^ 24)) told
  have moved : Deeds x srv₄ (srv₄.set x { srv₄.sessions x with state := .mediaTransfer }) :=
    own_deeds rfl rfl rfl
  exact ((renamed_deeds srv x _ _ _).trans (enter_deeds join begun)).trans
    ((reset.trans (started.trans moved)).trans (note_deeds fun _ => id))

theorem runCommand_deeds {env : Env} {c : Command} (narrow : (srv.sessions x).csid < 64)
    (done : srv.runCommand env x c = .ok srv') : Deeds x srv srv' := by
  unfold runCommand at done
  simp only at done
  split at done
  · exact commandConnect_deeds narrow done
  split at done
  · exact commandCreateStream_deeds done
  split at done
  · obtain ⟨⟨cid, rest⟩, _, done⟩ := bind_ok.mp done
    cases done
    exact (renamed_deeds srv x _ _ _).trans (stream_deeds rfl rfl rfl (by simp))
  split at done
  · obtain ⟨_, _, done⟩ := bind_ok.mp done
    obtain ⟨_, _, done⟩ := bind_ok.mp done
    cases done
    exact .refl
  split at done
  · obtain ⟨⟨cid, rest⟩, _, done⟩ := bind_ok.mp done
    cases done
    exact renamed_deeds srv x _ _ _
  split at done
  · obtain ⟨⟨cid, rest⟩, _, done⟩ := bind_ok.mp done
    simp only at done
    split at done
    · exact leaveStream_deeds done
    · cases done
      exact .refl
  split at done
  · cases done
    exact .refl
  split at done
  · exact commandPublish_deeds done
  split at done
  · exact commandPlay_deeds done
  · cases done
    exact .refl

theorem handleChunkStream_deeds {env : Env} {ret : Ret} (tidy : srv.Tidy)
    (narrow : (srv.sessions x).csid < 64) (done : srv.handleChunkStream env x = .ok (ret, srv')) :
    Deeds x srv srv' := by
  unfold handleChunkStream at done
  simp only at done
  split at done
  · exact handleControlMessage_deeds done
  split at done
  · next media => exact handleMediaMessage_deeds tidy media done
  split at done
  · obtain ⟨srv₁, cleared, done⟩ := bind_ok.mp done
    obtain ⟨c, _, done⟩ := bind_ok.mp done
    obtain ⟨srv₂, ran, done⟩ := bind_ok.mp done
    cases done
    have csid : (srv₁.sessions x).csid = (srv.sessions x).csid := by
      obtain ⟨s, clearing, rfl⟩ := within_ok cleared
      obtain ⟨cs, _, rfl⟩ := RtmpSession.clearCurrent_ok clearing
      rw [set_sessions]
      rfl
    exact (clearCurrent_deeds cleared).trans (runCommand_deeds (csid ▸ narrow) ran)
  · cases done
    exact .refl

theorem acknowledge_deeds (done : srv.within x (·.acknowledge) = .ok srv') : Deeds x srv srv' := by
  obtain ⟨s, ran, rfl⟩ := within_ok done
  unfold RtmpSession.acknowledge at ran
  simp only at ran
  split at ran
  · obtain ⟨s₁, wrote, rest⟩ := bind_ok.mp ran
    cases rest
    generalize counted : RtmpSession.mk .. = s₀ at wrote
    have counts : Deeds x srv (srv.set x s₀) := by
      subst counted
      exact own_deeds rfl rfl rfl
    have sends : Deed x (srv.set x s₀) ((srv.set x s₀).set x s₁) :=
      .replied (.inl rfl) (.ack s₀.ackRecvTotal) (by rw [set_sessions]; exact wrote)
    have resets : Deeds x ((srv.set x s₀).set x s₁)
        (((srv.set x s₀).set x s₁).set x { s₁ with ackRecv := 0 }) :=
      own_deeds (by rw [set_sessions]) (by rw [set_sessions]) (by rw [set_sessions])
    have all := (counts.tail sends).trans resets
    rwa [set_set, set_set] at all
  · cases ran
    exact own_deeds rfl rfl rfl

/-- Handling a message, from the counting to the close of a session that fails. -/
theorem dispatch_deeds (env : Env) (tidy : srv.Tidy) (narrow : (srv.sessions x).csid < 64) :
    Deeds x srv (srv.dispatch env x).2 := by
  unfold dispatch
  split
  · exact same_deeds rfl rfl rfl
  · next srv₁ counted =>
      have acknowledged := acknowledge_deeds counted
      have csid : (srv₁.sessions x).csid = (srv.sessions x).csid := by
        obtain ⟨s, ran, rfl⟩ := within_ok counted
        rw [set_sessions]
        exact congrArg (·.csid) (RtmpSession.acknowledge_ok ran).1
      have called := acknowledged.trans (note_deeds (e := srv₁.calling x) fun _ => id)
      simp only
      split
      · exact called.trans (same_deeds rfl rfl rfl)
      · next ret srv₂ handled =>
          have ran := handleChunkStream_deeds (Deeds.tidy called tidy)
            (show (srv₁.sessions x).csid < 64 from csid ▸ narrow) handled
          have noted := (called.trans ran).trans (note_deeds (e := .result x ret) fun _ => id)
          split
          · exact noted.trans (close_deeds _ x)
          · exact noted

end Handlers

end Server

end DroneServer
