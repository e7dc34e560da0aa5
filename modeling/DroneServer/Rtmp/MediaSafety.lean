import DroneServer.Rtmp.Control
import DroneServer.Rtmp.Isolation

/-! # What a media message reads

`chunk_stream_to_media_pkt` looks at the first bytes of a payload without asking
how many there are, `flv_read_packet` takes five from its size, and the packet is
then handed to a demuxer that only some packets create. `mediaSize` is how far the
reading goes, and `Opens` says which message creates the demuxer.
-/

namespace DroneServer

namespace FlvDemuxer

/-- The demuxer that `flv_demuxer_wrap::write` calls `decode` on, if there is one. -/
def opened (demux : Option FlvDemuxer) (pkt : MediaPacket) : Option FlvDemuxer :=
  match demux with
  | some d => some d
  | none =>
      if pkt.codec = .h264 ∨ pkt.codec = .h265 then some { codec := pkt.codec, cid := pkt.cid }
      else none

theorem wrapWrite_opened (demux : Option FlvDemuxer) (mm : MediaManager) (pkt : MediaPacket) :
    wrapWrite demux mm pkt = decode (opened demux pkt) mm pkt := rfl

theorem opened_isSome {demux : Option FlvDemuxer} {pkt : MediaPacket} :
    (opened demux pkt).isSome ↔ demux.isSome ∨ pkt.codec = .h264 ∨ pkt.codec = .h265 := by
  unfold opened
  cases demux with
  | some d => simp
  | none => split <;> simp [*]

theorem decode_enough (d : FlvDemuxer) (mm : MediaManager) {pkt : MediaPacket}
    (enough : pkt.type = .video → 5 ≤ pkt.data.length) : ∃ done, decode (some d) mm pkt = .ok done := by
  unfold decode
  split
  · exact ⟨_, rfl⟩
  · next video =>
      have long : ¬ pkt.data.length < 5 := Nat.not_lt.mpr (enough (not_not.mp video))
      have read : ∃ d', d.readPacket pkt = .ok d' := by
        unfold readPacket
        rw [if_neg long]
        split
        · exact ⟨_, rfl⟩
        split <;> exact ⟨_, rfl⟩
      obtain ⟨d', read⟩ := read
      simp only
      split
      · exact ⟨_, rfl⟩
      · exact ⟨_, by rw [read]; rfl⟩

end FlvDemuxer

namespace RtmpStream

/-- How many bytes of payload a media message is read for. -/
def mediaSize (type : UInt8) (data : Bytes) : Nat :=
  if type = 9 then 5
  else if type = 8 then
    let codec := data.getD 0 0 &&& 0xf0
    if codec = 0xa0 ∨ codec = 0x90 then 2 else 1
  else 0

/-- A video message of a codec that a demuxer is made for. -/
def Opens (cs : RtmpChunkStream) : Prop :=
  cs.type = 9 ∧ (videoCodec (cs.data.getD 0 0) = .h264 ∨ videoCodec (cs.data.getD 0 0) = .h265)

/-- No byte outside the payload is read, no size wraps, and `decode` is called on a demuxer. -/
def MediaSafe (st : RtmpStream) (mm : MediaManager) (cs : RtmpChunkStream) : Prop :=
  st.chunkStreamToMediaPkt st.made cs ≠ .error .outOfBounds ∧
    ∀ pkt, st.chunkStreamToMediaPkt st.made cs = .ok pkt →
      (FlvDemuxer.opened st.demux pkt).isSome ∧
        FlvDemuxer.wrapWrite st.demux mm pkt ≠ .error .outOfBounds

/-- The payload is long enough, and there is a demuxer or the message creates it. -/
def MediaFits (st : RtmpStream) (cs : RtmpChunkStream) : Prop :=
  mediaSize cs.type cs.data ≤ cs.data.length ∧ (st.demux.isSome ∨ Opens cs)

instance (cs : RtmpChunkStream) : Decidable (Opens cs) := inferInstanceAs (Decidable (_ ∧ _))

instance (st : RtmpStream) (cs : RtmpChunkStream) : Decidable (st.MediaFits cs) :=
  inferInstanceAs (Decidable (_ ∧ _))

theorem byteAt_enough {data : Bytes} {i : Nat} (enough : i < data.length) :
    byteAt data i = .ok (data.getD i 0) := by
  rw [byteAt, List.getElem?_eq_getElem enough, List.getD_eq_getElem _ _ enough]

theorem byteAt_short {data : Bytes} {i : Nat} (short : data.length ≤ i) :
    byteAt data i = .error .outOfBounds := by
  rw [byteAt, List.getElem?_eq_none short]

theorem byteAt_ends (data : Bytes) (i : Nat) :
    byteAt data i = .error .outOfBounds ∨ ∃ b, byteAt data i = .ok b :=
  (Nat.lt_or_ge i data.length).elim (fun enough => .inr ⟨_, byteAt_enough enough⟩)
    fun short => .inl (byteAt_short short)

variable {st : RtmpStream} {cs : RtmpChunkStream} {cid : ClientId}

/-- From a payload that is long enough a packet is made, and it is a video packet of a known codec
    exactly when the message says so. -/
theorem chunkStreamToMediaPkt_enough (drone : cidFromHex (nameOf st.url) = .ok cid) (ptr : Nat)
    (enough : mediaSize cs.type cs.data ≤ cs.data.length) :
    ∃ pkt, st.chunkStreamToMediaPkt ptr cs = .ok pkt ∧ pkt.data = cs.data ∧
      (pkt.type = .video → cs.type = 9) ∧
      (pkt.codec = .h264 ∨ pkt.codec = .h265 ↔ Opens cs) := by
  unfold mediaSize at enough
  unfold chunkStreamToMediaPkt Opens
  rw [drone]
  split at enough
  · next video =>
      have read : ∀ i, i < 5 → byteAt cs.data i = .ok (cs.data.getD i 0) :=
        fun i within => byteAt_enough (Nat.lt_of_lt_of_le within enough)
      simp only [video, if_true, read 0 (by decide), read 1 (by decide), read 2 (by decide),
        read 3 (by decide), read 4 (by decide)]
      exact ⟨_, rfl, rfl, fun _ => trivial, by simp⟩
  split at enough
  · next other audio =>
      simp only at enough
      have unopened : ¬ (cs.type = 9 ∧ (videoCodec (cs.data.getD 0 0) = .h264 ∨
          videoCodec (cs.data.getD 0 0) = .h265)) := fun opens => other opens.1
      have first : byteAt cs.data 0 = .ok (cs.data.getD 0 0) := by
        refine byteAt_enough (Nat.lt_of_lt_of_le ?_ enough)
        split <;> decide
      simp only [unopened, iff_false]
      have eight : (8 : UInt8) ≠ 9 := by decide
      rw [audio]
      simp only [eight, if_true, if_false, first]
      split at enough
      · next known =>
          have second : byteAt cs.data 1 = .ok (cs.data.getD 1 0) := byteAt_enough enough
          simp only [second]
          refine ⟨_, if_pos known, rfl, nofun, ?_⟩
          split <;> rintro (codec | codec) <;> cases codec
      · next unknown =>
          refine ⟨_, if_neg unknown, rfl, nofun, ?_⟩
          rintro (codec | codec) <;> cases codec
  · next video audio =>
      simp only [video, audio, if_false, false_and, iff_false]
      have unknown : ¬ (Codec.unknown = .h264 ∨ Codec.unknown = .h265) := by decide
      by_cases metadata : cs.type = 18 ∨ cs.type = 15
      · exact ⟨_, if_pos metadata, rfl, nofun, unknown⟩
      · exact ⟨_, if_neg metadata, rfl, nofun, unknown⟩

/-- From one that is too short a byte behind its end is read. -/
theorem chunkStreamToMediaPkt_short (drone : cidFromHex (nameOf st.url) = .ok cid) (ptr : Nat)
    (short : cs.data.length < mediaSize cs.type cs.data) :
    st.chunkStreamToMediaPkt ptr cs = .error .outOfBounds := by
  unfold mediaSize at short
  unfold chunkStreamToMediaPkt
  rw [drone]
  split at short
  · next video =>
      -- the first two bytes are read before the fifth, which is the one that is always missing
      have fifth := byteAt_short (Nat.le_of_lt_succ short)
      simp only [video, if_true, fifth]
      obtain first | ⟨_, first⟩ := byteAt_ends cs.data 0
      · rw [first]
        rfl
      obtain second | ⟨_, second⟩ := byteAt_ends cs.data 1
      · rw [first, second]
        rfl
      · rw [first, second]
        rfl
  split at short
  · next other audio =>
      simp only at short
      have eight : (8 : UInt8) ≠ 9 := by decide
      rw [audio]
      simp only [eight, if_true, if_false]
      by_cases present : 0 < cs.data.length
      · have first := byteAt_enough present
        split at short
        · next known =>
            have second := byteAt_short (Nat.le_of_lt_succ short)
            simp only [first, second]
            exact (if_pos known).trans rfl
        · exact absurd present (Nat.not_lt.mpr (Nat.le_of_lt_succ short))
      · rw [byteAt_short (Nat.not_lt.mp present)]
        rfl
  · exact absurd short (Nat.not_lt_zero _)

theorem mediaSafe_iff (drone : cidFromHex (nameOf st.url) = .ok cid) (mm : MediaManager) :
    st.MediaSafe mm cs ↔ st.MediaFits cs := by
  constructor
  · rintro ⟨inside, demuxed⟩
    have enough : mediaSize cs.type cs.data ≤ cs.data.length := by
      by_contra short
      exact inside (chunkStreamToMediaPkt_short drone _ (Nat.not_le.mp short))
    obtain ⟨pkt, made, _, _, opens⟩ := chunkStreamToMediaPkt_enough drone st.made enough
    have some := FlvDemuxer.opened_isSome.mp (demuxed pkt made).1
    rw [opens] at some
    exact ⟨enough, some⟩
  · rintro ⟨enough, demux⟩
    obtain ⟨pkt, made, data, video, opens⟩ := chunkStreamToMediaPkt_enough drone st.made enough
    unfold MediaSafe
    rw [made]
    refine ⟨nofun, ?_⟩
    rintro _ ⟨⟩
    rw [← opens, ← FlvDemuxer.opened_isSome] at demux
    refine ⟨demux, ?_⟩
    obtain ⟨d, opened⟩ := Option.isSome_iff_exists.mp demux
    have five : pkt.type = .video → 5 ≤ pkt.data.length := by
      intro type
      rw [mediaSize, if_pos (video type)] at enough
      rwa [data]
    obtain ⟨_, done⟩ := FlvDemuxer.decode_enough d mm five
    rw [FlvDemuxer.wrapWrite_opened, opened, done]
    nofun

end RtmpStream

namespace Host

/-- The step hands a media message of its publisher to the stream `st`. -/
def Sends (host : Host) (x : SessionId) (s : RtmpSession) (st : RtmpStream) : Prop :=
  host.Calls x s ∧ (s.current.type = 8 ∨ s.current.type = 9 ∨ s.current.type = 18) ∧
    s.state = .mediaTransfer ∧ host.server.streams s.url = some st ∧ st.publisher = some x

/-- It is handled safely. -/
def MediaSafe (host : Host) : Label → Prop
  | .dispatch x _ => ∀ s st, host.Sends x s st → st.MediaSafe host.server.media s.current
  | .accept _ | .receive _ _ | .shake _ _ | .parse _ | .close _ => True

/-- It has the bytes that are read, and finds or creates the demuxer. -/
def MediaFits (host : Host) : Label → Prop
  | .dispatch x _ => ∀ s st, host.Sends x s st → st.MediaFits s.current
  | .accept _ | .receive _ _ | .shake _ _ | .parse _ | .close _ => True

theorem mediaSafe_iff {recordForce : Bool} {host : Host}
    (reached : (machine recordForce).Reachable host) (l : Label) :
    host.MediaSafe l ↔ host.MediaFits l := by
  cases l with
  | accept | receive | shake | parse | close => exact Iff.rfl
  | dispatch x env =>
      refine forall_congr' fun s => forall_congr' fun st => forall_congr' fun sends => ?_
      obtain ⟨_, _, _, found, _⟩ := sends
      exact RtmpStream.mediaSafe_iff (Server.Fed.reachable reached _ st found).drone _

end Host

/-- In a run every media message of an accepted publisher is handled safely exactly when every one has
    the bytes that are read of its type, and finds a demuxer or is a video message of a codec that
    creates one. -/
theorem media_safe_iff (recordForce : Bool) (labels : List Label) :
    (machine recordForce).Steps Host.MediaSafe labels ↔
      (machine recordForce).Steps Host.MediaFits labels :=
  ⟨Machine.Steps.mono fun _ l reached => (Host.mediaSafe_iff reached l).mp,
    Machine.Steps.mono fun _ l reached => (Host.mediaSafe_iff reached l).mpr⟩

/-- A publisher whose first message is this one, still to be handled. -/
def firstMedia (type : UInt8) (payload : Bytes) : List Label :=
  Peer.enter 1 "live" ++ Peer.deliver 1 (Peer.publish "1" "live") ++
    [.receive 1 (Peer.message 4 type 1 payload), .parse 1]

set_option maxRecDepth 4000 in
/-- Metadata first: `decode` is called on a null pointer. A video message of one byte: the payload is
    read behind its end. -/
theorem first_media_unsafe :
    ¬ (machine false).Steps Host.MediaSafe (firstMedia 18 [2] ++ [.dispatch 1 Peer.env]) ∧
      ¬ (machine false).Steps Host.MediaSafe (firstMedia 9 [0x17] ++ [.dispatch 1 Peer.env]) := by
  have sent : ∀ type payload, (let host := (machine false).run (firstMedia type payload)
      host.server.crashed = none ∧ host.Ready 1 ∧
        ∃ s, (host.server.sessions 1).acknowledge = .ok s ∧
          (s.current.type = 8 ∨ s.current.type = 9 ∨ s.current.type = 18) ∧
          s.state = .mediaTransfer ∧
          ∃ st, host.server.streams s.url = some st ∧ st.publisher = some 1 ∧
            ¬ st.MediaFits s.current) →
      ¬ (machine false).Steps Host.MediaSafe (firstMedia type payload ++ [.dispatch 1 Peer.env]) := by
    rintro type payload ⟨running, ready, s, counted, media, phase, st, found, publishes, unfit⟩ steps
    have safe := steps (firstMedia type payload) (.dispatch 1 Peer.env) (List.prefix_refl _)
    have fits := (Host.mediaSafe_iff (.run _ _) _).mp safe
    exact unfit (fits s st ⟨⟨running, ready, counted⟩, media, phase, found, publishes⟩)
  constructor
  · exact sent 18 [2] (by decide +kernel)
  · exact sent 9 [0x17] (by decide +kernel)

end DroneServer
