import DroneServer.Lib.Table
import DroneServer.Media
import DroneServer.Rtmp.ChunkStream

/-! # `rtmp_stream`: one publisher, its viewers, and the packets between them

A stream keeps its peers, the group-of-pictures cache it replays to a viewer on
the first packet after the viewer joined, and the demuxer that feeds the media
pipe of its drone. What a stream writes to its peers is returned to the caller,
peer by peer; the sessions turn it into chunks.
-/

namespace DroneServer

structure GopCache where
  pkts : List MediaPacket := []
  videoHeader : Option MediaPacket := none
  audioHeader : Option MediaPacket := none
  metadataHeader : Option MediaPacket := none
  minGop : UInt32 := 1
  gopCount : UInt32 := 0
  deriving DecidableEq

namespace GopCache

def push (gop : GopCache) (pkt : MediaPacket) : GopCache := { gop with pkts := gop.pkts ++ [pkt] }

def insert (gop : GopCache) (pkt : MediaPacket) : GopCache :=
  match pkt.type with
  | .video =>
      if pkt.seqHeader then { gop with videoHeader := some pkt }
      else if pkt.keyFrame then
        let gop := { gop with gopCount := gop.gopCount + 1 }
        (if gop.gopCount % gop.minGop = 0 then { gop with pkts := [] } else gop).push pkt
      else gop.push pkt
  | .audio => if pkt.seqHeader then { gop with audioHeader := some pkt } else gop.push pkt
  | .metadata => { gop with metadataHeader := some pkt }
  | .unknown => gop.push pkt

/-- `gop_cache::write`: what is passed to `write_media_packet`, in order. -/
def write (gop : GopCache) : List MediaPacket :=
  gop.metadataHeader.toList ++ gop.videoHeader.toList ++ gop.audioHeader.toList ++ gop.pkts

/-- Inserting drops some of the cached packets and adds the new one, once. -/
theorem insert_write (gop : GopCache) (pkt : MediaPacket) :
    ∃ kept, kept.Sublist gop.write ∧ (gop.insert pkt).write.Perm (pkt :: kept) := by
  have pushed : ∀ other : GopCache, other.metadataHeader = gop.metadataHeader →
      other.videoHeader = gop.videoHeader → other.audioHeader = gop.audioHeader →
      other.pkts.Sublist gop.pkts →
      ∃ kept, kept.Sublist gop.write ∧ (other.push pkt).write.Perm (pkt :: kept) := by
    intro other metadata video audio fewer
    refine ⟨other.write, ?_, ?_⟩
    · simp only [write, metadata, video, audio]
      exact (List.Sublist.refl _).append fewer
    · simp only [write, push, ← List.append_assoc]
      exact List.perm_append_singleton pkt _
  unfold insert
  cases pkt.type with
  | video =>
      by_cases header : pkt.seqHeader
      · refine ⟨gop.metadataHeader.toList ++ gop.audioHeader.toList ++ gop.pkts, ?_, ?_⟩
        · simp only [write, List.append_assoc]
          exact (List.Sublist.refl _).append (List.sublist_append_right _ _)
        · simp only [header, if_true, write, Option.toList_some, List.append_assoc,
            List.singleton_append]
          exact List.perm_middle
      · by_cases key : pkt.keyFrame
        · simp only [header, key, if_true, Bool.false_eq_true, if_false]
          split
          · exact pushed _ rfl rfl rfl (List.nil_sublist _)
          · exact pushed _ rfl rfl rfl (List.Sublist.refl _)
        · simp only [header, key, Bool.false_eq_true, if_false]
          exact pushed gop rfl rfl rfl (List.Sublist.refl _)
  | audio =>
      by_cases header : pkt.seqHeader
      · refine ⟨gop.metadataHeader.toList ++ gop.videoHeader.toList ++ gop.pkts, ?_, ?_⟩
        · simp only [write, List.append_assoc]
          refine (List.Sublist.refl _).append ((List.Sublist.refl _).append ?_)
          exact List.sublist_append_right _ _
        · simp only [header, if_true, write, Option.toList_some, List.append_assoc,
            List.singleton_append]
          rw [← List.append_assoc, ← List.append_assoc]
          exact List.perm_middle
      · simp only [header, Bool.false_eq_true, if_false]
        exact pushed gop rfl rfl rfl (List.Sublist.refl _)
  | metadata =>
      refine ⟨gop.videoHeader.toList ++ gop.audioHeader.toList ++ gop.pkts, ?_, ?_⟩
      · simp only [write, List.append_assoc]
        exact List.sublist_append_right _ _
      · simp only [write, Option.toList_some, List.append_assoc, List.singleton_append]
        exact List.Perm.refl _
  | unknown => exact pushed gop rfl rfl rfl (List.Sublist.refl _)

end GopCache

/-- `flv_demuxer`: the decoder behind it is outside the repository. -/
structure FlvDemuxer where
  codec : Codec
  cid : ClientId
  extradata : Bytes := []
  pkt : Bytes := []

namespace FlvDemuxer

/-- `flv_read_packet`: `size` is unsigned, so a payload of fewer than five bytes makes it wrap and
    the copy run off the end. -/
def readPacket (d : FlvDemuxer) (pkt : MediaPacket) : Except Fault FlvDemuxer :=
  if pkt.data.length < 5 then .error .outOfBounds
  else if pkt.seqHeader then .ok { d with extradata := pkt.data.drop 5 }
  else if pkt.data.length = 5 then .ok d
  else .ok { d with pkt := pkt.data.drop 5 }

/-- `decode`, on a pointer that may be null. It is not virtual and looks at the packet first, so a
    null demuxer is harmless until a video packet makes it read its own `cid`. -/
def decode (this : Option FlvDemuxer) (mm : MediaManager) (pkt : MediaPacket) :
    Except Fault (Option FlvDemuxer × MediaManager) :=
  if pkt.type ≠ .video then .ok (this, mm)
  else match this with
    | none => .error .nullDereference
    | some d => do
        let (pipe, mm) := mm.pipe d.cid
        if pipe.count = 0 ∧ !pkt.seqHeader ∧ !pkt.keyFrame then pure (some d, mm)
        else
          let d ← d.readPacket pkt
          pure (some d, mm)

/-- `flv_demuxer_wrap::write`: the first packet of a known codec creates the demuxer. -/
def wrapWrite (demux : Option FlvDemuxer) (mm : MediaManager) (pkt : MediaPacket) :
    Except Fault (Option FlvDemuxer × MediaManager) :=
  let demux := match demux with
    | some d => some d
    | none =>
        if pkt.codec = .h264 ∨ pkt.codec = .h265 then some { codec := pkt.codec, cid := pkt.cid }
        else none
  decode demux mm pkt

end FlvDemuxer

/-- `MEDIA_STREAM_ID`. -/
def mediaStreamId : UInt32 := 30

structure RtmpStream where
  /-- Which object this is: a name may be registered again after its stream is gone. -/
  ref : Nat
  url : Bytes
  app : Bytes
  cid : ClientId
  /-- Every peer, with whether the cache was written to it. -/
  peers : Table SessionId Bool := .empty
  gop : GopCache := {}
  demux : Option FlvDemuxer := none
  publisher : Option SessionId := none
  /-- How many packets `send` has made. -/
  made : Nat := 0

namespace RtmpStream

/-- `url.substr(0, url.find('/'))`. -/
def appOf (url : Bytes) : Bytes := url.takeWhile (· ≠ 0x2f)

/-- `url.substr(url.find('/') + 1)`; without a slash that is the whole url. -/
def nameOf (url : Bytes) : Bytes :=
  if 0x2f ∈ url then (url.dropWhile (· ≠ 0x2f)).drop 1 else url

/-- The constructor, which throws when the id in the url does. -/
def create (ref : Nat) (url : Bytes) : Except Fault RtmpStream := do
  let cid ← cidFromHex (nameOf url)
  pure { ref, url, app := appOf url, cid }

def count (st : RtmpStream) : Nat := st.peers.count

def join (st : RtmpStream) (session : SessionId) (publisher : Bool) : Ret × RtmpStream :=
  if st.publisher.isSome ∧ publisher then (.fail, st)
  else
    (.ok, { st with
      peers := st.peers.insertNew session false
      publisher := if publisher then some session else st.publisher })

/-- `leave`, apart from what the publisher's leaving does to others: erasing the media pipe and
    telling the remaining peers. -/
def leave (st : RtmpStream) (session : SessionId) : RtmpStream :=
  { st with
    peers := st.peers.erase session
    publisher := if st.publisher = some session then none else st.publisher }

/-- A byte of the payload, through a raw pointer. -/
def byteAt (data : Bytes) (i : Nat) : Except Fault UInt8 :=
  match data[i]? with
  | some b => .ok b
  | none => .error .outOfBounds

def videoCodec (b : UInt8) : Codec :=
  let codec := b &&& 0x0f
  if codec = 0x07 then .h264
  else if codec = 0x0c then .h265
  else if codec = 0x0e then .vp8
  else if codec = 0x0f then .vp9
  else .unknown

/-- `chunk_stream_to_media_pkt`, making the object `ptr`. -/
def chunkStreamToMediaPkt (st : RtmpStream) (ptr : Nat) (cs : RtmpChunkStream) :
    Except Fault MediaPacket := do
  let cid ← cidFromHex (nameOf st.url)
  let pkt : MediaPacket :=
    { ptr, streamId := cs.streamId, rtmpType := cs.type, url := st.url, app := appOf st.url, cid,
      dts := cs.time.toNat, pts := cs.time.toNat, data := cs.data }
  if cs.type = 9 then
    let b₀ ← byteAt cs.data 0
    let nalu ← byteAt cs.data 1
    let key := b₀ &&& 0xf0 = 0x10
    let b₄ ← byteAt cs.data 4
    let b₃ ← byteAt cs.data 3
    let b₂ ← byteAt cs.data 2
    let deltaT := Endian.be24 b₄ b₃ b₂
    pure { pkt with
      type := .video
      codec := videoCodec b₀
      seqHeader := decide (key ∧ nalu = 0)
      keyFrame := decide (key ∧ nalu = 1)
      pts := pkt.dts + deltaT.toNat }
  else if cs.type = 8 then
    let b₀ ← byteAt cs.data 0
    let codec := b₀ &&& 0xf0
    if codec = 0xa0 ∨ codec = 0x90 then
      let b₁ ← byteAt cs.data 1
      pure { pkt with
        type := .audio
        codec := if codec = 0xa0 then .aac else .opus
        seqHeader := decide (b₁ = 0) }
    else pure { pkt with type := .audio }
  else if cs.type = 18 ∨ cs.type = 15 then pure { pkt with type := .metadata }
  else pure pkt

/-- What one accepted packet makes the stream write to a peer: the whole cache the first time, the
    packet itself from then on, and nothing to the publisher. -/
def writesTo (gop : GopCache) (pkt : MediaPacket) (session peer : SessionId) (served : Bool) :
    List MediaPacket :=
  if peer = session then [] else if served then [pkt] else gop.write

/-- `send`: nothing unless the session is the publisher; else the new state, the media pipes, the
    packet made, and what is passed to each peer's `write_media_packet`. -/
def send (st : RtmpStream) (mm : MediaManager) (session : SessionId) (cs : RtmpChunkStream) :
    Except Fault (Option (RtmpStream × MediaManager × MediaPacket × List (SessionId × MediaPacket))) :=
  if st.publisher ≠ some session then pure none
  else do
    let pkt ← st.chunkStreamToMediaPkt st.made cs
    let gop := st.gop.insert pkt
    let (demux, mm) ← FlvDemuxer.wrapWrite st.demux mm pkt
    let writes := st.peers.entries.flatMap fun (peer, served) =>
      (writesTo gop pkt session peer served).map fun p => (peer, p)
    let peers := st.peers.mapValues fun peer served => served || decide (peer ≠ session)
    pure (some ({ st with gop, demux, peers, made := st.made + 1 }, mm, pkt, writes))

variable {st : RtmpStream} {session y : SessionId}

@[simp] theorem mem_leave : y ∈ (st.leave session).peers ↔ y ≠ session ∧ y ∈ st.peers :=
  Table.mem_erase

theorem leave_publisher : (st.leave session).publisher = some y ↔
    y ≠ session ∧ st.publisher = some y := by
  by_cases publishing : st.publisher = some session
  · simp only [leave, publishing, if_true, reduceCtorEq, Option.some.injEq, false_iff, not_and]
    exact fun other same => other same.symm
  · simp only [leave, publishing, if_false]
    refine ⟨fun same => ⟨?_, same⟩, And.right⟩
    rintro rfl
    exact publishing same

theorem join_cases (st : RtmpStream) (session : SessionId) (publisher : Bool) :
    (st.join session publisher = (.fail, st) ∧ publisher = true ∧ st.publisher.isSome) ∨
      (st.join session publisher).1 = .ok ∧ (publisher = true → st.publisher = none) ∧
        (st.join session publisher).2 =
          { st with
            peers := st.peers.insertNew session false
            publisher := if publisher then some session else st.publisher } := by
  by_cases refused : st.publisher.isSome ∧ publisher
  · exact .inl ⟨by rw [join, if_pos refused], refused.2, refused.1⟩
  · refine .inr ⟨by rw [join, if_neg refused], fun asked => ?_, by rw [join, if_neg refused]⟩
    exact Option.not_isSome_iff_eq_none.mp fun some => refused ⟨some, asked⟩

@[simp] theorem join_url (publisher : Bool) : (st.join session publisher).2.url = st.url := by
  obtain ⟨same, _⟩ | ⟨_, _, same⟩ := join_cases st session publisher <;> rw [same]

@[simp] theorem join_ref (publisher : Bool) : (st.join session publisher).2.ref = st.ref := by
  obtain ⟨same, _⟩ | ⟨_, _, same⟩ := join_cases st session publisher <;> rw [same]

theorem mem_join {publisher : Bool} (inside : y ∈ (st.join session publisher).2.peers) :
    y = session ∨ y ∈ st.peers := by
  obtain ⟨same, _⟩ | ⟨_, _, same⟩ := join_cases st session publisher <;> rw [same] at inside
  · exact .inr inside
  · exact Table.mem_insertNew.mp inside

/-- Whatever its kind, a packet is the object asked for, is named as its stream's url says, and has
    the whole payload. -/
theorem chunkStreamToMediaPkt_ok {st : RtmpStream} {ptr : Nat} {cs : RtmpChunkStream}
    {pkt : MediaPacket} (done : st.chunkStreamToMediaPkt ptr cs = .ok pkt) :
    cidFromHex (nameOf st.url) = .ok pkt.cid ∧ pkt.app = appOf st.url ∧ pkt.ptr = ptr ∧
      pkt.data = cs.data := by
  unfold chunkStreamToMediaPkt at done
  obtain ⟨cid, named, done⟩ := bind_ok.mp done
  rw [named]
  simp only at done
  split at done
  · obtain ⟨_, _, done⟩ := bind_ok.mp done
    obtain ⟨_, _, done⟩ := bind_ok.mp done
    obtain ⟨_, _, done⟩ := bind_ok.mp done
    obtain ⟨_, _, done⟩ := bind_ok.mp done
    obtain ⟨_, _, done⟩ := bind_ok.mp done
    cases done
    exact ⟨rfl, rfl, rfl, rfl⟩
  split at done
  · obtain ⟨_, _, done⟩ := bind_ok.mp done
    split at done
    · obtain ⟨_, _, done⟩ := bind_ok.mp done
      cases done
      exact ⟨rfl, rfl, rfl, rfl⟩
    · cases done
      exact ⟨rfl, rfl, rfl, rfl⟩
  split at done <;> cases done <;> exact ⟨rfl, rfl, rfl, rfl⟩

/-- A packet that is accepted comes from the publisher and changes neither who is there nor what
    the stream is called. -/
theorem send_ok {mm mm' : MediaManager} {cs : RtmpChunkStream} {st' : RtmpStream}
    {pkt : MediaPacket} {writes : List (SessionId × MediaPacket)}
    (done : st.send mm session cs = .ok (some (st', mm', pkt, writes))) :
    st.publisher = some session ∧ ∃ demux,
      st.chunkStreamToMediaPkt st.made cs = .ok pkt ∧
      st' = { st with
        gop := st.gop.insert pkt
        demux
        peers := st.peers.mapValues fun peer served => served || decide (peer ≠ session)
        made := st.made + 1 } ∧
      writes = st.peers.entries.flatMap fun (peer, served) =>
        (writesTo (st.gop.insert pkt) pkt session peer served).map fun p => (peer, p) := by
  unfold send at done
  split at done
  · cases done
  · next publishing =>
      obtain ⟨pkt, made, done⟩ := bind_ok.mp done
      obtain ⟨⟨demux, mm⟩, _, done⟩ := bind_ok.mp done
      cases done
      exact ⟨not_not.mp publishing, demux, made, rfl, rfl⟩

end RtmpStream

end DroneServer
