import DroneServer.Rtmp.MediaSafety

/-! # Video tags

The payload of a video message starts with the five bytes of an FLV video tag: frame
type and codec in the halves of the first one, then the packet type, then the
composition time, a signed number of 24 bits with its most significant byte first.
`chunk_stream_to_media_pkt` follows this layout except in the composition time, which
it puts together from the wrong end and without a sign.
-/

namespace DroneServer

/-- The five bytes in front of a video payload, as FLV lays them out. -/
structure VideoTag where
  frameType : Nat
  codecId : Nat
  packetType : Nat
  compositionTime : Int

namespace VideoTag

/-- A number of 24 bits in two's complement, most significant byte first. -/
def signed24 (b₀ b₁ b₂ : UInt8) : Int :=
  if b₀ < 0x80 then (Endian.be24 b₀ b₁ b₂).toNat else (Endian.be24 b₀ b₁ b₂).toNat - 2 ^ 24

def read (b₀ b₁ b₂ b₃ b₄ : UInt8) : VideoTag where
  frameType := b₀.toNat / 16
  codecId := b₀.toNat % 16
  packetType := b₁.toNat
  compositionTime := signed24 b₂ b₃ b₄

def codec (tag : VideoTag) : Codec :=
  match tag.codecId with
  | 7 => .h264
  | 12 => .h265
  | 14 => .vp8
  | 15 => .vp9
  | _ => .unknown

/-- The packet says what the tag of its payload does. -/
structure Describes (tag : VideoTag) (time : UInt32) (payload : Bytes) (pkt : MediaPacket) :
    Prop where
  dts : pkt.dts = time.toNat
  compositionTime : pkt.pts - pkt.dts = tag.compositionTime
  seqHeader : pkt.seqHeader = true ↔ tag.frameType = 1 ∧ tag.packetType = 0
  keyFrame : pkt.keyFrame = true ↔ tag.frameType = 1 ∧ tag.packetType = 1
  codec : pkt.codec = tag.codec
  data : pkt.data = payload

/-- The number read from the other end and without a sign is the same one for few bytes only. -/
theorem be24_eq_signed24 (b₀ b₁ b₂ : UInt8) :
    ((Endian.be24 b₂ b₁ b₀).toNat : Int) = signed24 b₀ b₁ b₂ ↔ b₀ = b₂ ∧ b₀ < 0x80 := by
  have forth := Endian.be24_toNat b₀ b₁ b₂
  have back := Endian.be24_toNat b₂ b₁ b₀
  have h₁ := b₁.toNat_lt
  have h₂ := b₂.toNat_lt
  have same : b₀ = b₂ ↔ b₀.toNat = b₂.toNat := UInt8.toNat_inj.symm
  have small : b₀ < 0x80 ↔ b₀.toNat < 128 := UInt8.lt_iff_toNat_lt
  simp only [signed24, same, small]
  split
  · omega
  · omega

theorem halves (b : UInt8) : (b &&& 0xf0 = 0x10 ↔ b.toNat / 16 = 1) ∧
    RtmpStream.videoCodec b = (read b 0 0 0 0).codec := by
  have all : ∀ n < 256, (UInt8.ofNat n &&& 0xf0 = 0x10 ↔ n / 16 = 1) ∧
      RtmpStream.videoCodec (UInt8.ofNat n) = (read (UInt8.ofNat n) 0 0 0 0).codec := by
    decide +kernel
  have this := all b.toNat b.toNat_lt
  rwa [UInt8.ofNat_toNat] at this

end VideoTag

namespace RtmpStream

variable {st : RtmpStream} {cs : RtmpChunkStream} {cid : ClientId} {b₀ b₁ b₂ b₃ b₄ : UInt8}
  {rest : Bytes}

theorem chunkStreamToMediaPkt_video (drone : cidFromHex (nameOf st.url) = .ok cid) (ptr : Nat)
    (video : cs.type = 9) (payload : cs.data = b₀ :: b₁ :: b₂ :: b₃ :: b₄ :: rest) :
    st.chunkStreamToMediaPkt ptr cs = .ok
      { ptr, streamId := cs.streamId, rtmpType := 9, url := st.url, app := appOf st.url, cid,
        type := .video, codec := videoCodec b₀, dts := cs.time.toNat,
        pts := cs.time.toNat + (Endian.be24 b₄ b₃ b₂).toNat,
        keyFrame := decide (b₀ &&& 0xf0 = 0x10 ∧ b₁ = 1),
        seqHeader := decide (b₀ &&& 0xf0 = 0x10 ∧ b₁ = 0), data := cs.data } := by
  simp only [chunkStreamToMediaPkt, drone, video, if_true, payload]
  rfl

/-- The packet of a video message agrees with its tag exactly when the first and the last byte of
    the composition time are the same, and below 0x80. -/
theorem video_described_iff (st : RtmpStream) (cs : RtmpChunkStream) (ptr : Nat)
    (drone : cidFromHex (nameOf st.url) = .ok cid) (video : cs.type = 9)
    (payload : cs.data = b₀ :: b₁ :: b₂ :: b₃ :: b₄ :: rest) :
    (∃ pkt, st.chunkStreamToMediaPkt ptr cs = .ok pkt ∧
      (VideoTag.read b₀ b₁ b₂ b₃ b₄).Describes cs.time cs.data pkt) ↔ b₂ = b₄ ∧ b₂ < 0x80 := by
  obtain ⟨key, codec⟩ := VideoTag.halves b₀
  have zero : b₁ = 0 ↔ b₁.toNat = 0 := UInt8.toNat_inj.symm
  have one : b₁ = 1 ↔ b₁.toNat = 1 := UInt8.toNat_inj.symm
  rw [chunkStreamToMediaPkt_video drone ptr video payload, ← VideoTag.be24_eq_signed24 b₂ b₃ b₄]
  constructor
  · rintro ⟨pkt, made, describes⟩
    cases made
    have delta := describes.compositionTime
    simp only [VideoTag.read, add_sub_cancel_left] at delta
    exact delta
  · intro same
    refine ⟨_, rfl, rfl, ?_, ?_, ?_, codec, rfl⟩
    · simp only [add_sub_cancel_left]
      exact same
    · simp only [VideoTag.read, decide_eq_true_eq, key, zero]
    · simp only [VideoTag.read, decide_eq_true_eq, key, one]

/-- A frame whose composition time is zero. -/
theorem video_described_zero :
    ∃ pkt, RtmpStream.chunkStreamToMediaPkt
        { ref := 0, url := ascii "live/1", app := ascii "live", cid := 1 } 0
        { csid := 4, time := 0, type := 9, data := [0x17, 1, 0, 0, 0, 0x65] } = .ok pkt ∧
      (VideoTag.read 0x17 1 0 0 0).Describes 0 [0x17, 1, 0, 0, 0, 0x65] pkt :=
  (@video_described_iff 1 0x17 1 0 0 0 [0x65]
    { ref := 0, url := ascii "live/1", app := ascii "live", cid := 1 }
    { csid := 4, time := 0, type := 9, data := [0x17, 1, 0, 0, 0, 0x65] } 0 (by decide) rfl
    rfl).mpr (by decide)

/-- A frame to be shown 40 ms after it is decoded is dated 2621440 ms later. -/
theorem video_not_described : ¬ ∀ (st : RtmpStream) (cs : RtmpChunkStream) (ptr : Nat)
    (cid : ClientId) (b₀ b₁ b₂ b₃ b₄ : UInt8) (rest : Bytes),
    cidFromHex (nameOf st.url) = .ok cid → cs.type = 9 →
    cs.data = b₀ :: b₁ :: b₂ :: b₃ :: b₄ :: rest →
    ∃ pkt, st.chunkStreamToMediaPkt ptr cs = .ok pkt ∧
      (VideoTag.read b₀ b₁ b₂ b₃ b₄).Describes cs.time cs.data pkt := by
  intro all
  obtain ⟨pkt, made, describes⟩ := all
    { ref := 0, url := ascii "live/1", app := ascii "live", cid := 1 }
    { csid := 4, time := 0, type := 9, data := [0x27, 1, 0, 0, 40, 0x41] } 0 1 0x27 1 0 0 40 [0x41]
    (by decide) rfl rfl
  have delta := describes.compositionTime
  cases made
  revert delta
  decide

end RtmpStream

end DroneServer
