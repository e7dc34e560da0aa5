import DroneServer.Rtmp.Loop
import DroneServer.Rtmp.RoundTrip

/-! # How old a relayed stream may get

`write_media_packet` sends a header of type 0 with the low three bytes of the time.
Where these are 0xFFFFFF the reader takes four bytes of the payload for an extended
time, and then the bytes do not suffice for a message of the announced length:
`Spent` counts what has been used up on the way.
-/

namespace DroneServer

open Endian

namespace RtmpSession

/-- A session as a writer: `cs_out` is empty at first, and only `write_chunk` changes it. -/
inductive Writing : RtmpSession → Prop where
  | fresh {w : RtmpSession} (unwritten : ∀ csid, w.csOut csid = none) : Writing w
  | wrote {w w' : RtmpSession} {o : Outgoing} (writing : Writing w) (wrote : w.write o = .ok w') :
      Writing w'
  | other {w w' : RtmpSession} (writing : Writing w) (same : w'.csOut = w.csOut) : Writing w'

end RtmpSession

namespace RtmpChunkStream

theorem writeHeader_own (cs : RtmpChunkStream) (time dtime : UInt32) (typeId : UInt8)
    (streamId msgSize : UInt32) (forceF0 : Bool) :
    (cs.writeHeader time dtime typeId streamId msgSize forceF0).2.1.csid = cs.csid := by
  unfold writeHeader
  split
  · rfl
  split
  · rfl
  split <;> rfl

theorem writeChunk_own {cs cs' : RtmpChunkStream} {n time dtime : UInt32} {typeId : UInt8}
    {streamId : UInt32} {msg : Bytes} {forceF0 : Bool} {buffers : List Bytes} {size : UInt32}
    (wrote : cs.writeChunk n time dtime typeId streamId msg forceF0 = .ok (cs', buffers, size)) :
    cs'.csid = cs.csid ∧ cs'.data = [] := by
  have own := cs.writeHeader_own time dtime typeId streamId (UInt32.ofNat msg.length) forceF0
  unfold writeChunk at wrote
  simp only at wrote
  split at wrote
  · obtain ⟨rest, _, wrote⟩ := bind_ok.mp wrote
    cases wrote
    exact ⟨own, rfl⟩
  · cases wrote
    exact ⟨own, rfl⟩

/-- What the rest of a split message comes to: a byte for every further chunk, of which only the
    last may not be full. -/
theorem writeRest_length {n : UInt32} {bh : UInt8} {fuel : Nat} {msg : Bytes} {rest : List Bytes}
    (split : writeRest n bh fuel msg = .ok rest) :
    rest.flatten.length = msg.length + rest.length ∧
      (rest ≠ [] → n.toNat * rest.length < msg.length + n.toNat) := by
  induction fuel generalizing msg rest with
  | zero =>
      by_cases none : msg = []
      · subst none
        cases split
        exact ⟨rfl, fun some => absurd rfl some⟩
      · have filled : msg.isEmpty = false := by simpa using none
        simp [writeRest, filled] at split
  | succ fuel ih =>
      by_cases none : msg = []
      · subst none
        cases split
        exact ⟨rfl, fun some => absurd rfl some⟩
      have filled : msg.isEmpty = false := by simpa using none
      simp only [writeRest, filled, Bool.false_eq_true, if_false] at split
      obtain ⟨rest', later, split⟩ := bind_ok.mp split
      cases split
      obtain ⟨length, full⟩ := ih later
      have positive := List.length_pos_iff.mpr none
      rw [List.length_drop] at length full
      refine ⟨?_, fun _ => ?_⟩
      · simp only [List.flatten_cons, List.length_append, List.length_cons, List.length_take, length]
        omega
      · by_cases last : rest' = []
        · subst last
          simp only [List.length_cons, List.length_nil, Nat.zero_add, Nat.mul_one]
          omega
        · have full := full last
          have going : n.toNat ≤ msg.length := by
            by_contra short
            have some := List.length_pos_iff.mpr last
            have once : n.toNat * 1 ≤ n.toNat * rest'.length := Nat.mul_le_mul_left _ some
            omega
          rw [List.length_cons, Nat.mul_succ]
          omega

end RtmpChunkStream

theorem RtmpSession.Writing.tidy {w : RtmpSession} (writing : w.Writing) (csid : UInt16) :
    ((w.csOut csid).getD { csid }).csid = csid ∧ ((w.csOut csid).getD { csid }).data = [] := by
  induction writing with
  | fresh unwritten =>
      rw [unwritten]
      exact ⟨rfl, rfl⟩
  | @wrote w w' o _ wrote ih =>
      unfold RtmpSession.write RtmpSession.writeChunk at wrote
      obtain ⟨⟨cs, buffers, size⟩, chunk, wrote⟩ := bind_ok.mp wrote
      cases wrote
      by_cases same : csid = o.csid
      · subst same
        simp only [Function.update_self, Option.getD_some]
        obtain ⟨own, none⟩ := RtmpChunkStream.writeChunk_own chunk
        exact ⟨own.trans ih.1, none⟩
      · simp only [Function.update_of_ne same]
        exact ih
  | other _ same ih =>
      rw [same]
      exact ih

namespace RtmpChunkStream

theorem readHeader_holds {cs cs' : RtmpChunkStream} {fmt : UInt8} {buf rest : Bytes} {ret : Ret}
    (read : cs.readHeader fmt buf = .ok (ret, cs', rest)) : cs'.data.length ≤ cs.data.length := by
  generalize same : (ret, cs', rest) = result at read
  cases readHeader_cases read with
  | past | unknown =>
      cases same
      exact Nat.le_refl _
  | @full size assign idle format =>
      cases same
      have keeps : ∀ mh time cs, (assign mh time cs).data = cs.data := by
        cases format <;> exact fun _ _ _ => rfl
      obtain ⟨_, time, ext, rest, read⟩ | ⟨_, ext, read⟩ := readFull_cases size assign cs buf
      · rw [read]
        exact Nat.le_of_eq (congrArg List.length (keeps _ _ _))
      · rw [read]
  | @repeated again idle format done =>
      obtain ⟨ret', cs₁, rest'⟩ := again
      cases same
      obtain ⟨_, rfl⟩ | ⟨_, rfl, _⟩ | ⟨_, _, time, rfl⟩ := readF3_cases done
      · exact Nat.le_refl _
      · exact Nat.le_refl _
      · exact Nat.zero_le _

/-- A header of type 0 whose time field is 0xFFFFFF is fifteen bytes long. -/
theorem readHeader_marked {cs cs' : RtmpChunkStream} {buf rest : Bytes}
    (idle : cs.state = .header) (mark : timeField (buf.take 11) = 0xffffff)
    (read : cs.readHeader 0 buf = .ok (.ok, cs', rest)) : rest.length + 15 ≤ buf.length := by
  rw [(readHeader_idle idle buf).1] at read
  unfold readF0 readFull at read
  unfold timeField at mark
  simp only [mark, if_true] at read
  split at read
  · cases read
  split at read
  · cases read
  · cases read
    simp only [List.length_drop]
    omega

end RtmpChunkStream

theorem RtmpSession.setCurrent_held {s : RtmpSession} {cs : RtmpChunkStream} {sum : Nat}
    (own : cs.data.length ≤ sum) (others : ∀ csid, (s.memory csid).data.length ≤ sum)
    (csid : UInt16) : ((s.setCurrent cs).memory csid).data.length ≤ sum := by
  by_cases same : csid = s.csid
  · subst same
    simpa only [setCurrent, memory, Function.update_self, Option.getD_some] using own
  · simpa only [setCurrent, memory, Function.update_of_ne same] using others csid

namespace Reader

open RtmpChunkStream

/-- Between two chunks of a stream of `total` bytes, some chunks after a first one that took fifteen
    bytes for its header, with `sum` bytes of payload in them: no message is longer than that. -/
structure Spent (total : Nat) (n : UInt32) (r : Reader) (buf : Bytes) (chunks sum : Nat) : Prop where
  between : r.session.headerRead = false
  size : r.session.maxChunkSize = n
  cut : sum ≤ n.toNat * chunks
  used : chunks + sum + 15 + buf.length ≤ total
  held : ∀ csid, (r.session.memory csid).data.length ≤ sum
  told : ∀ m ∈ r.messages, m.payload.length ≤ sum

/-- A turn that goes on has read a header and taken at most the chunk size from what is behind. -/
theorem turn_takes {r r' : Reader} {buf left : Bytes} {sum : Nat} (some : buf ≠ [])
    (held : ∀ csid, (r.session.memory csid).data.length ≤ sum)
    (told : ∀ m ∈ r.messages, m.payload.length ≤ sum) (turned : r.turn buf = .next r' left) :
    ∃ cs rest taken, (r.session.readBasicHeader buf).1.current.readHeader
        (r.session.readBasicHeader buf).1.fmt (r.session.readBasicHeader buf).2 =
          .ok (.ok, cs, rest) ∧
      taken ≤ r.session.maxChunkSize.toNat ∧ taken + left.length = rest.length ∧
      r'.session.headerRead = false ∧ r'.session.maxChunkSize = r.session.maxChunkSize ∧
      (∀ csid, (r'.session.memory csid).data.length ≤ sum + taken) ∧
      ∀ m ∈ r'.messages, m.payload.length ≤ sum + taken := by
  have memory : ∀ csid, (r.session.readBasicHeader buf).1.memory csid = r.session.memory csid := by
    intro csid
    unfold RtmpSession.readBasicHeader
    split <;> rfl
  have size : (r.session.readBasicHeader buf).1.maxChunkSize = r.session.maxChunkSize := by
    unfold RtmpSession.readBasicHeader
    split <;> rfl
  unfold turn at turned
  split at turned
  · cases turned
  · cases turned
  · cases turned
  next s rest₁ read =>
  cases RtmpSession.readChunkStream_cases some read with
  | header unread => exact absurd rfl unread
  | @taken cs rest rem header state left =>
      have collected : cs.data.length ≤ sum := by
        have begun : (r.session.readBasicHeader buf).1.current =
            r.session.memory (r.session.readBasicHeader buf).1.csid := memory _
        have before := readHeader_holds header
        rw [begun] at before
        exact before.trans (held _)
      have piece : (cs.taken rem r.session.maxChunkSize rest).data.length ≤
          sum + (rest.take (asked rem r.session.maxChunkSize).toNat).length := by
        rw [RtmpChunkStream.taken, List.length_append]
        omega
      have others : ∀ csid, ((r.session.readBasicHeader buf).1.memory csid).data.length ≤
          sum + (rest.take (asked rem r.session.maxChunkSize).toNat).length := by
        intro csid
        rw [memory]
        exact (held csid).trans (Nat.le_add_right _ _)
      have before : ∀ m ∈ r.messages, m.payload.length ≤
          sum + (rest.take (asked rem r.session.maxChunkSize).toNat).length :=
        fun m inside => (told m inside).trans (Nat.le_add_right _ _)
      generalize (r.session.readBasicHeader buf).1 = basic at *
      refine ⟨cs, rest, (rest.take (asked rem r.session.maxChunkSize).toNat).length, header,
            ?_, ?_, ?_⟩
      · have small := asked_toNat rem r.session.maxChunkSize
        rw [List.length_take]
        omega
      · split at turned <;> cases turned <;> rw [List.length_take, List.length_drop] <;> omega
      generalize cs.taken rem r.session.maxChunkSize rest = cs' at piece turned
      split at turned
      · cases turned
        refine ⟨rfl, size, RtmpSession.setCurrent_held (Nat.zero_le _)
          (RtmpSession.setCurrent_held piece others), fun m inside => ?_⟩
        rcases List.mem_append.mp inside with earlier | last
        · exact before m earlier
        · cases List.mem_singleton.mp last
          change (RtmpSession.current _).data.length ≤ _
          rw [RtmpSession.current, RtmpSession.setCurrent]
          simpa only [Function.update_self, Option.getD_some] using piece
      · cases turned
        exact ⟨rfl, size, RtmpSession.setCurrent_held piece others, before⟩

theorem turn_stops {r r' : Reader} {buf left : Bytes}
    (turned : r.turn buf = .more r' left ∨ r.turn buf = .halt r' left) :
    r'.messages = r.messages := by
  unfold turn at turned
  split at turned <;> obtain turned | turned := turned <;> try cases turned <;> rfl
  · split at turned <;> cases turned
  · split at turned <;> cases turned

theorem Spent.next {total : Nat} {n : UInt32} {r r' : Reader} {buf left : Bytes} {chunks sum : Nat}
    (spent : Spent total n r buf chunks sum) (some : buf ≠ []) (turned : r.turn buf = .next r' left) :
    ∃ taken, Spent total n r' left (chunks + 1) (sum + taken) := by
  obtain ⟨cs, rest, taken, header, cut, used, between, size, held, told⟩ :=
    turn_takes some spent.held spent.told turned
  have shorter := (readHeader_suffix header).length_le
  have positive := List.length_pos_iff.mpr some
  simp only [RtmpSession.readBasicHeader, spent.between, Bool.false_eq_true, if_false,
    List.length_drop] at shorter
  have before := spent.used
  have fits := spent.cut
  rw [spent.size] at cut
  refine ⟨taken, between, size.trans spent.size, ?_, by omega, held, told⟩
  rw [Nat.mul_succ]
  omega

theorem Spent.drains {total : Nat} {n : UInt32} {r : Reader} {buf : Bytes} {chunks sum : Nat}
    {d : Feed.Drained Reader UInt8} (spent : Spent total n r buf chunks sum)
    (drains : Feed.Drains turn r buf d) :
    ∃ chunks sum, sum ≤ n.toNat * chunks ∧ chunks + sum + 15 ≤ total ∧
      ∀ m ∈ d.state.messages, m.payload.length ≤ sum := by
  induction drains generalizing chunks sum with
  | empty r => exact ⟨chunks, sum, spent.cut, spent.used, spent.told⟩
  | more some turned =>
      have used := spent.used
      refine ⟨chunks, sum, spent.cut, by omega, ?_⟩
      rw [turn_stops (.inl turned)]
      exact spent.told
  | halt some turned =>
      have used := spent.used
      refine ⟨chunks, sum, spent.cut, by omega, ?_⟩
      rw [turn_stops (.inr turned)]
      exact spent.told
  | next some turned _ ih =>
      obtain ⟨taken, later⟩ := spent.next some turned
      exact ih later

/-- However a stream goes on that begins with such a header, its messages are short. -/
theorem marked_short {s : RtmpSession} (between : s.headerRead = false)
    (idle : ∀ csid, (s.memory csid).Idle) {csid : UInt16} (narrow : csid < 64) (len : UInt32)
    (type : UInt8) (streamId : UInt32) (more : Bytes) {d : Feed.Drained Reader UInt8}
    (drains : Feed.Drains turn { session := s }
      (chunk csid (.f0 0xffffff len type streamId) more) d) :
    d.state.messages = [] ∨ ∃ chunks sum, sum ≤ s.maxChunkSize.toNat * chunks ∧
      chunks + sum + 15 ≤ 12 + more.length ∧ ∀ m ∈ d.state.messages, m.payload.length ≤ sum := by
  cases drains with
  | more some turned => exact .inl (turn_stops (.inl turned))
  | halt some turned => exact .inl (turn_stops (.inr turned))
  | @next _ _ r' left _ some turned later =>
      right
      have none : ∀ csid, (s.memory csid).data.length ≤ 0 := by
        intro csid
        rw [(idle csid).empty]
        exact Nat.le_refl 0
      obtain ⟨cs, rest, taken, header, cut, used, between', size, held, told⟩ :=
        turn_takes some none (fun m inside => by cases inside) turned
      obtain ⟨fmtRead, idRead⟩ :=
        RtmpSession.basicHeader_fields narrow (.f0 0xffffff len type streamId)
      simp only [RtmpSession.readBasicHeader, chunk, between, Bool.false_eq_true, if_false,
        List.cons_append, List.getD_cons_zero, fmtRead, idRead, List.drop_succ_cons,
        List.drop_zero] at header
      have waiting : (s.memory csid).state = .header := (idle csid).idle
      have mark : timeField (((MessageHeader.f0 0xffffff len type streamId).encode ++ more).take 11) =
          0xffffff := be24_toBE24 (by decide)
      have long := readHeader_marked waiting mark header
      have length : ((MessageHeader.f0 0xffffff len type streamId).encode ++ more).length =
          11 + more.length := by
        rw [List.length_append]
        rfl
      rw [length] at long
      have spent : Spent (12 + more.length) s.maxChunkSize r' left 1 (0 + taken) := by
        refine ⟨between', size, ?_, by omega, held, told⟩
        rw [Nat.mul_one, Nat.zero_add]
        exact cut
      exact spent.drains later

end Reader

/-- What a header has of the time of the packet. -/
def MediaPacket.sentTime (pkt : MediaPacket) : UInt32 := UInt32.ofNat (pkt.dts % 2 ^ 24).toNat

/-- The message that is to arrive. -/
def MediaPacket.outgoing (pkt : MediaPacket) (csid : UInt16) (time : UInt32) : Outgoing where
  csid := csid
  time := time
  dtime := 0
  typeId := pkt.rtmpType
  streamId := pkt.streamId
  msg := pkt.data
  forceF0 := true

/-- The message is the packet, and of the same age. -/
structure Incoming.Relays (m : Incoming) (pkt : MediaPacket) : Prop where
  type : m.type = pkt.rtmpType
  streamId : m.streamId = pkt.streamId
  payload : m.payload = pkt.data
  time : (m.time.toNat : Int) = pkt.dts

namespace RtmpSession

open RtmpChunkStream

theorem Writing.writeMediaPacket_bytes {w : RtmpSession} {pkt : MediaPacket} {csid : UInt16}
    {rest : List Bytes} (writing : w.Writing) (known : mediaCsid pkt.type = some csid)
    (fits : pkt.data.length < 2 ^ 24)
    (split : writeRest w.maxChunkSize (basicHeader 3 csid) pkt.data.length
      (pkt.data.drop w.maxChunkSize.toNat) = .ok rest) :
    ∃ w' buffers, w.writeMediaPacket pkt = .ok w' ∧ w'.written = w.written ++ buffers ∧
      buffers.flatten = chunk csid (.f0 pkt.sentTime (UInt32.ofNat pkt.data.length) pkt.rtmpType
        pkt.streamId) (pkt.data.take w.maxChunkSize.toNat) ++ rest.flatten := by
  obtain ⟨own, unsent⟩ := writing.tidy csid
  have low : toBE24 (UInt32.ofNat (pkt.dts % 2 ^ 32).toNat) = toBE24 pkt.sentTime := by
    apply toBE24_congr
    have word : (UInt32.ofNat (pkt.dts % 2 ^ 32).toNat).toNat = (pkt.dts % 2 ^ 32).toNat % 2 ^ 32 :=
      UInt32.toNat_ofNat
    have sent : pkt.sentTime.toNat = (pkt.dts % 2 ^ 24).toNat % 2 ^ 32 := UInt32.toNat_ofNat
    omega
  unfold writeMediaPacket
  simp only [known]
  generalize UInt32.ofNat (pkt.dts % 2 ^ 32).toNat = time at low ⊢
  generalize pkt.sentTime = sent at low ⊢
  obtain ⟨cs', head, remembers⟩ : ∃ cs', ((w.csOut csid).getD { csid }).writeHeader time 0
      pkt.rtmpType pkt.streamId (UInt32.ofNat pkt.data.length) true =
        (basicHeader 0 csid :: (MessageHeader.f0 sent (UInt32.ofNat pkt.data.length) pkt.rtmpType
          pkt.streamId).encode, cs', 12) ∧ cs'.Remembers (pkt.outgoing csid time) := by
    refine ⟨{ (w.csOut csid).getD { csid } with
      time, len := UInt32.ofNat pkt.data.length, type := pkt.rtmpType, streamId := pkt.streamId },
      ?_, own, unsent, rfl, rfl, rfl⟩
    simp only [writeHeader, Bool.not_true, Bool.false_eq_true, and_false, if_false, own, low,
      MessageHeader.encode, List.cons_append]
  obtain ⟨buffers, total, wrote, flat⟩ :=
    writeChunk_ok (o := pkt.outgoing csid time) fits remembers head split
  simp only [MediaPacket.outgoing] at wrote
  refine ⟨{ w with
    csOut := Function.update w.csOut csid (some cs'), written := w.written ++ buffers },
    buffers, ?_, rfl, flat⟩
  simp only [writeChunk, wrote]
  rfl

end RtmpSession

namespace Reader

open RtmpChunkStream

variable {s : RtmpSession} {pkt : MediaPacket} {csid : UInt16} {n : UInt32} {rest : List Bytes}

/-- The bytes a packet becomes, with this for the rest of a split payload. -/
def packetBytes (pkt : MediaPacket) (csid : UInt16) (n : UInt32) (rest : List Bytes) : Bytes :=
  chunk csid (.f0 pkt.sentTime (UInt32.ofNat pkt.data.length) pkt.rtmpType pkt.streamId)
    (pkt.data.take n.toNat) ++ rest.flatten

theorem drain_unmarked (between : s.headerRead = false) (idle : ∀ csid, (s.memory csid).Idle)
    (positive : 0 < s.maxChunkSize.toNat) (narrow : csid < 64) (fits : pkt.data.length < 2 ^ 24)
    (plain : pkt.sentTime.toNat < 0xffffff)
    (split : writeRest s.maxChunkSize (basicHeader 3 csid) pkt.data.length
      (pkt.data.drop s.maxChunkSize.toNat) = .ok rest) :
    ∃ m, (drain { session := s } (packetBytes pkt csid s.maxChunkSize rest)).state.messages = [m] ∧
      m.Matches (pkt.outgoing csid pkt.sentTime) := by
  have small : (pkt.outgoing csid pkt.sentTime).message.Fits := fits
  obtain ⟨rest', again, last, later⟩ := completes_rest (o := pkt.outgoing csid pkt.sentTime) narrow
    small positive pkt.data.length (pkt.data.drop s.maxChunkSize.toNat)
    (by rw [List.length_drop]; omega)
  cases again.symm.trans split
  have short : (UInt32.ofNat pkt.data.length).toNat < 2 ^ 24 :=
    (Message.Fits.len_toNat small).trans_lt fits
  have completes : Completes { session := s } (pkt.outgoing csid pkt.sentTime)
      (packetBytes pkt csid s.maxChunkSize rest) := by
    refine Completes.first (h := .f0 pkt.sentTime (UInt32.ofNat pkt.data.length) pkt.rtmpType
      pkt.streamId) narrow small between ⟨plain, short⟩ (idle csid).idle (idle csid).noExt
      (fun other => by cases other) ((idle csid).starts ⟨rfl, rfl, rfl, fun t told => ?_⟩)
      (fun finished => by rw [last finished]; rfl) later
    exact Option.some.inj told
  obtain ⟨s', m, _, matching, _, drains⟩ := completes
  have drained := drains [] _ (.empty _)
  rw [List.append_nil] at drained
  refine ⟨m, ?_, matching⟩
  rw [drain_eq drained]
  rfl

/-- Behind a header with the mark there is not enough for a message of the announced length. -/
theorem drain_marked (between : s.headerRead = false) (idle : ∀ csid, (s.memory csid).Idle)
    (narrow : csid < 64) (mark : pkt.sentTime = 0xffffff)
    (split : writeRest s.maxChunkSize (basicHeader 3 csid) pkt.data.length
      (pkt.data.drop s.maxChunkSize.toNat) = .ok rest) :
    ∀ m ∈ (drain { session := s } (packetBytes pkt csid s.maxChunkSize rest)).state.messages,
      m.payload.length < pkt.data.length := by
  intro m inside
  have drains := drain_drains { session := s } (packetBytes pkt csid s.maxChunkSize rest)
  generalize drain { session := s } (packetBytes pkt csid s.maxChunkSize rest) = d at inside drains
  have bytes : packetBytes pkt csid s.maxChunkSize rest =
      chunk csid (.f0 0xffffff (UInt32.ofNat pkt.data.length) pkt.rtmpType pkt.streamId)
        (pkt.data.take s.maxChunkSize.toNat ++ rest.flatten) := by
    rw [packetBytes, mark, chunk, chunk, List.append_assoc]
  rw [bytes] at drains
  obtain none | ⟨chunks, sum, cut, used, told⟩ := marked_short between idle narrow _ _ _ _ drains
  · rw [none] at inside
    cases inside
  obtain ⟨length, full⟩ := writeRest_length split
  have short := told m inside
  rw [List.length_append, List.length_take, length, List.length_drop] at used
  rw [List.length_drop] at full
  by_contra long
  -- each further chunk costs a byte, so that there are fewer of them than pieces
  have fewer : chunks + 3 ≤ rest.length := by omega
  have spare := full (List.length_pos_iff.mp (by omega))
  have most : s.maxChunkSize.toNat * (chunks + 3) ≤ s.maxChunkSize.toNat * rest.length :=
    Nat.mul_le_mul_left _ fewer
  rw [Nat.mul_add] at most
  omega

end Reader

/-- A packet written for a viewer arrives as one message with its type, stream, payload and time
    exactly if it is of a known type and the stream is not older than three bytes can tell. -/
theorem media_packet_relayed_iff {w r : RtmpSession} (pkt : MediaPacket) (writing : w.Writing)
    (positive : 1 ≤ w.maxChunkSize) (between : r.headerRead = false)
    (idle : ∀ csid, (r.memory csid).Idle) (size : r.maxChunkSize = w.maxChunkSize)
    (age : 0 ≤ pkt.dts ∧ pkt.dts < 2 ^ 32) (fits : pkt.data.length < 2 ^ 24) :
    ∃ w' buffers, w.writeMediaPacket pkt = .ok w' ∧ w'.written = w.written ++ buffers ∧
      ((∃ m : Incoming, (Reader.drain { session := r } buffers.flatten).state.messages = [m] ∧
          m.Relays pkt) ↔
        pkt.type ≠ .unknown ∧ pkt.dts < 0xffffff) := by
  cases known : RtmpSession.mediaCsid pkt.type with
  | none =>
      have unknown : pkt.type = .unknown := by
        cases type : pkt.type <;> rw [type] at known <;> cases known
      refine ⟨w, [], by simp only [RtmpSession.writeMediaPacket, known], (List.append_nil _).symm, ?_⟩
      constructor
      · rintro ⟨m, none, _⟩
        cases none
      · exact fun fine => absurd unknown fine.1
  | some csid =>
      have narrow : csid < 64 := by
        cases type : pkt.type <;> rw [type] at known <;> cases known <;> decide
      have media : pkt.type ≠ .unknown := by
        intro unknown
        rw [unknown] at known
        cases known
      have room : 0 < r.maxChunkSize.toNat := by
        rw [size]
        exact UInt32.le_iff_toNat_le.mp positive
      have nonzero : r.maxChunkSize ≠ 0 := by
        intro none
        rw [none] at room
        cases room
      obtain ⟨rest, split⟩ := RtmpChunkStream.writeRest_ok nonzero
        (RtmpChunkStream.basicHeader 3 csid) pkt.data.length (pkt.data.drop r.maxChunkSize.toNat)
        (by rw [List.length_drop]; omega)
      obtain ⟨w', buffers, wrote, written, flat⟩ := writing.writeMediaPacket_bytes known fits
        (size ▸ split)
      refine ⟨w', buffers, wrote, written, ?_⟩
      rw [flat, ← size]
      have age' : (pkt.sentTime.toNat : Int) = pkt.dts % 2 ^ 24 := by
        have sent : pkt.sentTime.toNat = (pkt.dts % 2 ^ 24).toNat % 2 ^ 32 := UInt32.toNat_ofNat
        omega
      by_cases mark : pkt.sentTime = 0xffffff
      · have short := Reader.drain_marked between idle narrow mark split
        have old : (pkt.sentTime.toNat : Int) = 0xffffff := by
          rw [mark]
          rfl
        constructor
        · rintro ⟨m, arrived, relays⟩
          rw [Reader.packetBytes] at short
          have less := short m (by rw [arrived]; exact List.mem_singleton_self m)
          rw [relays.payload] at less
          exact absurd less (Nat.lt_irrefl _)
        · intro fine
          omega
      · have plain : pkt.sentTime.toNat < 0xffffff := by
          have other : pkt.sentTime.toNat ≠ 0xffffff := fun same =>
            mark (UInt32.toNat_inj.mp same)
          omega
        obtain ⟨m, arrived, matching⟩ :=
          Reader.drain_unmarked between idle room narrow fits plain split
        have time : m.time = pkt.sentTime := matching.time rfl
        rw [Reader.packetBytes] at arrived
        constructor
        · rintro ⟨m', arrived', relays⟩
          cases List.singleton_injective (arrived.symm.trans arrived')
          have same := relays.time
          rw [time] at same
          exact ⟨media, by omega⟩
        · intro fine
          refine ⟨m, arrived, matching.type, matching.streamId, matching.payload, ?_⟩
          rw [time]
          omega

/-- A video packet of this age. -/
def videoPacket (dts : Int) : MediaPacket where
  ptr := 0
  streamId := 1
  rtmpType := 9
  url := ascii "live/1"
  app := ascii "live"
  cid := 1
  type := .video
  dts := dts
  data := [0x27, 1, 0, 0, 0]

theorem media_packet_relayed_young :
    ∃ w' buffers, RtmpSession.writeMediaPacket { maxChunkSize := 2 } (videoPacket 40) = .ok w' ∧
      w'.written = buffers ∧
      ∃ m : Incoming, (Reader.drain { session := { maxChunkSize := 2 } }
        buffers.flatten).state.messages = [m] ∧ m.Relays (videoPacket 40) := by
  obtain ⟨w', buffers, wrote, written, relayed⟩ :=
    media_packet_relayed_iff (w := { maxChunkSize := 2 }) (r := { maxChunkSize := 2 })
      (videoPacket 40) (.fresh fun _ => rfl) (by decide) rfl (fun _ => ⟨rfl, rfl, rfl, rfl, rfl⟩) rfl
      (by decide) (by decide)
  exact ⟨w', buffers, wrote, written, relayed.mpr (by decide)⟩

/-- After 2^24 - 1 milliseconds a packet does not arrive. -/
theorem aged_packet_lost : ¬ ∀ (w r : RtmpSession) (pkt : MediaPacket), w.Writing →
    1 ≤ w.maxChunkSize → r.headerRead = false → (∀ csid, (r.memory csid).Idle) →
    r.maxChunkSize = w.maxChunkSize → pkt.type ≠ .unknown → 0 ≤ pkt.dts ∧ pkt.dts < 2 ^ 32 →
    pkt.data.length < 2 ^ 24 →
    ∃ w' buffers, w.writeMediaPacket pkt = .ok w' ∧ w'.written = w.written ++ buffers ∧
      ∃ m : Incoming, (Reader.drain { session := r } buffers.flatten).state.messages = [m] ∧
        m.Relays pkt := by
  intro relayed
  obtain ⟨w', buffers, wrote, written, m, arrived, _⟩ :=
    relayed {} {} (videoPacket 0xffffff) (.fresh fun _ => rfl) (by decide) rfl
      (fun _ => ⟨rfl, rfl, rfl, rfl, rfl⟩) rfl (by decide) (by decide) (by decide)
  cases wrote
  cases written
  have none : (Reader.drain { session := {} } [[6, 0xff, 0xff, 0xff, 0, 0, 5, 9, 1, 0, 0, 0,
      0x27, 1, 0, 0, 0]].flatten).state.messages = [] := by decide
  cases none.symm.trans arrived

end DroneServer
