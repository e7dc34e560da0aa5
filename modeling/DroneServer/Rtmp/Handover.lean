import DroneServer.Rtmp.Delivery
import DroneServer.Rtmp.Gop

/-! # A new publisher on an old stream

A stream object outlives its publisher as long as a viewer stays, and its cache
outlives it too. Nothing clears the cache when another session starts to publish:
what earlier publishers sent goes to the viewers that come after, until it has been
replaced kind by kind.
-/

namespace DroneServer

open MediaPacket

namespace MediaPacket

/-- In the cache the packet takes the place of another: of a header of its own sort or, a key frame,
    of any packet that is not a header. -/
def replaces (q p : MediaPacket) : Bool :=
  p.isMetadata && q.isMetadata || p.isVideoHeader && q.isVideoHeader ||
    p.isAudioHeader && q.isAudioHeader || !p.isHeader && q.isKey

end MediaPacket

/-- Among packets and who sent them, each that another session sent has been replaced since. -/
def Renewed (session : SessionId) : List (SessionId × MediaPacket) → Prop
  | [] => True
  | (sender, p) :: after =>
      (sender = session ∨ ∃ q ∈ after, q.2.replaces p = true) ∧ Renewed session after

instance decidableRenewed (session : SessionId) :
    (sent : List (SessionId × MediaPacket)) → Decidable (Renewed session sent)
  | [] => .isTrue trivial
  | (sender, p) :: after =>
      have := decidableRenewed session after
      inferInstanceAs (Decidable ((sender = session ∨ ∃ q ∈ after, q.2.replaces p = true) ∧ _))

section Cache

variable {kind : MediaPacket → Bool} {xs ys before after : List MediaPacket} {p : MediaPacket}

theorem lastOf_mem (last : lastOf kind xs = some p) : p ∈ xs ∧ kind p = true :=
  List.mem_filter.mp (List.mem_of_getLast? last)

theorem lastOf_append (kind : MediaPacket → Bool) (xs ys : List MediaPacket) :
    lastOf kind (xs ++ ys) = (lastOf kind ys).or (lastOf kind xs) := by
  rw [lastOf, List.filter_append, List.getLast?_append]
  rfl

theorem lastOf_iff (once : p ∉ after) :
    lastOf kind (before ++ p :: after) = some p ↔ kind p = true ∧ ∀ q ∈ after, kind q = false := by
  rw [List.append_cons, lastOf_append]
  cases last : lastOf kind after with
  | some q =>
      obtain ⟨inside, hit⟩ := lastOf_mem last
      rw [Option.some_or, Option.some.injEq]
      refine iff_of_false (fun same => once (same ▸ inside)) fun ⟨_, others⟩ => ?_
      rw [others q inside] at hit
      cases hit
  | none =>
      rw [lastOf, List.getLast?_eq_none_iff, List.filter_eq_nil_iff] at last
      rw [Option.none_or]
      constructor
      · intro first
        exact ⟨(lastOf_mem first).2, fun q inside => Bool.eq_false_iff.mpr (last q inside)⟩
      · rintro ⟨hit, _⟩
        rw [lastOf_append]
        simp [lastOf, hit]

namespace GopCache

theorem group_mem {n : ℕ} (inside : p ∈ group n xs) : p ∈ xs ∧ p.isHeader = false := by
  obtain ⟨inside, plain⟩ := List.mem_filter.mp inside
  exact ⟨List.mem_of_mem_fromNth inside, by simpa using plain⟩

theorem group_renewed (key : ∃ p ∈ ys, p.isKey = true) : group 1 (xs ++ ys) = group 1 ys := by
  induction ys using List.reverseRecOn with
  | nil =>
      obtain ⟨_, inside, _⟩ := key
      cases inside
  | append_singleton ys p ih =>
      rw [← List.append_assoc]
      by_cases last : p.isKey = true
      · rw [group_key 1 _ last, group_key 1 _ last, if_pos (Nat.mod_one _), if_pos (Nat.mod_one _)]
      · have other : p.isKey = false := Bool.eq_false_iff.mpr last
        obtain ⟨q, inside, hit⟩ := key
        obtain old | new := List.mem_append.mp inside
        · rw [group_snoc 1 _ other, group_snoc 1 _ other, ih ⟨q, old, hit⟩]
        · rw [List.mem_singleton.mp new, other] at hit
          cases hit

theorem group_continued (none : ¬ ∃ p ∈ ys, p.isKey = true) :
    group 1 (xs ++ ys) = group 1 xs ++ ys.filter fun p => !p.isHeader := by
  induction ys using List.reverseRecOn with
  | nil => simp
  | append_singleton ys p ih =>
      have other : p.isKey = false :=
        Bool.eq_false_iff.mpr fun key => none ⟨p, List.mem_append_right _ (.head _), key⟩
      rw [← List.append_assoc, group_snoc 1 _ other, ih fun ⟨q, inside, key⟩ =>
        none ⟨q, List.mem_append_left _ inside, key⟩]
      by_cases header : p.isHeader = true <;> simp [header]

/-- A packet is in the group if it is no header and no key frame has come after it. -/
theorem group_iff (before : List MediaPacket) (once : p ∉ after) :
    p ∈ group 1 (before ++ p :: after) ↔ p.isHeader = false ∧ ∀ q ∈ after, q.isKey = false := by
  rw [List.append_cons]
  by_cases key : ∃ q ∈ after, q.isKey = true
  · rw [group_renewed key]
    refine iff_of_false (fun inside => once (group_mem inside).1) fun ⟨_, others⟩ => ?_
    obtain ⟨q, inside, hit⟩ := key
    rw [others q inside] at hit
    cases hit
  · rw [group_continued key, List.mem_append]
    have others : ∀ q ∈ after, q.isKey = false := fun q inside =>
      Bool.eq_false_iff.mpr fun hit => key ⟨q, inside, hit⟩
    have absent : p ∉ after.filter fun q => !q.isHeader :=
      fun inside => once (List.mem_filter.mp inside).1
    simp only [absent, or_false, and_iff_left others]
    refine ⟨fun inside => (group_mem inside).2, fun plain => ?_⟩
    by_cases first : p.isKey = true
    · rw [group_key 1 _ first]
      exact List.mem_append_right _ (.head _)
    · rw [group_snoc 1 _ (Bool.eq_false_iff.mpr first), if_neg (by simp [plain])]
      exact List.mem_append_right _ (.head _)

/-- The cache holds the packets that none after them has replaced. -/
theorem write_iff (once : p ∉ after) : p ∈ (inserted 1 (before ++ p :: after)).write ↔
    ∀ q ∈ after, q.replaces p = false := by
  have caches := caches_inserted 1 (before ++ p :: after) (.inr rfl)
  have group := group_iff before once
  simp only [write, caches.metadata, caches.video, caches.audio, caches.pkts, List.mem_append,
    Option.mem_toList, lastOf_iff once, replaces]
  rw [show (1 : UInt32).toNat = 1 from rfl, group]
  simp only [isHeader, isMetadata, isVideoHeader, isAudioHeader]
  cases p.type <;> cases p.seqHeader <;> simp

theorem write_mem (inside : p ∈ (inserted 1 xs).write) : p ∈ xs := by
  have caches := caches_inserted 1 xs (.inr rfl)
  simp only [write, caches.metadata, caches.video, caches.audio, caches.pkts, List.mem_append,
    Option.mem_toList] at inside
  obtain ((last | last) | last) | inside := inside
  · exact (lastOf_mem last).1
  · exact (lastOf_mem last).1
  · exact (lastOf_mem last).1
  · exact (group_mem inside).1

/-- The packets of the later part that the cache holds are all of one session exactly when what others
    sent of them has been replaced. -/
theorem write_own (before : List MediaPacket) {session : SessionId}
    {sent : List (SessionId × MediaPacket)} (once : (before ++ sent.map Prod.snd).Nodup) :
    (∀ x ∈ sent, x.2 ∈ (inserted 1 (before ++ sent.map Prod.snd)).write → x.1 = session) ↔
      Renewed session sent := by
  induction sent generalizing before with
  | nil => exact iff_of_true (fun _ inside => nomatch inside) trivial
  | cons x after ih =>
      obtain ⟨sender, p⟩ := x
      rw [List.map_cons] at once ⊢
      have alone : p ∉ after.map Prod.snd :=
        (List.nodup_cons.mp (List.nodup_append.mp once).2.1).1
      rw [List.forall_mem_cons, write_iff alone, List.append_cons, ih _ (List.append_cons .. ▸ once),
        Renewed, List.forall_mem_map]
      refine and_congr_left fun _ => ?_
      by_cases own : sender = session
      · simp only [own, implies_true, true_or]
      · simp only [own, false_or, imp_false, not_forall, Bool.not_eq_false, exists_prop]

end GopCache

end Cache

namespace RtmpStream

/-- A message becomes a packet of the stream: it is the publisher's, and the demuxer gets through it. -/
def Takes (st : RtmpStream) (mm : MediaManager) (session : SessionId) (cs : RtmpChunkStream)
    (pkt : MediaPacket) : Prop :=
  st.publisher = some session ∧ st.chunkStreamToMediaPkt st.made cs = .ok pkt ∧
    ∃ fed, FlvDemuxer.wrapWrite st.demux mm pkt = .ok fed

variable {st : RtmpStream} {mm : MediaManager} {session : SessionId} {cs : RtmpChunkStream}
  {pkt : MediaPacket}

theorem takes_iff : st.Takes mm session cs pkt ↔
    ∃ stream mm' writes, st.send mm session cs = .ok (some (stream, mm', pkt, writes)) := by
  constructor
  · rintro ⟨publishing, made, ⟨demux, mm'⟩, fed⟩
    rw [send, if_neg (not_not.mpr publishing), made]
    simp only [bind, Except.bind, fed]
    exact ⟨_, _, _, rfl⟩
  · rintro ⟨stream, mm', writes, done⟩
    unfold send at done
    split at done
    · cases done
    · next publishing =>
        obtain ⟨pkt, made, done⟩ := bind_ok.mp done
        obtain ⟨fed, wrote, done⟩ := bind_ok.mp done
        cases done
        exact ⟨not_not.mp publishing, made, fed, wrote⟩

end RtmpStream

/-- What has happened on a stream object: the packets sent and who sent them, and the sessions that
    joined since its publisher did. -/
structure Handover where
  sent : List (SessionId × MediaPacket) := []
  later : List SessionId := []

namespace Handover

/-- Take note of a call. -/
def note (n : Handover) (b : Broadcast) (c : StreamCall) : Handover :=
  if b.crashed = none then
    match c with
    | .join session publisher =>
        if (b.stream.join session publisher).1 = .ok then
          { n with later := if publisher then [] else session :: n.later }
        else n
    | .leave _ => n
    | .send session cs mm =>
        match b.stream.send mm session cs with
        | .ok (some (_, _, pkt, _)) => { n with sent := n.sent ++ [(session, pkt)] }
        | .ok none | .error _ => n
  else n

/-- All that a packet makes the stream write to viewers that joined since the publisher did, the
    publisher has sent. -/
def Clean (s : Broadcast × Handover) : StreamCall → Prop
  | .send session cs mm => s.1.crashed = none → ∀ stream mm' pkt writes,
      s.1.stream.send mm session cs = .ok (some (stream, mm', pkt, writes)) →
        ∀ v p, (v, p) ∈ writes → v ∈ s.2.later → (session, p) ∈ s.2.sent ++ [(session, pkt)]
  | .join _ _ | .leave _ => True

/-- A viewer that joined since the publisher did is still to be given the cache. -/
def Awaited (s : Broadcast × Handover) (session : SessionId) : Prop :=
  ∃ v ∈ s.2.later, v ≠ session ∧ (v, false) ∈ s.1.stream.peers.entries

/-- While such a viewer waits, a packet is taken in only if with it all that others than the publisher
    sent has been replaced. -/
def Renews (s : Broadcast × Handover) : StreamCall → Prop
  | .send session cs mm => s.1.crashed = none → ∀ pkt, s.1.stream.Takes mm session cs pkt →
      Awaited s session → Renewed session (s.2.sent ++ [(session, pkt)])
  | .join _ _ | .leave _ => True

instance (s : Broadcast × Handover) (session : SessionId) : Decidable (Awaited s session) :=
  inferInstanceAs (Decidable (∃ v ∈ s.2.later, _))

instance (s : Broadcast × Handover) : (c : StreamCall) → Decidable (Renews s c)
  | .join _ _ | .leave _ => .isTrue trivial
  | .send session cs mm =>
      match accepted : s.1.stream.send mm session cs with
      | .ok (some (_, _, pkt, _)) =>
          decidable_of_iff (s.1.crashed = none → Awaited s session →
            Renewed session (s.2.sent ++ [(session, pkt)])) <| by
              simp only [Renews, RtmpStream.takes_iff, accepted]
              constructor
              · rintro renews running _ ⟨_, _, _, ⟨⟩⟩ awaited
                exact renews running awaited
              · exact fun renews running awaited => renews running _ ⟨_, _, _, rfl⟩ awaited
      | .ok none | .error _ => .isTrue <| by
          simp only [Renews, RtmpStream.takes_iff, accepted]
          rintro _ _ ⟨_, _, _, ⟨⟩⟩

/-- The notes account for all that was sent, and the cache is what became of it. -/
structure Tracks (s : Broadcast × Handover) : Prop where
  cached : s.1.Cached
  sent : s.2.sent.map Prod.snd = s.1.sent
  gop : s.1.stream.gop = GopCache.inserted 1 s.1.sent

variable {s : Broadcast × Handover} {st : RtmpStream}

theorem gop_step {b : Broadcast} (gop : b.stream.gop = GopCache.inserted 1 b.sent) (c : StreamCall) :
    (b.step c).stream.gop = GopCache.inserted 1 (b.step c).sent := by
  have change := b.step_change c
  generalize b.step c = b' at change
  cases change with
  | idle | left => exact gop
  | joined session publisher =>
      obtain ⟨same, _⟩ | ⟨_, _, same⟩ := b.stream.join_cases session publisher <;> rw [same] <;>
        exact gop
  | sent accepted =>
      obtain ⟨_, demux, _, rfl, _⟩ := RtmpStream.send_ok accepted
      dsimp only
      rw [GopCache.inserted_snoc, gop]

theorem note_sent {b : Broadcast} {n : Handover} (sent : n.sent.map Prod.snd = b.sent)
    (c : StreamCall) : (note n b c).sent.map Prod.snd = (b.step c).sent := by
  unfold note Broadcast.step
  by_cases running : b.crashed = none
  · rw [if_pos running, if_pos running]
    cases c with
    | join session publisher =>
        dsimp only [Broadcast.perform]
        split <;> exact sent
    | leave => exact sent
    | send session cs mm =>
        dsimp only [Broadcast.perform]
        cases b.stream.send mm session cs with
        | error _ => exact sent
        | ok done =>
            obtain _ | ⟨_, _, pkt, _⟩ := done
            · exact sent
            · rw [List.map_append, sent]
              rfl
  · rw [if_neg running, if_neg running]
    exact sent

theorem Tracks.step (tracks : Tracks s) (c : StreamCall) :
    Tracks (((broadcast st).noting {} note).step s c) :=
  ⟨tracks.cached.step c, note_sent tracks.sent c, gop_step tracks.gop c⟩

theorem Tracks.run {ref : Nat} {url : Bytes} (made : RtmpStream.create ref url = .ok st)
    (calls : List StreamCall) : Tracks (((broadcast st).noting {} note).run calls) := by
  have start : Tracks (((broadcast st).noting {} note).run []) := by
    refine ⟨Broadcast.Cached.run made [], rfl, ?_⟩
    obtain ⟨cid, _, built⟩ := bind_ok.mp made
    cases built
    rfl
  induction calls using List.reverseRecOn with
  | nil => exact start
  | append_singleton calls c ih =>
      rw [Machine.run_snoc]
      exact ih.step c

/-- The cache that the stream writes from, once a packet is in, holds the publisher's packets only
    exactly when the others have been replaced. -/
theorem Tracks.cache_iff (tracks : Tracks s) {session : SessionId} {pkt : MediaPacket}
    (ptr : pkt.ptr = s.1.stream.made) :
    (∀ p ∈ (s.1.stream.gop.insert pkt).write, (session, p) ∈ s.2.sent ++ [(session, pkt)]) ↔
      Renewed session (s.2.sent ++ [(session, pkt)]) := by
  have all : s.1.sent ++ [pkt] = (s.2.sent ++ [(session, pkt)]).map Prod.snd := by
    rw [List.map_append, tracks.sent]
    rfl
  have once : ((s.2.sent ++ [(session, pkt)]).map Prod.snd).Nodup := by
    rw [← all]
    exact List.nodup_append.mpr ⟨tracks.cached.distinct, List.nodup_singleton pkt, fun p old q new =>
      fun same => tracks.cached.fresh ptr (List.mem_singleton.mp new ▸ same ▸ old)⟩
  rw [tracks.gop, ← GopCache.inserted_snoc, all, ← GopCache.write_own [] once,
    List.nil_append]
  generalize s.2.sent ++ [(session, pkt)] = sent at once
  constructor
  · rintro own ⟨sender, p⟩ inside kept
    have same := List.inj_on_of_nodup_map once inside (own p kept) rfl
    exact congrArg Prod.fst same
  · intro own p kept
    obtain ⟨⟨sender, p⟩, inside, rfl⟩ := List.mem_map.mp (GopCache.write_mem kept)
    rwa [← own _ inside kept]

/-- What a packet makes the stream write to such viewers is the publisher's exactly when the others'
    packets have been replaced by the time one is given the cache. -/
theorem Tracks.given_iff (tracks : Tracks s) {session : SessionId} {cs : RtmpChunkStream}
    {mm mm' : MediaManager} {stream : RtmpStream} {pkt : MediaPacket}
    {writes : List (SessionId × MediaPacket)}
    (accepted : s.1.stream.send mm session cs = .ok (some (stream, mm', pkt, writes))) :
    (∀ v p, (v, p) ∈ writes → v ∈ s.2.later → (session, p) ∈ s.2.sent ++ [(session, pkt)]) ↔
      (Awaited s session → Renewed session (s.2.sent ++ [(session, pkt)])) := by
  obtain ⟨_, demux, made, _, written⟩ := RtmpStream.send_ok accepted
  rw [← tracks.cache_iff ((RtmpStream.chunkStreamToMediaPkt_ok made).2.2.1), written]
  simp only [List.mem_flatMap, List.mem_map, Prod.exists, Prod.mk.injEq]
  constructor
  · rintro all ⟨v, joined, other, entry⟩ p inside
    refine all v p ⟨v, false, entry, p, ?_, rfl, rfl⟩ joined
    rwa [RtmpStream.writesTo, if_neg other]
  · rintro own _ p ⟨v, served, entry, _, inside, rfl, rfl⟩ joined
    unfold RtmpStream.writesTo at inside
    split at inside
    · cases inside
    · next other =>
        cases served with
        | true =>
            rw [List.mem_singleton.mp inside]
            exact List.mem_append_right _ (.head _)
        | false => exact own ⟨v, joined, other, entry⟩ _ inside

theorem Tracks.clean_iff (tracks : Tracks s) (c : StreamCall) : Clean s c ↔ Renews s c := by
  cases c with
  | join | leave => exact Iff.rfl
  | send session cs mm =>
      refine forall_congr' fun running => ⟨?_, ?_⟩
      · intro clean pkt taken
        obtain ⟨stream, mm', writes, accepted⟩ := RtmpStream.takes_iff.mp taken
        exact (tracks.given_iff accepted).mp (clean stream mm' pkt writes accepted)
      · intro renews stream mm' pkt writes accepted
        exact (tracks.given_iff accepted).mpr
          (renews pkt (RtmpStream.takes_iff.mpr ⟨stream, mm', writes, accepted⟩))

end Handover

/-- In the life of a stream object, all that is ever written to a viewer that joined after the
    publisher was sent by that publisher, exactly when no such viewer is given the cache before all
    that other sessions sent has been replaced in it. -/
theorem new_publisher_clean_iff {ref : Nat} {url : Bytes} {st : RtmpStream}
    (made : RtmpStream.create ref url = .ok st) (calls : List StreamCall) :
    ((broadcast st).noting {} Handover.note).Steps Handover.Clean calls ↔
      ((broadcast st).noting {} Handover.note).Steps Handover.Renews calls := by
  have same : ∀ done c, Handover.Clean (((broadcast st).noting {} Handover.note).run done) c ↔
      Handover.Renews (((broadcast st).noting {} Handover.note).run done) c :=
    fun done c => (Handover.Tracks.run made done).clean_iff c
  simp only [Machine.Steps, same]

/-- The stream object of `live/1`, at first. -/
def firstStream : RtmpStream := { ref := 0, url := ascii "live/1", app := ascii "live", cid := 1 }

theorem firstStream_made : RtmpStream.create 0 (ascii "live/1") = .ok firstStream := by rfl

/-- One viewer keeps it from the first publisher, who sends a key frame, to the second. -/
def handover : List StreamCall :=
  [.join 1 true, .join 2 false, .send 1 (mediaMessage 9 [0x17, 1, 0, 0, 0]) {}, .leave 1,
    .join 3 true, .join 4 false]

/-- The second publisher starts with a key frame as well. -/
theorem new_publisher_clean_iff_key :
    ((broadcast firstStream).noting {} Handover.note).Steps Handover.Clean
      (handover ++ [.send 3 (mediaMessage 9 [0x17, 1, 0, 0, 0]) {},
        .send 3 (mediaMessage 9 [0x27, 1, 0, 0, 0]) {}]) := by
  refine (new_publisher_clean_iff firstStream_made _).mpr (Machine.Checks.steps ?_)
  decide +kernel

/-- It starts with another frame: the viewer that joined after it is given the key frame of the first
    publisher. -/
theorem old_key_frame_replayed :
    ¬ ∀ (ref : Nat) (url : Bytes) (st : RtmpStream), RtmpStream.create ref url = .ok st →
      ∀ calls, ((broadcast st).noting {} Handover.note).Steps Handover.Clean calls := by
  intro all
  have clean := all 0 (ascii "live/1") _ firstStream_made
    (handover ++ [.send 3 (mediaMessage 9 [0x27, 1, 0, 0, 0]) {}]) handover _ (List.prefix_refl _)
  generalize reached : ((broadcast firstStream).noting {} Handover.note).run handover = s at clean
  have running : s.1.crashed = none := by
    rw [← reached]
    decide +kernel
  obtain ⟨sent, accepted, old⟩ : ∃ sent,
      s.1.stream.send {} 3 (mediaMessage 9 [0x27, 1, 0, 0, 0]) = .ok sent ∧
        ∃ r ∈ sent, ∃ w ∈ r.2.2.2, w.1 ∈ s.2.later ∧ (3, w.2) ∉ s.2.sent ++ [(3, r.2.2.1)] := by
    rw [← reached]
    decide +kernel
  obtain ⟨⟨stream, mm, pkt, writes⟩, rfl, ⟨v, p⟩, written, joined, foreign⟩ := old
  exact foreign (clean running stream mm pkt writes accepted v p written joined)

end DroneServer
