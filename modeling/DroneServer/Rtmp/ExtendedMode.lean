import DroneServer.Rtmp.Heard
import DroneServer.Rtmp.Peer

/-! # When a chunk stream expects extended times

A header marked for an extended time sets `ext_ts_`, before the time is there, and
nothing ever takes the flag back. So it tells what the last header said as long as
no ordinary header comes after a marked one, and no read ends inside the extended
time of the first marked header.
-/

namespace DroneServer

namespace RtmpChunkStream

theorem readFull_extTs {size : Nat} {assign : Bytes → UInt32 → RtmpChunkStream → RtmpChunkStream}
    (keeps : ∀ mh ts cs, (assign mh ts cs).extTs = cs.extTs) (cs : RtmpChunkStream) (buf : Bytes) :
    (readFull size assign cs buf).2.1.extTs = true ↔
      cs.extTs = true ∨ size ≤ buf.length ∧ timeField (buf.take size) = 0xffffff := by
  unfold readFull timeField
  simp only
  split
  · next short =>
      exact ⟨.inl, fun seen => seen.resolve_right fun there => Nat.not_le.mpr short there.1⟩
  next enough =>
  split
  · next mark =>
      have seen : cs.extTs = true ∨ size ≤ buf.length ∧ Endian.be24 ((buf.take size).getD 0 0)
          ((buf.take size).getD 1 0) ((buf.take size).getD 2 0) = 0xffffff :=
        .inr ⟨Nat.not_lt.mp enough, mark⟩
      split
      · exact ⟨fun _ => seen, fun _ => rfl⟩
      · exact ⟨fun _ => seen, fun _ => keeps _ _ _⟩
  · next plain =>
      rw [keeps]
      exact ⟨.inl, fun seen => seen.resolve_right fun there => plain there.2⟩

theorem readF3_extTs {cs cs' : RtmpChunkStream} {buf rest : Bytes} {ret : Ret}
    (read : cs.readF3 buf = .ok (ret, cs', rest)) : cs'.extTs = cs.extTs := by
  obtain ⟨_, rfl⟩ | ⟨_, rfl, _⟩ | ⟨_, _, time, rfl⟩ := readF3_cases read <;> rfl

/-- Only a header of type 0, 1 or 2 sets the flag, and none clears it. -/
theorem readHeader_extTs {cs cs' : RtmpChunkStream} {fmt : UInt8} {buf rest : Bytes} {ret : Ret}
    (read : cs.readHeader fmt buf = .ok (ret, cs', rest)) :
    cs'.extTs = true ↔ cs.extTs = true ∨ cs.Sees fmt buf := by
  generalize same : (ret, cs', rest) = result at read
  cases readHeader_cases read with
  | past busy =>
      cases same
      have unseen : ¬ cs.Sees fmt buf := fun sees => busy sees.1.1
      simp only [unseen, or_false]
  | @full size assign idle format =>
      cases same
      have keeps : ∀ mh ts cs, (assign mh ts cs).extTs = cs.extTs := by
        cases format <;> exact fun _ _ _ => rfl
      have sees : cs.Sees fmt buf ↔
          size ≤ buf.length ∧ timeField (buf.take size) = 0xffffff := by
        simp only [Sees, AtHeader, idle, format.types, format.sized, true_and]
      exact (readFull_extTs keeps cs buf).trans (by rw [sees])
  | @repeated again idle format done =>
      obtain ⟨ret', cs₁, rest'⟩ := again
      cases same
      have unseen : ¬ cs.Sees fmt buf := by
        rintro ⟨⟨_, type⟩, _⟩
        rw [format] at type
        revert type
        decide
      simp only [unseen, or_false]
      exact Bool.eq_iff_iff.mp (readF3_extTs done)
  | unknown idle other =>
      cases same
      have unseen : ¬ cs.Sees fmt buf := fun sees =>
        sees.1.2.elim other.1 fun type => type.elim other.2.1 other.2.2.1
      simp only [unseen, or_false]

theorem readPayload_extTs {cs cs' : RtmpChunkStream} {n : UInt32} {buf rest : Bytes} {ret : Ret}
    (read : cs.readPayload n buf = .ok (ret, cs', rest)) : cs'.extTs = cs.extTs := by
  by_cases state : cs.state = .payload
  · cases left : cs.rem with
    | none =>
        simp only [readPayload, state, left, ne_eq, not_true_eq_false, if_false, reduceCtorEq] at read
    | some rem =>
        rw [readPayload_eq state left] at read
        split at read <;> cases read <;> rfl
  · simp only [readPayload, ne_eq, state, not_false_eq_true, if_true] at read
    cases read
    rfl

theorem readOn_extTs {cs cs' : RtmpChunkStream} {n : UInt32} {fmt : UInt8} {buf rest : Bytes}
    {ret : Ret} (read : cs.readOn n fmt buf = .ok (ret, cs', rest)) :
    cs'.extTs = true ↔ cs.extTs = true ∨ cs.Sees fmt buf := by
  obtain ⟨⟨ret₁, cs₁, rest₁⟩, header, read⟩ := bind_ok.mp read
  have noticed := readHeader_extTs header
  simp only at read
  split at read
  · cases read
    exact noticed
  · rwa [readPayload_extTs read]

theorem AtHeader.reads {cs : RtmpChunkStream} {fmt : UInt8} (front : cs.AtHeader fmt) (n : UInt32)
    (buf : Bytes) : ∃ read, cs.readOn n fmt buf = .ok read := by
  obtain ⟨idle, type⟩ := front
  obtain ⟨zero, one, two, _⟩ := readHeader_idle idle buf
  have header : ∃ size assign, FullFormat fmt size assign ∧
      cs.readHeader fmt buf = .ok (entered fmt (readFull size assign cs buf)) := by
    rcases type with rfl | rfl | rfl
    · exact ⟨_, _, .f0, zero⟩
    · exact ⟨_, _, .f1, one⟩
    · exact ⟨_, _, .f2, two⟩
  obtain ⟨size, assign, format, header⟩ := header
  have assigned : ∀ mh ts cs, ∃ rem, (assign mh ts cs).rem = some rem := by
    cases format <;> exact fun _ _ _ => ⟨_, rfl⟩
  unfold readOn
  rw [header]
  obtain ⟨_, time, ext, rest, read⟩ | ⟨_, ext, read⟩ := readFull_cases size assign cs buf
  · rw [read]
    obtain ⟨rem, left⟩ := assigned (buf.take size) time { cs with extTs := ext }
    have entering : (entered fmt (.ok, assign (buf.take size) time { cs with extTs := ext },
        rest)).2.1.state = .payload := rfl
    have payload := readPayload_eq entering left n rest
    simp only [bind, Except.bind, entered, ne_eq, not_true_eq_false, if_true, if_false] at payload ⊢
    rw [payload]
    split <;> exact ⟨_, rfl⟩
  · rw [read]
    exact ⟨_, rfl⟩

end RtmpChunkStream

namespace Heard

/-- The flag tells whether the last header was marked; and where it was not, a type 3 chunk neither
    waits for four bytes nor takes any. -/
structure Follows (h : Heard) (cs : RtmpChunkStream) : Prop where
  mode : cs.extTs = true ↔ h.mark = some true
  plain : h.mark = some false → ∀ buf ret cs' rest, cs.readF3 buf = .ok (ret, cs', rest) →
    ret = .ok ∧ rest = buf

/-- A header that is read to its end is marked if the last one was, and one whose mark is seen before
    its end follows a marked one. -/
def Suits (h : Heard) (cs : RtmpChunkStream) (fmt : UInt8) (buf : Bytes) : Prop :=
  if cs.Headed fmt buf then
    h.mark = some true →
      RtmpChunkStream.timeField (buf.take (RtmpChunkStream.headerSize fmt)) = 0xffffff
  else cs.Sees fmt buf → h.mark = some true

instance (h : Heard) (cs : RtmpChunkStream) (fmt : UInt8) (buf : Bytes) :
    Decidable (h.Suits cs fmt buf) := by
  unfold Suits
  infer_instance

/-- On a chunk stream without the flag, a type 3 header is no bytes long. -/
theorem follows_of_mode {h : Heard} {cs : RtmpChunkStream}
    (mode : cs.extTs = true ↔ h.mark = some true) : h.Follows cs where
  mode := mode
  plain ordinary buf ret cs' rest read := by
    have off : cs.extTs = false := by
      rw [Bool.eq_false_iff, ne_eq, mode, ordinary]
      decide
    unfold RtmpChunkStream.readF3 at read
    grind

theorem Suits.front {h : Heard} {cs : RtmpChunkStream} {fmt : UInt8} {buf : Bytes}
    (unsuited : ¬ h.Suits cs fmt buf) : cs.AtHeader fmt := by
  by_cases headed : cs.Headed fmt buf
  · exact headed.1
  · simp only [Suits, if_neg headed, Classical.not_imp] at unsuited
    exact unsuited.1.1

/-- Reading a chunk keeps the flag in agreement exactly when the chunk suits what was heard. -/
theorem mode_iff {h : Heard} {cs cs' : RtmpChunkStream} {n : UInt32} {fmt : UInt8}
    {buf rest : Bytes} {ret : Ret} (mode : cs.extTs = true ↔ h.mark = some true)
    (read : cs.readOn n fmt buf = .ok (ret, cs', rest)) :
    (cs'.extTs = true ↔ (h.note cs fmt buf).mark = some true) ↔ h.Suits cs fmt buf := by
  rw [RtmpChunkStream.readOn_extTs read, mode]
  unfold Suits note
  by_cases headed : cs.Headed fmt buf
  · have sees : cs.Sees fmt buf ↔ RtmpChunkStream.timeField
        (buf.take (RtmpChunkStream.headerSize fmt)) = 0xffffff := by
      simp only [RtmpChunkStream.Sees, headed.1, headed.2.1, true_and]
    simp only [if_pos headed, sees, Option.some.injEq, decide_eq_true_eq, or_iff_right_iff_imp]
  · simp only [if_neg headed, or_iff_left_iff_imp]

end Heard

/-- In every state of a run `ext_ts_` tells of every chunk stream whether its last header was marked,
    and no type 3 chunk after an ordinary one looks for a time, exactly when every header that the
    run reads suits the one before it. -/
theorem extended_mode_follows (recordForce : Bool) (labels : List Label) :
    (hearing recordForce).Always (Hears Heard.Follows) labels ↔
      (hearing recordForce).Steps (Reading Heard.Suits) labels := by
  have fresh : ∀ csid, Heard.Follows {} { csid } := fun csid => Heard.follows_of_mode (by simp)
  have clears : ∀ {h : Heard} {cs : RtmpChunkStream}, h.Follows cs → h.Follows cs.clear :=
    fun follows => Heard.follows_of_mode follows.mode
  refine Machine.always_iff (I := Hears Heard.Follows) ?_ (fun _ follows => follows) ?_ ?_
  · intro x csid cs found
    cases found
  · intro state l follows suits
    refine follows.step fresh clears recordForce ?_
    cases l with
    | parse x =>
        intro running parsing n ret cs' rest before read
        exact Heard.follows_of_mode ((Heard.mode_iff before.mode read).mpr (suits running parsing))
    | accept | receive | shake | dispatch | close => trivial
  · rintro ⟨host, heard⟩ l follows unsuited after
    cases l with
    | parse x =>
        simp only [Reading, Classical.not_imp] at unsuited
        obtain ⟨running, parsing, unsuited⟩ := unsuited
        have before := follows.basic fresh x (host.recvBuf x)
        have reads := (Heard.Suits.front unsuited).reads
          ((host.server.sessions x).readBasicHeader (host.recvBuf x)).1.maxChunkSize
          ((host.server.sessions x).readBasicHeader (host.recvBuf x)).2
        obtain ⟨⟨ret, s, rest⟩, read⟩ : ∃ result,
            (host.server.sessions x).readChunkStream (host.recvBuf x) = .ok result := by
          obtain ⟨read, done⟩ := reads
          rw [RtmpSession.readChunkStream_readOn _ parsing.2.2.2, done]
          exact ⟨_, rfl⟩
        obtain ⟨basic, buf, cs, split, body, memories, notes⟩ :=
          host.step_parse_read running parsing read
        simp only [split] at unsuited before
        change Hears Heard.Follows (host.step (.parse x), Host.hear heard host (.parse x)) at after
        have wrong := after x basic.csid cs
        simp only [memories, notes, if_true, Function.update_self] at wrong
        exact unsuited ((Heard.mode_iff before.mode body).mp (wrong trivial).mode)
    | accept | receive | shake | dispatch | close => exact unsuited trivial

/-- An acknowledgement with an extended time, and one with an ordinary time on the same chunk
    stream. -/
def mixedTimes : Bytes :=
  chunk 3 (.f0 0xffffff 4 3 0) [0, 0, 0, 0, 1, 2, 3, 4] ++ chunk 3 (.f0 0 4 3 0) [1, 2, 3, 4]

/-- After the second the chunk stream still expects extended times. -/
theorem extended_mode_stays : ¬ (hearing false).Always (Hears Heard.Follows)
    (Peer.greet 1 ++ [.receive 1 mixedTimes, .parse 1, .dispatch 1 Peer.env, .parse 1]) := by
  intro always
  have follows := always _ (List.prefix_refl _) 1 3
  have flag : ((((hearing false).run (Peer.greet 1 ++ [.receive 1 mixedTimes, .parse 1,
      .dispatch 1 Peer.env, .parse 1])).1.server.sessions 1).csIn 3).map (·.extTs) = some true := by
    decide +kernel
  have heard : (((hearing false).run (Peer.greet 1 ++ [.receive 1 mixedTimes, .parse 1,
      .dispatch 1 Peer.env, .parse 1])).2 1 3).mark = some false := by decide +kernel
  obtain ⟨cs, found, on⟩ := Option.map_eq_some_iff.mp flag
  have marked := (follows cs found).mode.mp on
  cases heard.symm.trans marked

end DroneServer
