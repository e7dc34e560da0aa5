import DroneServer.Rtmp.Heard
import DroneServer.Rtmp.Peer

/-! # Fields that were received

A chunk stream is made by whatever chunk comes first, and after an Abort message
once more. `Tells` relates its memory to what was heard since, in every reachable
state. So what is read or handed over without having been received is what a first
chunk of type 1, 2 or 3 leaves out.
-/

namespace DroneServer

namespace Heard

open RtmpChunkStream

/-- What was heard is in the memory; `rem_` and `fmt_` are assigned once a header was, and a header of
    type 0 tells everything. -/
structure Tells (h : Heard) (cs : RtmpChunkStream) : Prop where
  type : ∀ t, h.type = some t → cs.type = t
  len : ∀ n, h.len = some n → cs.len = n
  streamId : ∀ id, h.streamId = some id → cs.streamId = id
  begun : h.mark.isSome → cs.rem.isSome ∧ cs.fmt.isSome
  unbegun : h.mark = none → cs.state = .header ∧ cs.rem = none
  whole : h.streamId.isSome → h.type.isSome ∧ h.len.isSome

theorem tells_fresh (csid : UInt16) : Tells {} { csid } where
  type _ told := by cases told
  len _ told := by cases told
  streamId _ told := by cases told
  begun told := by cases told
  unbegun _ := ⟨rfl, rfl⟩
  whole told := by cases told

namespace Tells

variable {h : Heard} {cs cs' : RtmpChunkStream} {fmt : UInt8} {buf rest : Bytes} {ret : Ret}

theorem clear (tells : h.Tells cs) : h.Tells cs.clear where
  type := tells.type
  len := tells.len
  streamId := tells.streamId
  begun := tells.begun
  unbegun nothing := ⟨rfl, (tells.unbegun nothing).2⟩
  whole := tells.whole

theorem past (tells : h.Tells cs) (busy : cs.state ≠ .header) : h.mark.isSome := by
  cases heard : h.mark with
  | none => exact absurd (tells.unbegun heard).1 busy
  | some mark => rfl

theorem assigned (tells : h.Tells cs) : cs.rem = none ↔ h.mark = none := by
  constructor
  · intro unassigned
    cases heard : h.mark with
    | none => rfl
    | some mark =>
        have there := (tells.begun (by rw [heard]; rfl)).1
        rw [unassigned] at there
        cases there
  · exact fun heard => (tells.unbegun heard).2

theorem headed {size : Nat} {assign : Bytes → UInt32 → RtmpChunkStream → RtmpChunkStream}
    (tells : h.Tells cs) (idle : cs.state = .header) (format : FullFormat fmt size assign)
    (complete : HeaderComplete size buf) (time : UInt32) (ext : Bool) (rest : Bytes) :
    (h.note cs fmt buf).Tells
      (entered fmt (.ok, assign (buf.take size) time { cs with extTs := ext }, rest)).2.1 := by
  have headed : cs.Headed fmt buf := ⟨⟨idle, format.types⟩, format.sized ▸ complete⟩
  rw [note, if_pos headed, format.sized]
  cases format with
  | f0 =>
      exact {
        type := fun t told => Option.some.inj told
        len := fun n told => Option.some.inj told
        streamId := fun id told => Option.some.inj told
        begun := fun _ => ⟨rfl, rfl⟩
        unbegun := fun nothing => by cases nothing
        whole := fun _ => ⟨rfl, rfl⟩ }
  | f1 =>
      exact {
        type := fun t told => Option.some.inj told
        len := fun n told => Option.some.inj told
        streamId := tells.streamId
        begun := fun _ => ⟨rfl, rfl⟩
        unbegun := fun nothing => by cases nothing
        whole := fun _ => ⟨rfl, rfl⟩ }
  | f2 =>
      exact {
        type := tells.type
        len := tells.len
        streamId := tells.streamId
        begun := fun _ => ⟨rfl, rfl⟩
        unbegun := fun nothing => by cases nothing
        whole := tells.whole }

theorem kept (tells : h.Tells cs) (heard : h.mark.isSome) (type : cs'.type = cs.type)
    (len : cs'.len = cs.len) (streamId : cs'.streamId = cs.streamId) (rem : cs'.rem.isSome)
    (fmt : cs'.fmt.isSome) : h.Tells cs' where
  type t told := type.trans (tells.type t told)
  len n told := len.trans (tells.len n told)
  streamId id told := streamId.trans (tells.streamId id told)
  begun _ := ⟨rem, fmt⟩
  unbegun nothing := by rw [nothing] at heard; cases heard
  whole := tells.whole

theorem relabel (tells : h.Tells cs) (extTs : Bool) (fmt : UInt8) :
    h.Tells { cs with extTs, fmt := some fmt } where
  type := tells.type
  len := tells.len
  streamId := tells.streamId
  begun heard := ⟨(tells.begun heard).1, rfl⟩
  unbegun := tells.unbegun
  whole := tells.whole

theorem readHeader (tells : h.Tells cs) (read : cs.readHeader fmt buf = .ok (ret, cs', rest)) :
    (h.note cs fmt buf).Tells cs' := by
  generalize same : (ret, cs', rest) = result at read
  cases readHeader_cases read with
  | past busy =>
      cases same
      rwa [h.note_same fun headed => busy headed.1.1]
  | @full size assign idle format =>
      cases same
      obtain ⟨complete, time, ext, rest, done⟩ | ⟨incomplete, ext, done⟩ :=
        readFull_cases size assign cs buf
      · rw [done]
        exact tells.headed idle format complete time ext rest
      · rw [done, h.note_same fun headed => incomplete (format.sized ▸ headed.2)]
        exact tells.relabel ext fmt
  | @repeated again idle format done =>
      obtain ⟨ret', cs₁, rest'⟩ := again
      cases same
      have other : ¬ cs.Headed fmt buf := by
        rintro ⟨⟨_, type⟩, _⟩
        rw [format] at type
        revert type
        decide
      have there : cs.rem ≠ none := by
        intro unassigned
        simp only [readF3, unassigned, reduceCtorEq] at done
      have heard : h.mark.isSome := Option.isSome_iff_ne_none.mpr (mt tells.assigned.mpr there)
      rw [h.note_same other]
      obtain ⟨_, rfl⟩ | ⟨_, rfl, _⟩ | ⟨_, _, time, rfl⟩ := readF3_cases done
      · exact tells.kept heard rfl rfl rfl (Option.isSome_iff_ne_none.mpr there) rfl
      · exact tells.kept heard rfl rfl rfl (Option.isSome_iff_ne_none.mpr there) rfl
      · exact tells.kept heard rfl rfl rfl rfl rfl
  | unknown idle other =>
      cases same
      rw [h.note_same fun headed => headed.1.2.elim other.1 fun type =>
        type.elim other.2.1 other.2.2.1]
      exact tells.relabel cs.extTs fmt

theorem readPayload {n : UInt32} (tells : h.Tells cs)
    (read : cs.readPayload n buf = .ok (ret, cs', rest)) : h.Tells cs' := by
  by_cases state : cs.state = .payload
  · have heard := tells.past (by rw [state]; decide)
    obtain ⟨assigned, known⟩ := tells.begun heard
    obtain ⟨rem, left⟩ := Option.isSome_iff_exists.mp assigned
    rw [readPayload_eq state left] at read
    split at read <;> cases read
    · exact tells
    · exact tells.kept heard rfl rfl rfl rfl known
  · simp only [RtmpChunkStream.readPayload, ne_eq, state, not_false_eq_true, if_true] at read
    cases read
    exact tells

theorem readOn {n : UInt32} (tells : h.Tells cs)
    (read : cs.readOn n fmt buf = .ok (ret, cs', rest)) : (h.note cs fmt buf).Tells cs' := by
  obtain ⟨⟨ret₁, cs₁, rest₁⟩, header, read⟩ := bind_ok.mp read
  have entered := tells.readHeader header
  simp only at read
  split at read
  · cases read
    exact entered
  · exact entered.readPayload read

theorem header_reads (tells : h.Tells cs) (heard : h.mark.isSome) :
    ∃ read, cs.readHeader fmt buf = .ok read := by
  by_cases idle : cs.state = .header
  · obtain ⟨zero, one, two, three⟩ := readHeader_idle idle buf
    by_cases is0 : fmt = 0
    · exact ⟨_, is0 ▸ zero⟩
    by_cases is1 : fmt = 1
    · exact ⟨_, is1 ▸ one⟩
    by_cases is2 : fmt = 2
    · exact ⟨_, is2 ▸ two⟩
    by_cases is3 : fmt = 3
    · subst is3
      obtain ⟨assigned, known⟩ := tells.begun heard
      obtain ⟨rem, left⟩ := Option.isSome_iff_exists.mp assigned
      obtain ⟨last, format⟩ := Option.isSome_iff_exists.mp known
      have repeated : ∃ read, cs.readF3 buf = .ok read := by
        unfold readF3
        simp only [left, format]
        split
        · split
          · split
            · split <;> exact ⟨_, rfl⟩
            · exact ⟨_, rfl⟩
          split
          · split
            · split <;> exact ⟨_, rfl⟩
            · exact ⟨_, rfl⟩
          · exact ⟨_, rfl⟩
        split
        · split <;> exact ⟨_, rfl⟩
        · exact ⟨_, rfl⟩
      obtain ⟨read, done⟩ := repeated
      exact ⟨_, by rw [three, done]; rfl⟩
    · exact ⟨_, readHeader_other idle ⟨is0, is1, is2, is3⟩ buf⟩
  · refine ⟨(.ok, cs, buf), ?_⟩
    simp only [RtmpChunkStream.readHeader, ne_eq, idle, not_false_eq_true, if_true, pure_ok]

/-- An unassigned member is read exactly by a chunk of type 3 before any header. -/
theorem fault_iff (tells : h.Tells cs) (n : UInt32) (fmt : UInt8) (buf : Bytes) :
    cs.readOn n fmt buf = .error .uninitialised ↔
      cs.state = .header ∧ fmt = 3 ∧ h.mark = none := by
  constructor
  · intro fault
    unfold RtmpChunkStream.readOn at fault
    cases header : cs.readHeader fmt buf with
    | error f =>
        have nothing : h.mark = none := by
          by_contra heard
          obtain ⟨read, done⟩ := tells.header_reads (Option.isSome_iff_ne_none.mpr heard)
          cases header.symm.trans done
        have idle := (tells.unbegun nothing).1
        refine ⟨idle, ?_, nothing⟩
        obtain ⟨zero, one, two, _⟩ := readHeader_idle idle buf
        by_contra is3
        have other : fmt ≠ 0 ∧ fmt ≠ 1 ∧ fmt ≠ 2 ∧ fmt ≠ 3 := by
          refine ⟨?_, ?_, ?_, is3⟩ <;> rintro rfl
          · cases header.symm.trans zero
          · cases header.symm.trans one
          · cases header.symm.trans two
        cases header.symm.trans (readHeader_other idle other buf)
    | ok result =>
        obtain ⟨ret, cs₁, rest₁⟩ := result
        have entered := tells.readHeader header
        have payload : ∃ read, cs₁.readPayload n rest₁ = .ok read := by
          by_cases state : cs₁.state = .payload
          · have heard := entered.past (by rw [state]; decide)
            obtain ⟨rem, left⟩ := Option.isSome_iff_exists.mp (entered.begun heard).1
            rw [readPayload_eq state left]
            split <;> exact ⟨_, rfl⟩
          · refine ⟨(.ok, cs₁, rest₁), ?_⟩
            simp only [RtmpChunkStream.readPayload, ne_eq, state, not_false_eq_true, if_true]
        obtain ⟨read, done⟩ := payload
        by_cases waits : ret = .ok
        · simp [header, waits, done, bind, Except.bind] at fault
        · simp [header, waits, bind, Except.bind, pure, Except.pure] at fault
  · rintro ⟨idle, rfl, nothing⟩
    have repeated : cs.readF3 buf = .error .uninitialised := by
      simp only [readF3, tells.assigned.mpr nothing]
    rw [RtmpChunkStream.readOn, (readHeader_idle idle buf).2.2.2, repeated]
    rfl

end Tells

end Heard

/-- The step reads no member that is not assigned, and hands over a message only with a type, a
    length and a stream that were received. -/
def FieldsReceived (state : Host × Hearing) : Label → Prop
  | .parse x => state.1.server.crashed = none → state.1.Parsing x →
      (state.1.server.sessions x).readChunkStream (state.1.recvBuf x) ≠ .error .uninitialised
  | .dispatch x _ => state.1.server.crashed = none → state.1.Ready x →
      let s := state.1.server.sessions x
      let h := state.2 x s.csid
      h.type = some s.current.type ∧ h.len = some s.current.len ∧
        h.streamId = some s.current.streamId
  | .accept _ | .receive _ _ | .shake _ _ | .close _ => True

/-- A chunk of type 3 comes after a header on its chunk stream, and a message is complete after one of
    type 0, both since the chunk stream was made. -/
def Introduced (state : Host × Hearing) : Label → Prop
  | .parse x => Reading (fun h cs fmt _ => cs.state = .header → fmt = 3 → h.mark.isSome) state
      (.parse x)
  | .dispatch x _ => state.1.server.crashed = none → state.1.Ready x →
      (state.2 x (state.1.server.sessions x).csid).streamId.isSome
  | .accept _ | .receive _ _ | .shake _ _ | .close _ => True

/-- In every reachable state the memories hold what was heard. -/
theorem hears_tells {recordForce : Bool} {state : Host × Hearing}
    (reached : (hearing recordForce).Reachable state) : Hears Heard.Tells state := by
  refine reached.invariant ?_ fun state l tells => ?_
  · intro x csid cs found
    cases found
  · refine tells.step Heard.tells_fresh (fun tells => tells.clear) recordForce ?_
    cases l with
    | parse x => exact fun _ _ n ret cs' rest tells read => tells.readOn read
    | accept | receive | shake | dispatch | close => trivial

/-- So past a header `read_payload` finds `rem_` assigned, whatever the peer sent. -/
theorem payload_assigned {recordForce : Bool} {host : Host}
    (reached : (machine recordForce).Reachable host) {x : SessionId} {csid : UInt16}
    {cs : RtmpChunkStream} (found : (host.server.sessions x).csIn csid = some cs)
    (past : cs.state = .payload) : cs.rem.isSome := by
  obtain ⟨labels, rfl⟩ := reached
  have tells := hears_tells (.run (hearing recordForce) labels) x csid cs
  rw [hearing, Machine.noting_run] at tells
  exact ((tells found).begun ((tells found).past (by rw [past]; decide))).1

/-- Whether a step takes only what was received is seen before it is taken. -/
theorem received_iff {state : Host × Hearing} (tells : Hears Heard.Tells state) (l : Label) :
    FieldsReceived state l ↔ Introduced state l := by
  obtain ⟨host, heard⟩ := state
  cases l with
  | parse x =>
      refine forall_congr' fun running => forall_congr' fun parsing => ?_
      have before := tells.basic Heard.tells_fresh x (host.recvBuf x)
      have through := (host.server.sessions x).readChunkStream_readOn parsing.2.2.2
      change (host.server.sessions x).readChunkStream (host.recvBuf x) ≠ _ ↔ _
      rw [through]
      generalize (host.server.sessions x).readBasicHeader (host.recvBuf x) = front at before ⊢
      obtain ⟨basic, buf⟩ := front
      have fault := before.fault_iff basic.maxChunkSize basic.fmt buf
      have mapped : (basic.current.readOn basic.maxChunkSize basic.fmt buf).map basic.afterPayload =
          .error .uninitialised ↔
            basic.current.readOn basic.maxChunkSize basic.fmt buf = .error .uninitialised := by
        cases basic.current.readOn basic.maxChunkSize basic.fmt buf with
        | error f => simp [Except.map]
        | ok read => simp [Except.map]
      rw [ne_eq, mapped, fault]
      simp only [Option.isSome_iff_ne_none]
      tauto
  | dispatch x env =>
      refine forall_congr' fun running => forall_congr' fun ready => ?_
      obtain ⟨cs, found⟩ := Option.isSome_iff_exists.mp (RtmpSession.current_present ready.2.2)
      have here : (host.server.sessions x).current = cs := by
        rw [RtmpSession.current, found, Option.getD_some]
      have tells := tells x _ cs found
      simp only [here]
      constructor
      · rintro ⟨_, _, told⟩
        rw [told]
        rfl
      · intro introduced
        obtain ⟨typed, measured⟩ := tells.whole introduced
        obtain ⟨t, type⟩ := Option.isSome_iff_exists.mp typed
        obtain ⟨n, len⟩ := Option.isSome_iff_exists.mp measured
        obtain ⟨id, streamId⟩ := Option.isSome_iff_exists.mp introduced
        rw [tells.type t type, tells.len n len, tells.streamId id streamId]
        exact ⟨type, len, streamId⟩
  | accept | receive | shake | close => exact Iff.rfl

/-- In a run every chunk is read and every message handed over with what was received since the chunk
    stream was made, exactly when type 3 chunks come after a header on their chunk stream and
    messages are complete only after a type 0 header. -/
theorem fields_received_iff (recordForce : Bool) (labels : List Label) :
    (hearing recordForce).Steps FieldsReceived labels ↔
      (hearing recordForce).Steps Introduced labels := by
  constructor
  · exact Machine.Steps.mono fun state l reached => (received_iff (hears_tells reached) l).mp
  · exact Machine.Steps.mono fun state l reached => (received_iff (hears_tells reached) l).mpr

/-- A first chunk of type 3 is read with an unassigned member, and one of type 1 makes a message whose
    stream nobody named. -/
theorem first_chunk_unreceived :
    ¬ (hearing false).Steps FieldsReceived
        (Peer.greet 1 ++ [.receive 1 (chunk 3 .f3 [0]), .parse 1]) ∧
      ¬ (hearing false).Steps FieldsReceived
        (Peer.greet 1 ++ [.receive 1 (chunk 3 (.f1 0 4 3) [0, 0, 0, 0]), .parse 1,
          .dispatch 1 Peer.env]) := by
  constructor
  · intro steps
    have read := steps (Peer.greet 1 ++ [.receive 1 (chunk 3 .f3 [0])]) (.parse 1)
      (by rw [List.append_assoc]; exact List.prefix_refl _) (by decide +kernel) (by decide +kernel)
    have fault : ((((hearing false).run (Peer.greet 1 ++
        [.receive 1 (chunk 3 .f3 [0])])).1.server.sessions 1).readChunkStream
          (((hearing false).run (Peer.greet 1 ++ [.receive 1 (chunk 3 .f3 [0])])).1.recvBuf 1)).map
            (fun _ => ()) = .error .uninitialised := by
      decide +kernel
    revert read fault
    generalize RtmpSession.readChunkStream _ _ = read
    cases read with
    | error f => exact fun read fault => read (congrArg Except.error (Except.error.inj fault))
    | ok result => exact fun _ fault => by cases fault
  · intro steps
    have told := steps (Peer.greet 1 ++ [.receive 1 (chunk 3 (.f1 0 4 3) [0, 0, 0, 0]), .parse 1])
      (.dispatch 1 Peer.env) (by rw [List.append_assoc]; exact List.prefix_refl _)
      (by decide +kernel) (by decide +kernel)
    have untold : (((hearing false).run (Peer.greet 1 ++
        [.receive 1 (chunk 3 (.f1 0 4 3) [0, 0, 0, 0]), .parse 1])).2 1 3).streamId = none := by
      decide +kernel
    have csid : (((hearing false).run (Peer.greet 1 ++
        [.receive 1 (chunk 3 (.f1 0 4 3) [0, 0, 0, 0]), .parse 1])).1.server.sessions 1).csid =
          3 := by
      decide +kernel
    simp only [csid, untold] at told
    cases told.2.2

end DroneServer
