import DroneServer.Rtmp.Control
import DroneServer.Rtmp.Heard

/-! # What an Abort message takes with it

An Abort message erases the chunk stream whose id are the low sixteen bits of the
one it names. Every chunk stream that exists was told something by its last chunk,
if only the format, and that is lost with it; and the chunk stream the message came
on is cleared afterwards, whether it is still there or not. So only a message that
names no chunk stream does what it should.
-/

namespace DroneServer

/-- The message that the chunk stream was collecting is given up. What its headers said is kept, and
    the next chunk starts a message. -/
structure RtmpChunkStream.Abandoned (cs cs' : RtmpChunkStream) : Prop where
  data : cs'.data = []
  starts : cs'.state = .header ∧ cs'.rem = some 0
  headers : (cs'.time, cs'.dtime, cs'.len, cs'.streamId, cs'.type, cs'.extTs, cs'.fmt) =
    (cs.time, cs.dtime, cs.len, cs.streamId, cs.type, cs.extTs, cs.fmt)

namespace RtmpSession

/-- The complete message is an Abort message that names the chunk stream `id`. -/
def HoldsAbort (s : RtmpSession) (id : UInt32) : Prop :=
  s.current.type = 2 ∧ s.current.streamId = 0 ∧ s.current.data = Endian.toBE32 id

instance (s : RtmpSession) (id : UInt32) : Decidable (s.HoldsAbort id) :=
  inferInstanceAs (Decidable (_ ∧ _ ∧ _))

/-- Handling the message returns, gives up the message of the chunk stream it names, and touches no
    other chunk stream but the one it came on. -/
def DiscardsOnly (s : RtmpSession) (id : UInt32) : Prop :=
  ∃ s', s.handleControlMessage = .ok s' ∧
    (∀ csid cs, csid.toUInt32 = id → s.csIn csid = some cs → cs.Abandoned (s'.memory csid)) ∧
    ∀ csid, csid.toUInt32 ≠ id → csid ≠ s.csid → s'.csIn csid = s.csIn csid

/-- Every chunk stream that exists has seen the format of a chunk. -/
def Formatted (s : RtmpSession) : Prop := ∀ csid cs, s.csIn csid = some cs → cs.fmt.isSome

theorem wordAt_toBE32 (n : UInt32) : wordAt (Endian.toBE32 n) 0 = .ok n := by
  rw [wordAt, if_pos (by rw [Endian.toBE32_length])]
  exact congrArg Except.ok (Endian.be32_toBE32 n)

/-- The memory of an Abort message's chunk stream is erased, if it is not the message's own. -/
theorem HoldsAbort.handled {s s' : RtmpSession} {id : UInt32} (holds : s.HoldsAbort id)
    (done : s.handleControlMessage = .ok s') :
    id.toUInt16 ≠ s.csid ∧ s'.csIn id.toUInt16 = none := by
  obtain ⟨s₁, body, clearing⟩ := bind_ok.mp done
  obtain ⟨cs, present, rfl⟩ := clearCurrent_ok clearing
  obtain ⟨type, _⟩ | ⟨_, named, read, rfl⟩ | ⟨_, other, _⟩ := controlBody_ok body
  · rw [holds.1] at type
    cases type
  · rw [holds.2.2, wordAt_toBE32] at read
    cases read
    have apart : id.toUInt16 ≠ s.csid := by
      intro own
      simp only [own, Function.update_self, reduceCtorEq] at present
    refine ⟨apart, ?_⟩
    simp only [setCurrent, Function.update_of_ne apart, Function.update_self]
  · exact absurd holds.1 other

theorem HoldsAbort.returns {s : RtmpSession} {id : UInt32} (holds : s.HoldsAbort id)
    (unnamed : s.csIn id.toUInt16 = none) :
    ∃ s', s.handleControlMessage = .ok s' ∧ ∀ csid ≠ s.csid, s'.csIn csid = s.csIn csid := by
  obtain ⟨cs, present⟩ : ∃ cs, s.csIn s.csid = some cs := by
    rw [← Option.ne_none_iff_exists']
    intro absent
    have type := holds.1
    rw [current, absent] at type
    cases type
  have same : Function.update s.csIn id.toUInt16 none = s.csIn := by
    rw [← unnamed, Function.update_eq_self]
  have body : s.controlBody = .ok s := by
    simp only [controlBody, holds.1, holds.2.2, wordAt_toBE32]
    exact congrArg (fun csIn => Except.ok { s with csIn }) same
  refine ⟨s.setCurrent cs.clear, ?_, fun csid other => Function.update_of_ne other _ _⟩
  rw [handleControlMessage, body]
  change s.clearCurrent = _
  rw [clearCurrent, present]

theorem discardsOnly_iff {s : RtmpSession} (formatted : s.Formatted) {id : UInt32}
    (holds : s.HoldsAbort id) : s.DiscardsOnly id ↔ s.csIn id.toUInt16 = none := by
  constructor
  · rintro ⟨s', done, given_up, others⟩
    by_contra named
    obtain ⟨cs, there⟩ := Option.ne_none_iff_exists'.mp named
    obtain ⟨apart, gone⟩ := holds.handled done
    by_cases whole : id.toUInt16.toUInt32 = id
    · have headers := (given_up _ cs whole there).headers
      have known := formatted _ cs there
      rw [memory, gone] at headers
      simp only [Option.getD_none, Prod.mk.injEq] at headers
      rw [← headers.2.2.2.2.2.2] at known
      cases known
    · have kept := others _ whole apart
      rw [gone, there] at kept
      cases kept
  · intro unnamed
    obtain ⟨s', done, others⟩ := holds.returns unnamed
    refine ⟨s', done, fun csid cs same there => ?_, fun csid _ other => others csid other⟩
    have low : csid = id.toUInt16 := by
      rw [← same]
      exact (UInt16.toUInt16_toUInt32 csid).symm
    rw [low, unnamed] at there
    cases there

end RtmpSession

namespace RtmpChunkStream

/-- Whatever becomes of a chunk, its format is stored. -/
theorem readOn_formatted {cs cs' : RtmpChunkStream} {n : UInt32} {fmt : UInt8} {buf rest : Bytes}
    {ret : Ret} (told : cs.state ≠ .header → cs.fmt.isSome)
    (read : cs.readOn n fmt buf = .ok (ret, cs', rest)) : cs'.fmt.isSome := by
  obtain ⟨⟨ret₁, cs₁, rest₁⟩, header, read⟩ := bind_ok.mp read
  have named : cs₁.fmt.isSome := by
    generalize same : (ret₁, cs₁, rest₁) = result at header
    cases readHeader_cases header with
    | past busy =>
        cases same
        exact told busy
    | full | repeated | unknown =>
        unfold entered at same
        cases same
        split <;> rfl
  simp only at read
  split at read
  · cases read
    exact named
  · by_cases state : cs₁.state = .payload
    · cases left : cs₁.rem with
      | none => simp only [readPayload, state, left, ne_eq, not_true_eq_false, if_false,
          reduceCtorEq] at read
      | some rem =>
          rw [readPayload_eq state left] at read
          split at read <;> cases read <;> exact named
    · simp only [readPayload, ne_eq, state, not_false_eq_true, if_true] at read
      cases read
      exact named

end RtmpChunkStream

namespace Host

theorem formatted {recordForce : Bool} {host : Host} (reached : (machine recordForce).Reachable host)
    (x : SessionId) : (host.server.sessions x).Formatted := by
  refine reached.invariant (P := fun host => ∀ x, (host.server.sessions x).Formatted) ?_
    (fun host l known y csid cs' found => ?_) x
  · intro x csid cs found
    cases found
  · obtain view | ⟨x, ret, s, rest, rfl, running, parsing, read⟩ | ⟨x, env, rfl, ready, done⟩ :=
      host.step_view l
    · have same : ((host.step l).server.sessions y).csIn = (host.server.sessions y).csIn :=
        congrArg (fun v : View => (v.decoders y).csIn) view
      exact known y csid cs' (same ▸ found)
    · obtain ⟨basic, buf, cs, split, body, memories, _⟩ :=
        host.step_parse_read running parsing read
      change ((host.step (.parse x)).server.sessions y).csIn csid = some cs' at found
      rw [memories] at found
      by_cases self : y = x
      · subst self
        rw [if_pos rfl] at found
        by_cases here : csid = basic.csid
        · subst here
          rw [Function.update_self] at found
          cases found
          refine RtmpChunkStream.readOn_formatted (fun busy => ?_) body
          have memories := ((host.server.sessions y).readBasicHeader_read (host.recvBuf y)).2
          rw [split] at memories
          unfold RtmpSession.current at busy ⊢
          cases there : basic.csIn basic.csid with
          | none =>
              rw [there] at busy
              exact absurd rfl busy
          | some cs =>
              rw [memories] at there
              exact known y _ cs there
        · rw [Function.update_of_ne here] at found
          exact known y csid cs' found
      · rw [if_neg self] at found
        exact known y csid cs' found
    · change ((host.step (.dispatch x env)).server.sessions y).csIn csid = some cs' at found
      rw [done] at found
      obtain ⟨cs, old, rfl | rfl⟩ := Server.dispatch_memories found
      · exact known y csid _ old
      · exact known y csid cs old

theorem Calls.formatted {recordForce : Bool} {host : Host}
    (reached : (machine recordForce).Reachable host) {x : SessionId} {s : RtmpSession}
    (calls : host.Calls x s) : s.Formatted := by
  have csIn : s.csIn = (host.server.sessions x).csIn := congrArg (·.csIn) calls.decoder
  intro csid cs found
  exact host.formatted reached x csid cs (csIn ▸ found)

/-- The Abort message that the step handles, if it handles one, gives up the message it should and
    nothing else. -/
def AbortDiscards (host : Host) : Label → Prop
  | .dispatch x _ => ∀ s id, host.Calls x s → s.HoldsAbort id → s.DiscardsOnly id
  | .accept _ | .receive _ _ | .shake _ _ | .parse _ | .close _ => True

/-- The low sixteen bits of the id it names are those of no chunk stream. -/
def AbortNamesNone (host : Host) : Label → Prop
  | .dispatch x _ => ∀ s id, host.Calls x s → s.HoldsAbort id → s.csIn id.toUInt16 = none
  | .accept _ | .receive _ _ | .shake _ _ | .parse _ | .close _ => True

end Host

/-- In a run every Abort message gives up one partial message and nothing else, exactly when none
    names a chunk stream that exists, by the low sixteen bits of its id. -/
theorem abort_discards_iff (recordForce : Bool) (labels : List Label) :
    (machine recordForce).Steps Host.AbortDiscards labels ↔
      (machine recordForce).Steps Host.AbortNamesNone labels := by
  have same : ∀ host l, (machine recordForce).Reachable host →
      (host.AbortDiscards l ↔ host.AbortNamesNone l) := by
    intro host l reached
    cases l with
    | dispatch x env =>
        exact forall_congr' fun s => forall_congr' fun id => forall_congr' fun calls =>
          forall_congr' fun holds => RtmpSession.discardsOnly_iff (calls.formatted reached) holds
    | accept | receive | shake | parse | close => exact Iff.rfl
  exact ⟨Machine.Steps.mono fun host l reached => (same host l reached).mp,
    Machine.Steps.mono fun host l reached => (same host l reached).mpr⟩

/-- An Abort message on chunk stream 2. -/
def Peer.abort (id : UInt32) : Bytes := Peer.message 2 2 0 (Endian.toBE32 id)

/-- The first chunk of a message of 200 bytes on chunk stream 5, and an Abort message. -/
def abortedMessage (id : UInt32) : List Label :=
  Peer.greet 1 ++ [.receive 1 (chunk 5 (.f0 0 200 8 1) (List.replicate 128 0) ++ Peer.abort id),
    .parse 1, .parse 1]

private theorem aborted_wrongly {id : UInt32} (facts :
    ((machine false).run (abortedMessage id)).server.crashed = none ∧
      ((machine false).run (abortedMessage id)).Ready 1 ∧ ∃ s,
        (((machine false).run (abortedMessage id)).server.sessions 1).acknowledge = .ok s ∧
          s.HoldsAbort id ∧ (s.csIn id.toUInt16).isSome) :
    ¬ (machine false).Steps Host.AbortDiscards (abortedMessage id ++ [.dispatch 1 Peer.env]) := by
  intro steps
  have discards := steps (abortedMessage id) (.dispatch 1 Peer.env) (List.prefix_refl _)
  obtain ⟨running, ready, s, counted, holds, named⟩ := facts
  have calls : ((machine false).run (abortedMessage id)).Calls 1 s := ⟨running, ready, counted⟩
  have unnamed := (RtmpSession.discardsOnly_iff (calls.formatted (.run _ _)) holds).mp
    (discards s id calls holds)
  rw [unnamed] at named
  cases named

set_option maxRecDepth 4000 in
/-- Whether the message names the chunk stream of the partial message, one whose id ends in the same
    sixteen bits, or the one it came on: it does not do what it should. -/
theorem abort_discards_more :
    ¬ (machine false).Steps Host.AbortDiscards (abortedMessage 5 ++ [.dispatch 1 Peer.env]) ∧
    ¬ (machine false).Steps Host.AbortDiscards
      (abortedMessage (65536 + 5) ++ [.dispatch 1 Peer.env]) ∧
    ¬ (machine false).Steps Host.AbortDiscards (abortedMessage 2 ++ [.dispatch 1 Peer.env]) :=
  ⟨aborted_wrongly (by decide +kernel), aborted_wrongly (by decide +kernel),
    aborted_wrongly (by decide +kernel)⟩

end DroneServer
