import DroneServer.Rtmp.Peer
import DroneServer.Rtmp.View

/-! # What a control message reads

`handle_control_message` takes what it needs from the front of the payload through
a raw pointer and never looks at the length. `controlSize` is how far it reads, so
a message is handled safely exactly when its payload is that long.
-/

namespace DroneServer

namespace RtmpSession

/-- The complete message is a protocol control message. -/
def HoldsControl (s : RtmpSession) : Prop := s.current.type < 7 ∧ s.current.streamId = 0

instance (s : RtmpSession) : Decidable s.HoldsControl := inferInstanceAs (Decidable (_ ∧ _))

/-- The event type of a user control message. -/
def eventType (data : Bytes) : Nat := (data.getD 0 0).toNat * 256 + (data.getD 1 0).toNat

/-- How many bytes of payload a user control message needs: the event type, and the fields of the two
    events that are read on. -/
def eventSize (data : Bytes) : Nat :=
  if eventType data = 3 then 10 else if eventType data = 7 then 6 else 2

/-- How many bytes of payload a control message of a type needs. -/
def controlSize (type : UInt8) (data : Bytes) : Nat :=
  if type = 1 ∨ type = 2 ∨ type = 3 ∨ type = 5 then 4
  else if type = 4 then eventSize data
  else if type = 6 then 5
  else 0

/-- No byte outside the payload is read, and a payload that is too short for its type changes nothing
    but that its message is done with. -/
def ControlSafe (s : RtmpSession) : Prop :=
  s.handleControlMessage ≠ .error .outOfBounds ∧
    (s.current.data.length < controlSize s.current.type s.current.data →
      ∃ s', s.handleControlMessage = .ok s' ∧ s'.maxChunkSize = s.maxChunkSize ∧
        s'.windowSize = s.windowSize ∧ s'.peerBandwidth = s.peerBandwidth ∧
        s'.peerBandwidthType = s.peerBandwidthType ∧
        s'.csIn = Function.update s.csIn s.csid (some s.current.clear))

theorem wordAt_enough {data : Bytes} {i : Nat} (enough : i + 4 ≤ data.length) :
    ∃ word, wordAt data i = .ok word := ⟨_, if_pos enough⟩

theorem wordAt_short {data : Bytes} {i : Nat} (short : data.length < i + 4) :
    wordAt data i = .error .outOfBounds := if_neg (Nat.not_le.mpr short)

theorem eventSize_two (data : Bytes) : 2 ≤ eventSize data := by
  unfold eventSize
  split
  · decide
  split <;> decide

theorem readUserControl_enough {data : Bytes} (enough : eventSize data ≤ data.length) :
    readUserControl data = .ok () := by
  have two := (eventSize_two data).trans enough
  have begun : ¬ data.length < 2 := Nat.not_lt.mpr two
  unfold eventSize eventType at enough
  simp only [readUserControl, if_neg begun]
  split
  · next buffer =>
      rw [if_pos buffer] at enough
      obtain ⟨_, first⟩ := wordAt_enough (i := 2) (Nat.le_trans (by decide) enough)
      obtain ⟨_, second⟩ := wordAt_enough (i := 6) (Nat.le_trans (by decide) enough)
      rw [first, second]
      rfl
  split
  · next other pong =>
      rw [if_neg other, if_pos pong] at enough
      obtain ⟨_, stamp⟩ := wordAt_enough (i := 2) (Nat.le_trans (by decide) enough)
      rw [stamp]
      rfl
  · rfl

theorem readUserControl_short {data : Bytes} (short : data.length < eventSize data) :
    readUserControl data = .error .outOfBounds := by
  unfold readUserControl
  split
  · rfl
  next begun =>
  have two := Nat.not_lt.mp begun
  unfold eventSize eventType at short
  simp only
  split
  · next buffer =>
      rw [if_pos buffer] at short
      by_cases stream : data.length < 2 + 4
      · rw [wordAt_short stream]
        rfl
      · obtain ⟨_, first⟩ := wordAt_enough (Nat.not_lt.mp stream)
        rw [first, wordAt_short (i := 6) (by omega)]
        rfl
  split
  · next other pong =>
      rw [if_neg other, if_pos pong] at short
      rw [wordAt_short (i := 2) (by omega)]
      rfl
  · next other unread =>
      rw [if_neg other, if_neg unread] at short
      omega

theorem controlBody_enough {s : RtmpSession}
    (enough : controlSize s.current.type s.current.data ≤ s.current.data.length) :
    ∃ s', s.controlBody = .ok s' := by
  have word : controlSize s.current.type s.current.data = 4 →
      ∃ word, wordAt s.current.data 0 = .ok word := by
    intro four
    rw [four] at enough
    exact wordAt_enough enough
  unfold controlBody
  simp only
  split
  · next type =>
      obtain ⟨_, read⟩ := word (by rw [type]; rfl)
      exact ⟨_, by rw [read]; rfl⟩
  split
  · next type =>
      obtain ⟨_, read⟩ := word (by rw [type]; rfl)
      exact ⟨_, by rw [read]; rfl⟩
  split
  · next type =>
      obtain ⟨_, read⟩ := word (by rw [type]; rfl)
      exact ⟨_, by rw [read]; rfl⟩
  split
  · next type =>
      rw [type] at enough
      exact ⟨s, by rw [readUserControl_enough enough]; rfl⟩
  split
  · next type =>
      obtain ⟨_, read⟩ := word (by rw [type]; rfl)
      exact ⟨_, by rw [read]; rfl⟩
  split
  · next type =>
      rw [type] at enough
      have five : 5 ≤ s.current.data.length := enough
      obtain ⟨_, read⟩ : ∃ word, wordAt s.current.data 0 = .ok word :=
        wordAt_enough (Nat.le_of_succ_le five)
      rw [read, List.getElem?_eq_getElem five]
      exact ⟨_, rfl⟩
  · exact ⟨s, rfl⟩

/-- One that is too short is read past its end, or ends in the exception of `at`. -/
theorem controlBody_short {s : RtmpSession}
    (short : s.current.data.length < controlSize s.current.type s.current.data) :
    ∃ f, s.controlBody = .error f := by
  have word : controlSize s.current.type s.current.data = 4 →
      wordAt s.current.data 0 = .error .outOfBounds := by
    intro four
    rw [four] at short
    exact wordAt_short short
  unfold controlBody
  simp only
  split
  · next type => exact ⟨_, by rw [word (by rw [type]; rfl)]; rfl⟩
  split
  · next type => exact ⟨_, by rw [word (by rw [type]; rfl)]; rfl⟩
  split
  · next type => exact ⟨_, by rw [word (by rw [type]; rfl)]; rfl⟩
  split
  · next type =>
      rw [type] at short
      exact ⟨_, by rw [readUserControl_short short]; rfl⟩
  split
  · next type => exact ⟨_, by rw [word (by rw [type]; rfl)]; rfl⟩
  split
  · next type =>
      rw [type] at short
      have five : s.current.data.length < 5 := short
      by_cases four : s.current.data.length < 4
      · exact ⟨_, by rw [wordAt_short (i := 0) four]; rfl⟩
      · obtain ⟨_, read⟩ : ∃ word, wordAt s.current.data 0 = .ok word :=
          wordAt_enough (Nat.not_lt.mp four)
        rw [read, List.getElem?_eq_none (Nat.le_of_lt_succ five)]
        exact ⟨_, rfl⟩
  · next one two three four five six =>
      have none : controlSize s.current.type s.current.data = 0 := by
        simp only [controlSize, one, two, three, four, five, six, or_self, if_false]
      rw [none] at short
      exact absurd short (Nat.not_lt_zero _)

theorem controlSafe_iff (s : RtmpSession) :
    s.ControlSafe ↔ controlSize s.current.type s.current.data ≤ s.current.data.length := by
  constructor
  · rintro ⟨_, unchanged⟩
    by_contra short
    obtain ⟨f, failed⟩ := controlBody_short (Nat.not_le.mp short)
    obtain ⟨s', done, _⟩ := unchanged (Nat.not_le.mp short)
    obtain ⟨_, body, _⟩ := bind_ok.mp done
    cases failed.symm.trans body
  · intro enough
    refine ⟨fun fault => ?_, fun short => absurd enough (Nat.not_le.mpr short)⟩
    obtain ⟨s', body⟩ := controlBody_enough enough
    have handled : s.handleControlMessage = s'.clearCurrent := by
      rw [handleControlMessage, body]
      rfl
    rw [handled, clearCurrent] at fault
    split at fault <;> cases fault

end RtmpSession

namespace Host

/-- `handle` calls `handle_chunk_stream` with the session in state `s`. -/
def Calls (host : Host) (x : SessionId) (s : RtmpSession) : Prop :=
  host.server.crashed = none ∧ host.Ready x ∧ (host.server.sessions x).acknowledge = .ok s

theorem Calls.decoder {host : Host} {x : SessionId} {s : RtmpSession} (calls : host.Calls x s) :
    s.decoder = (host.server.sessions x).decoder :=
  (RtmpSession.acknowledge_ok calls.2.2).1

/-- The control message that the step handles, if it handles one, is handled safely. -/
def ControlSafe (host : Host) : Label → Prop
  | .dispatch x _ => ∀ s, host.Calls x s → s.HoldsControl → s.ControlSafe
  | .accept _ | .receive _ _ | .shake _ _ | .parse _ | .close _ => True

/-- Its payload is as long as its type needs. -/
def ControlFits (host : Host) : Label → Prop
  | .dispatch x _ => ∀ s, host.Calls x s → s.HoldsControl →
      RtmpSession.controlSize s.current.type s.current.data ≤ s.current.data.length
  | .accept _ | .receive _ _ | .shake _ _ | .parse _ | .close _ => True

end Host

/-- In a run every control message is handled safely exactly when every one has the bytes that its
    type needs. -/
theorem control_safe_iff (recordForce : Bool) (labels : List Label) :
    (machine recordForce).Steps Host.ControlSafe labels ↔
      (machine recordForce).Steps Host.ControlFits labels := by
  have same : ∀ (host : Host) (l : Label), host.ControlSafe l ↔ host.ControlFits l := by
    intro host l
    cases l with
    | dispatch x env =>
        exact forall_congr' fun s => forall_congr' fun _ => forall_congr' fun _ =>
          s.controlSafe_iff
    | accept | receive | shake | parse | close => exact Iff.rfl
  simp only [Machine.Steps, same]

/-- A Set Chunk Size message without a payload. -/
def emptyControl : List Label :=
  Peer.greet 1 ++ [.receive 1 (Peer.message 2 1 0 []), .parse 1]

set_option maxRecDepth 4000 in
/-- It is handled with four bytes read behind the end of an empty vector. -/
theorem empty_control_unsafe :
    ¬ (machine false).Steps Host.ControlSafe (emptyControl ++ [.dispatch 1 Peer.env]) := by
  intro steps
  have safe := steps emptyControl (.dispatch 1 Peer.env) (List.prefix_refl _)
  obtain ⟨s, counted, holds, short⟩ : ∃ s,
      (((machine false).run emptyControl).server.sessions 1).acknowledge = .ok s ∧
        s.HoldsControl ∧
          s.current.data.length < RtmpSession.controlSize s.current.type s.current.data := by
    decide +kernel
  have running : ((machine false).run emptyControl).server.crashed = none := by decide +kernel
  have ready : ((machine false).run emptyControl).Ready 1 := by decide +kernel
  obtain ⟨s', done, _⟩ := (safe s ⟨running, ready, counted⟩ holds).2 short
  obtain ⟨f, failed⟩ := RtmpSession.controlBody_short short
  obtain ⟨_, body, _⟩ := bind_ok.mp done
  cases failed.symm.trans body

end DroneServer
