import DroneServer.Lib.Checked
import DroneServer.Rtmp.Segmentation

/-! # What the reader takes from `recv_buf`

`recv_buf` is a queue that is looked at and taken from without a check by the
queue itself. Here every such access is checked, and an access that misses would
be a fault. Nor do two fields of a chunk stream have a value before a header has
assigned them; what they hold then is left open.
-/

namespace DroneServer

open Endian

/-- What the fields of a new chunk stream without an initialiser happen to hold. -/
structure Residue where
  rem : UInt32
  fmt : UInt8

/-- Four bytes by `copy_pop_front`, least significant first. -/
def popWord (buf : Bytes) : Except Fault (UInt32 × Bytes) := do
  let (b₀, buf) ← Checked.pop Fault.outOfBounds buf
  let (b₁, buf) ← Checked.pop Fault.outOfBounds buf
  let (b₂, buf) ← Checked.pop Fault.outOfBounds buf
  let (b₃, buf) ← Checked.pop Fault.outOfBounds buf
  pure (le32 b₀ b₁ b₂ b₃, buf)

/-- Four bytes by their places, which stay. -/
def peekWord (buf : Bytes) : Except Fault UInt32 := do
  let b₃ ← Checked.get Fault.outOfBounds buf 3
  let b₂ ← Checked.get Fault.outOfBounds buf 2
  let b₁ ← Checked.get Fault.outOfBounds buf 1
  let b₀ ← Checked.get Fault.outOfBounds buf 0
  pure (le32 b₀ b₁ b₂ b₃)

namespace RtmpChunkStream

/-- A memory whose fields hold something. -/
def settled (cs : RtmpChunkStream) (residue : Residue) : RtmpChunkStream :=
  { cs with rem := some (cs.rem.getD residue.rem), fmt := some (cs.fmt.getD residue.fmt) }

/-- `read_f0`, `read_f1` and `read_f2`: the header is copied, then erased. -/
def readFullIn (size : Nat) (assign : Bytes → UInt32 → RtmpChunkStream → RtmpChunkStream)
    (cs : RtmpChunkStream) (buf : Bytes) : Except Fault (Ret × RtmpChunkStream × Bytes) :=
  if buf.length < size then .ok (.more, cs, buf)
  else do
    let mh ← Checked.range Fault.outOfBounds buf 0 size
    let ts := be24 (mh.getD 0 0) (mh.getD 1 0) (mh.getD 2 0)
    if ts = 0xffffff then
      if buf.length < size + 4 then pure (.more, { cs with extTs := true }, buf)
      else
        let buf ← Checked.erase Fault.outOfBounds buf size
        let (ts, buf) ← popWord buf
        pure (.ok, assign mh ts { cs with extTs := true }, buf)
    else
      let buf ← Checked.erase Fault.outOfBounds buf size
      pure (.ok, assign mh ts cs, buf)

def readF3In (cs : RtmpChunkStream) (buf : Bytes) :
    Except Fault (Ret × RtmpChunkStream × Bytes) :=
  match cs.rem with
  | none => .error .uninitialised
  | some rem =>
      if rem = 0 then
        match cs.fmt with
        | none => .error .uninitialised
        | some fmt =>
            if fmt = 0 then
              if cs.extTs then
                if buf.length < 4 then .ok (.more, cs, buf)
                else do
                  let (time, buf) ← popWord buf
                  pure (.ok, cs.restart time, buf)
              else .ok (.ok, cs.restart cs.time, buf)
            else if fmt = 1 ∨ fmt = 2 then
              if cs.extTs then
                if buf.length < 4 then .ok (.more, cs, buf)
                else do
                  let (dts, buf) ← popWord buf
                  pure (.ok, cs.restart (cs.time + dts), buf)
              else .ok (.ok, cs.restart (cs.time + cs.dtime), buf)
            else .ok (.ok, cs.restart cs.time, buf)
      else if cs.extTs then
        if buf.length < 4 then .ok (.more, cs, buf)
        else do
          let ts ← peekWord buf
          if ts = cs.time then
            let buf ← Checked.erase Fault.outOfBounds buf 4
            pure (.ok, cs, buf)
          else pure (.ok, cs, buf)
      else .ok (.ok, cs, buf)

def readHeaderIn (cs : RtmpChunkStream) (fmt : UInt8) (buf : Bytes) :
    Except Fault (Ret × RtmpChunkStream × Bytes) := do
  if cs.state ≠ .header then pure (.ok, cs, buf)
  else
    let (ret, cs, buf) ←
      if fmt = 0 then cs.readFullIn 11 assignF0 buf
      else if fmt = 1 then cs.readFullIn 7 assignF1 buf
      else if fmt = 2 then cs.readFullIn 3 assignF2 buf
      else if fmt = 3 then cs.readF3In buf
      else pure (.fail, cs, buf)
    let cs := { cs with fmt := some fmt }
    pure (ret, if ret = .ok then { cs with state := .payload } else cs, buf)

def readPayloadIn (cs : RtmpChunkStream) (maxChunkSize : UInt32) (buf : Bytes) :
    Except Fault (Ret × RtmpChunkStream × Bytes) :=
  if cs.state ≠ .payload then .ok (.ok, cs, buf)
  else match cs.rem with
    | none => .error .uninitialised
    | some rem =>
        let req := if rem > maxChunkSize then maxChunkSize else rem
        if buf.length < req.toNat then .ok (.more, cs, buf)
        else do
          let piece ← Checked.range Fault.outOfBounds buf 0 req.toNat
          let buf ← Checked.erase Fault.outOfBounds buf req.toNat
          pure (.ok,
            { cs with
              data := cs.data ++ piece
              rem := some (rem - req)
              ready := if rem - req = 0 then true else cs.ready
              state := .header },
            buf)

section Enough

variable {buf : Bytes}

theorem popWord_enough (enough : 4 ≤ buf.length) : popWord buf =
    .ok (le32 (buf.getD 0 0) (buf.getD 1 0) (buf.getD 2 0) (buf.getD 3 0), buf.drop 4) := by
  match buf, enough with
  | _ :: _ :: _ :: _ :: _, _ => rfl

theorem peekWord_enough (enough : 4 ≤ buf.length) :
    peekWord buf = .ok (le32 (buf.getD 0 0) (buf.getD 1 0) (buf.getD 2 0) (buf.getD 3 0)) := by
  match buf, enough with
  | _ :: _ :: _ :: _ :: _, _ => rfl

theorem readFullIn_eq (size : Nat) (assign : Bytes → UInt32 → RtmpChunkStream → RtmpChunkStream)
    (cs : RtmpChunkStream) (buf : Bytes) :
    cs.readFullIn size assign buf = .ok (readFull size assign cs buf) := by
  unfold readFullIn readFull
  by_cases short : buf.length < size
  · rw [if_pos short, if_pos short]
  · rw [if_neg short, if_neg short]
    have copied : Checked.range Fault.outOfBounds buf 0 size = .ok (buf.take size) :=
      Checked.range_front (Nat.not_lt.mp short)
    have erased : Checked.erase Fault.outOfBounds buf size = .ok (buf.drop size) :=
      Checked.erase_inside (Nat.not_lt.mp short)
    simp only [copied, erased, bind, Except.bind]
    split
    · split
      · rfl
      · next long =>
          have enough : 4 ≤ (buf.drop size).length := by
            rw [List.length_drop]
            omega
          simp only [popWord_enough enough]
          rfl
    · rfl

theorem readF3In_eq (cs : RtmpChunkStream) (buf : Bytes) : cs.readF3In buf = cs.readF3 buf := by
  by_cases short : buf.length < 4
  · cases left : cs.rem with
    | none => simp only [readF3In, readF3, left]
    | some rem => cases last : cs.fmt <;> simp only [readF3In, readF3, left, last, short, if_true]
  · have word := popWord_enough (Nat.not_lt.mp short)
    have peeked := peekWord_enough (Nat.not_lt.mp short)
    have erased : Checked.erase Fault.outOfBounds buf 4 = .ok (buf.drop 4) :=
      Checked.erase_inside (Nat.not_lt.mp short)
    generalize value : le32 (buf.getD 0 0) (buf.getD 1 0) (buf.getD 2 0) (buf.getD 3 0) = ts
      at word peeked
    cases left : cs.rem with
    | none => simp only [readF3In, readF3, left]
    | some rem =>
        -- Only the reader with checks decides on the time before it makes the result.
        by_cases same : ts = cs.time <;> cases last : cs.fmt <;>
          simp only [readF3In, readF3, left, last, short, word, peeked, erased, value, same,
            if_true, if_false, bind, Except.bind, pure, Except.pure]

theorem readHeaderIn_eq (cs : RtmpChunkStream) (fmt : UInt8) (buf : Bytes) :
    cs.readHeaderIn fmt buf = cs.readHeader fmt buf := by
  simp only [readHeaderIn, readHeader, readFullIn_eq, readF3In_eq]
  rfl

theorem readPayloadIn_eq (cs : RtmpChunkStream) (maxChunkSize : UInt32) (buf : Bytes) :
    cs.readPayloadIn maxChunkSize buf = cs.readPayload maxChunkSize buf := by
  unfold readPayloadIn readPayload
  split
  · rfl
  · cases cs.rem with
    | none => rfl
    | some rem =>
        simp only
        generalize (if rem > maxChunkSize then maxChunkSize else rem) = req
        by_cases short : buf.length < req.toNat
        · rw [if_pos short, if_pos short]
        · have copied : Checked.range Fault.outOfBounds buf 0 req.toNat =
              .ok (buf.take req.toNat) := Checked.range_front (Nat.not_lt.mp short)
          have erased : Checked.erase Fault.outOfBounds buf req.toNat =
              .ok (buf.drop req.toNat) := Checked.erase_inside (Nat.not_lt.mp short)
          rw [if_neg short, if_neg short]
          simp only [copied, erased, bind, Except.bind, pure, Except.pure]

end Enough

theorem readF3_settled {cs : RtmpChunkStream} (rem : cs.rem.isSome) (fmt : cs.fmt.isSome)
    (buf : Bytes) : ∃ result, cs.readF3 buf = .ok result := by
  obtain ⟨left, rem⟩ := Option.isSome_iff_exists.mp rem
  obtain ⟨last, fmt⟩ := Option.isSome_iff_exists.mp fmt
  simp only [readF3, rem, fmt]
  repeat' split
  all_goals exact ⟨_, rfl⟩

/-- A header is read without a fault where both fields hold something, and leaves it so. -/
theorem readHeader_settled {cs : RtmpChunkStream} (rem : cs.rem.isSome) (fmt : cs.fmt.isSome)
    (type : UInt8) (buf : Bytes) :
    ∃ ret cs' rest, cs.readHeader type buf = .ok (ret, cs', rest) ∧ cs'.rem.isSome := by
  have read : ∃ result, cs.readHeader type buf = .ok result := by
    by_cases idle : cs.state = .header
    · obtain ⟨zero, one, two, three⟩ := readHeader_idle idle buf
      obtain ⟨again, repeated⟩ := readF3_settled rem fmt buf
      rw [repeated] at three
      by_cases is0 : type = 0
      · exact ⟨_, is0 ▸ zero⟩
      by_cases is1 : type = 1
      · exact ⟨_, is1 ▸ one⟩
      by_cases is2 : type = 2
      · exact ⟨_, is2 ▸ two⟩
      by_cases is3 : type = 3
      · exact ⟨_, is3 ▸ three⟩
      · exact ⟨_, readHeader_other idle ⟨is0, is1, is2, is3⟩ buf⟩
    · exact ⟨(.ok, cs, buf), if_pos idle⟩
  obtain ⟨⟨ret, cs', rest⟩, read⟩ := read
  refine ⟨ret, cs', rest, read, ?_⟩
  generalize same : (ret, cs', rest) = result at read
  cases readHeader_cases read with
  | past | unknown =>
      cases same
      exact rem
  | @full size assign idle format =>
      have kept : (readFull size assign cs buf).2.1.rem.isSome := by
        obtain ⟨_, time, ext, rest', done⟩ | ⟨_, ext, done⟩ := readFull_cases size assign cs buf <;>
          rw [done]
        · cases format <;> rfl
        · exact rem
      cases same
      exact kept
  | @repeated again idle format done =>
      obtain ⟨ret', cs₁, rest'⟩ := again
      cases same
      obtain ⟨_, rfl⟩ | ⟨_, rfl, _⟩ | ⟨_, _, time, rfl⟩ := readF3_cases done
      · exact rem
      · exact rem
      · rfl

theorem readPayload_settled {cs : RtmpChunkStream} (rem : cs.rem.isSome) (maxChunkSize : UInt32)
    (buf : Bytes) :
    ∃ ret cs' rest, cs.readPayload maxChunkSize buf = .ok (ret, cs', rest) := by
  obtain ⟨left, some⟩ := Option.isSome_iff_exists.mp rem
  by_cases state : cs.state = .payload
  · rw [readPayload_eq state some]
    split
    · exact ⟨_, _, _, rfl⟩
    · exact ⟨_, _, _, rfl⟩
  · exact ⟨.ok, cs, buf, if_pos state⟩

section Settles

variable {cs cs' : RtmpChunkStream} {fmt : UInt8} {buf rest : Bytes} {ret : Ret} (residue : Residue)

/-- What a reader returns, with the memory settled. -/
def settle (read : Ret × RtmpChunkStream × Bytes) : Ret × RtmpChunkStream × Bytes :=
  (read.1, read.2.1.settled residue, read.2.2)

theorem settled_readF3 {result : Ret × RtmpChunkStream × Bytes} (read : cs.readF3 buf = .ok result) :
    (cs.settled residue).readF3 buf = .ok (settle residue result) := by
  cases left : cs.rem with
  | none =>
      simp only [readF3, left] at read
      cases read
  | some rem =>
      have same : (cs.settled residue).readF3 buf = (cs.readF3 buf).map (settle residue) := by
        have rem' : (cs.settled residue).rem = some rem := by
          rw [settled, left, Option.getD_some]
        have ext : (cs.settled residue).extTs = cs.extTs := rfl
        have time : (cs.settled residue).time = cs.time := rfl
        simp only [readF3, left, rem', ext, time] at read ⊢
        by_cases done : rem = 0
        · rw [if_pos done] at read
          rw [if_pos done, if_pos done]
          cases last : cs.fmt with
          | none =>
              rw [last] at read
              cases read
          | some fmt =>
              have fmt' : (cs.settled residue).fmt = some fmt := by
                rw [settled, last, Option.getD_some]
              simp only [fmt']
              repeat' split
              all_goals rfl
        · rw [if_neg done, if_neg done]
          repeat' split
          all_goals rfl
      rw [same, read]
      rfl

theorem settled_readFull {size : Nat} {assign : Bytes → UInt32 → RtmpChunkStream → RtmpChunkStream}
    (format : FullFormat fmt size assign) (cs : RtmpChunkStream) (buf : Bytes) :
    entered fmt (readFull size assign (cs.settled residue) buf) =
      settle residue (entered fmt (readFull size assign cs buf)) := by
  by_cases short : buf.length < size
  · simp only [readFull, short, if_true]
    rfl
  by_cases marked : timeField (buf.take size) = 0xffffff
  · unfold timeField at marked
    by_cases extended : buf.length < size + 4
    · simp only [readFull, short, if_false, marked, if_true, extended]
      rfl
    · simp only [readFull, short, if_false, marked, if_true, extended]
      cases format <;> rfl
  · unfold timeField at marked
    simp only [readFull, short, if_false, marked]
    cases format <;> rfl

theorem settled_readHeader {result : Ret × RtmpChunkStream × Bytes}
    (read : cs.readHeader fmt buf = .ok result) :
    (cs.settled residue).readHeader fmt buf = .ok (settle residue result) := by
  cases readHeader_cases read with
  | past busy => exact if_pos busy
  | @full size assign idle format =>
      have idle' : (cs.settled residue).state = .header := idle
      obtain ⟨zero, one, two, _⟩ := readHeader_idle idle' buf
      rw [← settled_readFull residue format]
      cases format with
      | f0 => exact zero
      | f1 => exact one
      | f2 => exact two
  | @repeated again idle format done =>
      have idle' : (cs.settled residue).state = .header := idle
      obtain ⟨_, _, _, three⟩ := readHeader_idle idle' buf
      rw [settled_readF3 residue done] at three
      rw [format]
      exact three
  | unknown idle other =>
      have idle' : (cs.settled residue).state = .header := idle
      exact readHeader_other idle' other buf

theorem settled_readPayload {n : UInt32} {result : Ret × RtmpChunkStream × Bytes}
    (read : cs.readPayload n buf = .ok result) :
    (cs.settled residue).readPayload n buf = .ok (settle residue result) := by
  by_cases state : cs.state = .payload
  · cases left : cs.rem with
    | none =>
        simp only [readPayload, state, left, ne_eq, not_true_eq_false, if_false] at read
        cases read
    | some rem =>
        have left' : (cs.settled residue).rem = some rem := by
          rw [settled, left, Option.getD_some]
        have state' : (cs.settled residue).state = .payload := state
        rw [readPayload_eq state left] at read
        rw [readPayload_eq state' left']
        split at read <;> cases read
        · next short => exact if_pos short
        · next long => exact if_neg long
  · cases (if_pos state : cs.readPayload n buf = _).symm.trans read
    exact if_pos state

end Settles

end RtmpChunkStream

namespace RtmpSession

open RtmpChunkStream

/-- The basic header is the front of the queue. -/
def readBasicHeaderIn (s : RtmpSession) (buf : Bytes) : Except Fault (RtmpSession × Bytes) :=
  if s.headerRead then .ok (s, buf)
  else do
    let (bh, buf) ← Checked.pop Fault.outOfBounds buf
    pure ({ s with
      fmt := (bh >>> 6) &&& 0x3, csid := (bh &&& 0x3f).toUInt16, headerRead := true }, buf)

/-- `read_chunk_stream` with every access checked. -/
def readChunkStreamIn (residue : Residue) (s : RtmpSession) (buf : Bytes) :
    Except Fault (Ret × RtmpSession × Bytes) :=
  if buf.length < 1 then .ok (.more, s, buf)
  else do
    let (s, buf) ← s.readBasicHeaderIn buf
    let (ret, cs, buf) ← (s.current.settled residue).readHeaderIn s.fmt buf
    if ret ≠ .ok then pure (ret, s.setCurrent cs, buf)
    else
      let (ret, cs, buf) ← cs.readPayloadIn s.maxChunkSize buf
      let s := s.setCurrent cs
      pure (ret, if ret = .ok then { s with headerRead := false } else s, buf)

/-- The session with something in both fields of the chunk stream that is read next. -/
def settled (residue : Residue) (s : RtmpSession) (buf : Bytes) : RtmpSession :=
  let csid := (s.readBasicHeader buf).1.csid
  { s with csIn := Function.update s.csIn csid (some ((s.memory csid).settled residue)) }

variable {s : RtmpSession} {buf : Bytes}

theorem readBasicHeaderIn_eq (s : RtmpSession) (some : buf ≠ []) :
    s.readBasicHeaderIn buf = .ok (s.readBasicHeader buf) := by
  unfold readBasicHeaderIn readBasicHeader
  split
  · rfl
  · have popped : Checked.pop Fault.outOfBounds buf = .ok (buf.getD 0 0, buf.drop 1) :=
      Checked.pop_filled (List.length_pos_iff.mpr some) 0
    simp only [popped, bind, Except.bind, pure, Except.pure]

theorem settled_basic (residue : Residue) (s : RtmpSession) (buf : Bytes) :
    (s.settled residue buf).readBasicHeader buf =
      ((s.readBasicHeader buf).1.setCurrent ((s.readBasicHeader buf).1.current.settled residue),
        (s.readBasicHeader buf).2) := by
  cases read : s.headerRead with
  | true => simp only [settled, readBasicHeader, read, if_true, setCurrent, current, memory]
  | false =>
      simp only [settled, readBasicHeader, read, Bool.false_eq_true, if_false, setCurrent, current,
        memory]

/-- Nothing misses, so that the checked reader is the reader, on what the fields happen to hold. -/
theorem readChunkStreamIn_eq (residue : Residue) (s : RtmpSession) (some : buf ≠ []) :
    s.readChunkStreamIn residue buf = (s.settled residue buf).readChunkStream buf := by
  have filled : ¬ buf.length < 1 := Nat.not_lt.mpr (List.length_pos_iff.mpr some)
  unfold readChunkStreamIn readChunkStream
  rw [if_neg filled, if_neg filled, readBasicHeaderIn_eq s some, settled_basic]
  generalize s.readBasicHeader buf = front
  obtain ⟨basic, rest⟩ := front
  simp only [readHeaderIn_eq, readPayloadIn_eq, bind, Except.bind, setCurrent_current,
    setCurrent_setCurrent, setCurrent_fmt, setCurrent_maxChunkSize]

/-- Where the reader returns, what the fields happen to hold makes no difference to it. -/
theorem readChunkStreamIn_settles {s' : RtmpSession} {rest : Bytes} {ret : Ret} (residue : Residue)
    (some : buf ≠ []) (read : s.readChunkStream buf = .ok (ret, s', rest)) :
    s.readChunkStreamIn residue buf =
      .ok (ret, s'.setCurrent (s'.current.settled residue), rest) := by
  rw [readChunkStream_body s some] at read
  rw [readChunkStreamIn_eq residue s some, readChunkStream_body _ some, settled_basic]
  generalize s.readBasicHeader buf = front at read ⊢
  obtain ⟨basic, buf⟩ := front
  obtain ⟨⟨ret₁, cs, rest₁⟩, header, read⟩ := bind_ok.mp read
  have header' := settled_readHeader residue header
  simp only [settle] at header'
  simp only [readBody, setCurrent_current, setCurrent_setCurrent, setCurrent_fmt,
    setCurrent_maxChunkSize, header', bind, Except.bind]
  by_cases done : ret₁ = .ok
  · subst done
    obtain ⟨⟨ret₂, cs', rest₂⟩, payload, read⟩ := bind_ok.mp read
    have payload' := settled_readPayload residue payload
    simp only [settle] at payload'
    cases read
    simp only [payload', ne_eq, not_true_eq_false, if_false]
    split
    · simp only [current, setCurrent, Function.update_self, Option.getD_some, Function.update_idem]
      rfl
    · simp only [setCurrent_current, setCurrent_setCurrent]
      rfl
  · simp only [ne_eq, done, not_false_eq_true, if_true] at read ⊢
    cases read
    simp only [setCurrent_current, setCurrent_setCurrent]
    rfl

/-- Whatever the session, the bytes and the fields: no access misses, and what is left is the end of
    what there was. -/
theorem readChunkStreamIn_inside (residue : Residue) (s : RtmpSession) (buf : Bytes) :
    ∃ ret s' rest, s.readChunkStreamIn residue buf = .ok (ret, s', rest) ∧ rest <:+ buf := by
  by_cases none : buf = []
  · subst none
    exact ⟨.more, s, [], rfl, List.suffix_refl []⟩
  · rw [readChunkStreamIn_eq residue s none, readChunkStream_body _ none, settled_basic]
    have front : (s.readBasicHeader buf).2 <:+ buf := by
      unfold readBasicHeader
      split
      · exact List.suffix_refl buf
      · exact List.drop_suffix 1 buf
    generalize s.readBasicHeader buf = basic at front
    obtain ⟨basic, rest⟩ := basic
    have rem : (basic.current.settled residue).rem.isSome := rfl
    have fmt : (basic.current.settled residue).fmt.isSome := rfl
    obtain ⟨ret, cs, after, header, left⟩ := readHeader_settled rem fmt basic.fmt rest
    have taken : after <:+ buf := (readHeader_suffix header).trans front
    rw [← setCurrent_current basic (basic.current.settled residue)] at header
    by_cases done : ret = .ok
    · subst done
      obtain ⟨ret, cs', rest', payload⟩ := readPayload_settled left basic.maxChunkSize after
      have body := readBody_payload (s := basic.setCurrent (basic.current.settled residue)) header
      rw [setCurrent_maxChunkSize, payload] at body
      exact ⟨_, _, _, body, (readPayload_suffix payload).trans taken⟩
    · refine ⟨ret, (basic.setCurrent (basic.current.settled residue)).setCurrent cs, after, ?_, taken⟩
      simp only [readBody, setCurrent_fmt, header]
      exact if_pos done

end RtmpSession

end DroneServer
