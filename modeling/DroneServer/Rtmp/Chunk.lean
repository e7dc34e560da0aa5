import DroneServer.Rtmp.Session

/-! # Chunks on the wire and what reading one does

A message header in its four formats, its bytes, and its effect on the memory of
a chunk stream. `readChunkStream_chunk` is the specification of the reader: on a
whole chunk it consumes exactly that chunk and leaves exactly that effect. It is
used for a peer's chunks and for the ones this program's own writer makes.
-/

namespace DroneServer

open Endian

inductive MessageHeader where
  | f0 (time len : UInt32) (type : UInt8) (streamId : UInt32)
  | f1 (dtime len : UInt32) (type : UInt8)
  | f2 (dtime : UInt32)
  | f3
  deriving DecidableEq, Repr

namespace MessageHeader

def fmt : MessageHeader → UInt8
  | .f0 .. => 0
  | .f1 .. => 1
  | .f2 .. => 2
  | .f3 => 3

def encode : MessageHeader → Bytes
  | .f0 time len type streamId => toBE24 time ++ toBE24 len ++ [type] ++ toLE32 streamId
  | .f1 dtime len type => toBE24 dtime ++ toBE24 len ++ [type]
  | .f2 dtime => toBE24 dtime
  | .f3 => []

/-- The fields fit their three bytes, and the time is not the mark of an extended one. -/
def Plain : MessageHeader → Prop
  | .f0 time len _ _ => time.toNat < 0xffffff ∧ len.toNat < 2 ^ 24
  | .f1 dtime len _ => dtime.toNat < 0xffffff ∧ len.toNat < 2 ^ 24
  | .f2 dtime => dtime.toNat < 0xffffff
  | .f3 => True

/-- The time a type 3 chunk gives a new message. -/
def repeatedTime (cs : RtmpChunkStream) : UInt32 :=
  if cs.fmt = some 1 ∨ cs.fmt = some 2 then cs.time + cs.dtime else cs.time

/-- What reading the header, with no extended time around, does to a chunk stream. -/
def apply (h : MessageHeader) (cs : RtmpChunkStream) : RtmpChunkStream :=
  let cs := match h with
    | .f0 time len type streamId =>
        { cs with time, dtime := 0, len, type, streamId, rem := some len }
    | .f1 dtime len type => { cs with time := cs.time + dtime, dtime, len, type, rem := some len }
    | .f2 dtime => { cs with time := cs.time + dtime, dtime, rem := some cs.len }
    | .f3 => if cs.rem = some 0 then cs.restart (repeatedTime cs) else cs
  { cs with fmt := some h.fmt, state := .payload }

end MessageHeader

namespace RtmpChunkStream

open MessageHeader

theorem readFull_plain {size : Nat} (assign : Bytes → UInt32 → RtmpChunkStream → RtmpChunkStream)
    (cs : RtmpChunkStream) {time : UInt32} (small : time.toNat < 0xffffff) (tail rest : Bytes)
    (length : tail.length + 3 = size) :
    readFull size assign cs (toBE24 time ++ tail ++ rest) =
      (.ok, assign (toBE24 time ++ tail) time cs, rest) := by
  have enough : ¬ (toBE24 time ++ tail ++ rest).length < size := by
    simp only [List.length_append, toBE24_length]
    omega
  have front : (toBE24 time ++ tail ++ rest).take size = toBE24 time ++ tail := by
    rw [List.take_append_of_le_length (by simp; omega), List.take_of_length_le (by simp; omega)]
  have back : (toBE24 time ++ tail ++ rest).drop size = rest := by
    rw [List.drop_append_of_le_length (by simp; omega), List.drop_of_length_le (by simp; omega),
      List.nil_append]
  have field : be24 ((toBE24 time ++ tail).getD 0 0) ((toBE24 time ++ tail).getD 1 0)
      ((toBE24 time ++ tail).getD 2 0) = time := be24_toBE24 (by omega)
  have plain : time ≠ 0xffffff := by
    rintro rfl
    exact absurd small (by decide)
  simp only [readFull, enough, if_false, front, back, field, plain]

theorem readF3_plain {cs : RtmpChunkStream} {rem : UInt32} {fmt : UInt8}
    (noExt : cs.extTs = false) (left : cs.rem = some rem) (known : cs.fmt = some fmt)
    (buf : Bytes) :
    cs.readF3 buf =
      .ok (.ok, if cs.rem = some 0 then cs.restart (repeatedTime cs) else cs, buf) := by
  by_cases done : rem = 0
  · by_cases zero : fmt = 0
    · simp [readF3, left, known, noExt, done, zero, repeatedTime]
    · by_cases one : fmt = 1 ∨ fmt = 2 <;>
        simp [readF3, left, known, noExt, done, zero, one, repeatedTime]
  · simp [readF3, left, noExt, done]

/-- What `read_header` makes of the outcome of reading a header of format `fmt`. -/
def entered (fmt : UInt8) (read : Ret × RtmpChunkStream × Bytes) : Ret × RtmpChunkStream × Bytes :=
  (read.1,
    { read.2.1 with
      fmt := some fmt
      state := if read.1 = .ok then .payload else read.2.1.state },
    read.2.2)

theorem readHeader_idle {cs : RtmpChunkStream} (idle : cs.state = .header) (buf : Bytes) :
    cs.readHeader 0 buf = .ok (entered 0 (cs.readF0 buf)) ∧
      cs.readHeader 1 buf = .ok (entered 1 (cs.readF1 buf)) ∧
      cs.readHeader 2 buf = .ok (entered 2 (cs.readF2 buf)) ∧
      cs.readHeader 3 buf = (cs.readF3 buf).map (entered 3) := by
  refine ⟨?_, ?_, ?_, ?_⟩
  · by_cases done : (cs.readF0 buf).1 = .ok <;>
      simp [readHeader, idle, entered, done, pure, Except.pure, bind, Except.bind]
  · by_cases done : (cs.readF1 buf).1 = .ok <;>
      simp [readHeader, idle, entered, done, pure, Except.pure, bind, Except.bind]
  · by_cases done : (cs.readF2 buf).1 = .ok <;>
      simp [readHeader, idle, entered, done, pure, Except.pure, bind, Except.bind]
  · cases read : cs.readF3 buf with
    | error fault => simp [readHeader, idle, read, Except.map, bind, Except.bind]
    | ok result =>
        by_cases done : result.1 = .ok <;>
          simp [readHeader, idle, read, entered, done, pure, Except.pure, bind, Except.bind,
            Except.map]

theorem readHeader_encode {cs : RtmpChunkStream} {h : MessageHeader} (plain : h.Plain)
    (idle : cs.state = .header) (noExt : cs.extTs = false)
    (known : h = .f3 → cs.rem.isSome ∧ cs.fmt.isSome) (rest : Bytes) :
    cs.readHeader h.fmt (h.encode ++ rest) = .ok (.ok, h.apply cs, rest) := by
  obtain ⟨zero, one, two, three⟩ := readHeader_idle idle (h.encode ++ rest)
  cases h with
  | f0 time len type streamId =>
      have read : cs.readF0 ((MessageHeader.f0 time len type streamId).encode ++ rest) =
          (.ok, assignF0 (MessageHeader.f0 time len type streamId).encode time cs, rest) :=
        readFull_plain assignF0 cs plain.1 (toBE24 len ++ [type] ++ toLE32 streamId) rest rfl
      have lenRead : headerLen (MessageHeader.f0 time len type streamId).encode = len :=
        be24_toBE24 plain.2
      have streamRead : headerStream (MessageHeader.f0 time len type streamId).encode = streamId :=
        be32_toBE32 streamId
      refine zero.trans ?_
      rw [read, assignF0, lenRead, streamRead]
      rfl
  | f1 dtime len type =>
      have read : cs.readF1 ((MessageHeader.f1 dtime len type).encode ++ rest) =
          (.ok, assignF1 (MessageHeader.f1 dtime len type).encode dtime cs, rest) :=
        readFull_plain assignF1 cs plain.1 (toBE24 len ++ [type]) rest rfl
      have lenRead : headerLen (MessageHeader.f1 dtime len type).encode = len :=
        be24_toBE24 plain.2
      refine one.trans ?_
      rw [read, assignF1, lenRead]
      rfl
  | f2 dtime =>
      have read : cs.readF2 ((MessageHeader.f2 dtime).encode ++ rest) =
          (.ok, assignF2 (MessageHeader.f2 dtime).encode dtime cs, rest) :=
        readFull_plain assignF2 cs plain [] rest rfl
      refine two.trans ?_
      rw [read]
      rfl
  | f3 =>
      obtain ⟨hasRem, hasFmt⟩ := known rfl
      obtain ⟨rem, left⟩ := Option.isSome_iff_exists.mp hasRem
      obtain ⟨old, last⟩ := Option.isSome_iff_exists.mp hasFmt
      refine three.trans ?_
      rw [readF3_plain noExt left last]
      rfl

/-- The bytes `read_payload` asks for. -/
def asked (rem maxChunkSize : UInt32) : UInt32 := if rem > maxChunkSize then maxChunkSize else rem

theorem asked_toNat (rem maxChunkSize : UInt32) :
    (asked rem maxChunkSize).toNat = min maxChunkSize.toNat rem.toNat := by
  unfold asked
  split
  · next big =>
      have := UInt32.lt_iff_toNat_lt.mp big
      omega
  · next small =>
      have := mt UInt32.lt_iff_toNat_lt.mpr small
      omega

/-- The memory once the bytes `read_payload` asks for are there. -/
def taken (cs : RtmpChunkStream) (rem maxChunkSize : UInt32) (buf : Bytes) : RtmpChunkStream :=
  { cs with
    data := cs.data ++ buf.take (asked rem maxChunkSize).toNat
    rem := some (rem - asked rem maxChunkSize)
    ready := if rem - asked rem maxChunkSize = 0 then true else cs.ready
    state := .header }

theorem readPayload_eq {cs : RtmpChunkStream} {rem : UInt32} (state : cs.state = .payload)
    (left : cs.rem = some rem) (maxChunkSize : UInt32) (buf : Bytes) :
    cs.readPayload maxChunkSize buf =
      if buf.length < (asked rem maxChunkSize).toNat then .ok (.more, cs, buf)
      else .ok (.ok, cs.taken rem maxChunkSize buf, buf.drop (asked rem maxChunkSize).toNat) := by
  simp only [readPayload, state, left, ne_eq, not_true_eq_false, if_false, asked, taken]
  rfl

/-- The memory after the next piece of `left`, the payload still expected. -/
def collect (cs : RtmpChunkStream) (maxChunkSize : UInt32) (left : Bytes) : RtmpChunkStream :=
  { cs with
    data := cs.data ++ left.take maxChunkSize.toNat
    rem := some (UInt32.ofNat (left.drop maxChunkSize.toNat).length)
    ready := if left.drop maxChunkSize.toNat = [] then true else cs.ready
    state := .header }

theorem readPayload_piece {cs : RtmpChunkStream} {left : Bytes} (state : cs.state = .payload)
    (fits : left.length < 2 ^ 32) (rem : cs.rem = some (UInt32.ofNat left.length))
    (maxChunkSize : UInt32) (rest : Bytes) :
    cs.readPayload maxChunkSize (left.take maxChunkSize.toNat ++ rest) =
      .ok (.ok, cs.collect maxChunkSize left, rest) := by
  have size : (UInt32.ofNat left.length).toNat = left.length := UInt32.toNat_ofNat_of_lt' fits
  have behind : (left.drop maxChunkSize.toNat).length < 2 ^ 32 := by
    rw [List.length_drop]
    omega
  have req : (asked (UInt32.ofNat left.length) maxChunkSize).toNat =
      (left.take maxChunkSize.toNat).length := by
    rw [asked_toNat, size, List.length_take]
  have remaining : UInt32.ofNat left.length - asked (UInt32.ofNat left.length) maxChunkSize =
      UInt32.ofNat (left.drop maxChunkSize.toNat).length := by
    apply UInt32.toNat_inj.mp
    rw [UInt32.toNat_sub_of_le _ _ (UInt32.le_iff_toNat_le.mpr (by rw [asked_toNat]; omega)),
      asked_toNat, size, UInt32.toNat_ofNat_of_lt' behind, List.length_drop]
    omega
  have done : UInt32.ofNat (left.drop maxChunkSize.toNat).length = 0 ↔
      left.drop maxChunkSize.toNat = [] := by
    rw [← UInt32.toNat_inj, UInt32.toNat_ofNat_of_lt' behind]
    exact List.length_eq_zero_iff
  have enough : ¬ (left.take maxChunkSize.toNat ++ rest).length <
      (left.take maxChunkSize.toNat).length := by
    rw [List.length_append]
    omega
  rw [readPayload_eq state rem, req, if_neg enough, taken, collect, remaining, req,
    List.take_left, List.drop_left]
  simp only [done]

/-- The size of a header of this type, and its 24-bit time field. -/
def headerSize (fmt : UInt8) : Nat := if fmt = 0 then 11 else if fmt = 1 then 7 else 3

def timeField (buf : Bytes) : UInt32 := Endian.be24 (buf.getD 0 0) (buf.getD 1 0) (buf.getD 2 0)

/-- The buffer holds all of a header of `size` bytes, with the extended time if it has one. -/
def HeaderComplete (size : Nat) (buf : Bytes) : Prop :=
  size ≤ buf.length ∧ (timeField (buf.take size) = 0xffffff → size + 4 ≤ buf.length)

instance (size : Nat) (buf : Bytes) : Decidable (HeaderComplete size buf) :=
  inferInstanceAs (Decidable (_ ∧ _))

/-- A header of type 0, 1 or 2 is assigned when it is complete, and changes nothing of importance
    before. -/
theorem readFull_cases (size : Nat)
    (assign : Bytes → UInt32 → RtmpChunkStream → RtmpChunkStream) (cs : RtmpChunkStream)
    (buf : Bytes) :
    (HeaderComplete size buf ∧ ∃ time ext rest, readFull size assign cs buf =
      (.ok, assign (buf.take size) time { cs with extTs := ext }, rest)) ∨
    (¬ HeaderComplete size buf ∧ ∃ ext,
      readFull size assign cs buf = (.more, { cs with extTs := ext }, buf)) := by
  by_cases short : buf.length < size
  · refine .inr ⟨fun ⟨enough, _⟩ => absurd enough (Nat.not_le.mpr short), cs.extTs, ?_⟩
    simp only [readFull, short, if_true]
  by_cases mark : timeField (buf.take size) = 0xffffff
  · have marked := mark
    unfold timeField at marked
    by_cases extended : buf.length < size + 4
    · refine .inr ⟨fun ⟨_, enough⟩ => absurd (enough mark) (Nat.not_le.mpr extended), true, ?_⟩
      simp only [readFull, short, if_false, marked, if_true, extended]
    · refine .inl ⟨⟨Nat.not_lt.mp short, fun _ => Nat.not_lt.mp extended⟩, ?_⟩
      simp only [readFull, short, if_false, marked, if_true, extended]
      exact ⟨_, true, _, rfl⟩
  · have plain := mark
    unfold timeField at plain
    refine .inl ⟨⟨Nat.not_lt.mp short, fun marked => absurd marked mark⟩, ?_⟩
    simp only [readFull, short, if_false, plain]
    exact ⟨_, cs.extTs, _, rfl⟩

/-- A header of type 3 waits, goes on with an unfinished message, or starts one afresh. -/
theorem readF3_cases {cs cs' : RtmpChunkStream} {buf rest : Bytes} {ret : Ret}
    (read : cs.readF3 buf = .ok (ret, cs', rest)) :
    (ret = .more ∧ cs' = cs) ∨
      (ret = .ok ∧ cs' = cs ∧ ∃ rem, cs.rem = some rem ∧ rem ≠ 0) ∨
      (ret = .ok ∧ cs.rem = some 0 ∧ ∃ time, cs' = cs.restart time) := by
  unfold readF3 at read
  simp only at read
  split at read
  · cases read
  next rem left =>
  split at read
  · next done =>
      subst done
      split at read
      · cases read
      split at read
      · split at read
        · split at read <;> cases read
          · exact .inl ⟨rfl, rfl⟩
          · exact .inr (.inr ⟨rfl, left, _, rfl⟩)
        · cases read
          exact .inr (.inr ⟨rfl, left, _, rfl⟩)
      split at read
      · split at read
        · split at read <;> cases read
          · exact .inl ⟨rfl, rfl⟩
          · exact .inr (.inr ⟨rfl, left, _, rfl⟩)
        · cases read
          exact .inr (.inr ⟨rfl, left, _, rfl⟩)
      · cases read
        exact .inr (.inr ⟨rfl, left, _, rfl⟩)
  · next some =>
      split at read
      · split at read <;> cases read
        · exact .inl ⟨rfl, rfl⟩
        · exact .inr (.inl ⟨rfl, rfl, rem, left, some⟩)
      · cases read
        exact .inr (.inl ⟨rfl, rfl, rem, left, some⟩)

theorem readHeader_other {cs : RtmpChunkStream} (idle : cs.state = .header) {fmt : UInt8}
    (other : fmt ≠ 0 ∧ fmt ≠ 1 ∧ fmt ≠ 2 ∧ fmt ≠ 3) (buf : Bytes) :
    cs.readHeader fmt buf = .ok (entered fmt (.fail, cs, buf)) := by
  obtain ⟨zero, one, two, three⟩ := other
  simp [readHeader, idle, zero, one, two, three, entered, pure, Except.pure, bind, Except.bind]

/-- The formats whose header is read in one piece, with its size and what it assigns. -/
inductive FullFormat :
    UInt8 → Nat → (Bytes → UInt32 → RtmpChunkStream → RtmpChunkStream) → Prop where
  | f0 : FullFormat 0 11 assignF0
  | f1 : FullFormat 1 7 assignF1
  | f2 : FullFormat 2 3 assignF2

/-- How `read_header` comes to what it returns. -/
inductive HeaderOutcome (cs : RtmpChunkStream) (fmt : UInt8) (buf : Bytes) :
    Ret × RtmpChunkStream × Bytes → Prop where
  | past (state : cs.state ≠ .header) : HeaderOutcome cs fmt buf (.ok, cs, buf)
  | full {size : Nat} {assign : Bytes → UInt32 → RtmpChunkStream → RtmpChunkStream}
      (idle : cs.state = .header) (format : FullFormat fmt size assign) :
      HeaderOutcome cs fmt buf (entered fmt (readFull size assign cs buf))
  | repeated {read : Ret × RtmpChunkStream × Bytes} (idle : cs.state = .header) (format : fmt = 3)
      (done : cs.readF3 buf = .ok read) : HeaderOutcome cs fmt buf (entered fmt read)
  | unknown (idle : cs.state = .header) (other : fmt ≠ 0 ∧ fmt ≠ 1 ∧ fmt ≠ 2 ∧ fmt ≠ 3) :
      HeaderOutcome cs fmt buf (entered fmt (.fail, cs, buf))

theorem readHeader_cases {cs : RtmpChunkStream} {fmt : UInt8} {buf : Bytes}
    {result : Ret × RtmpChunkStream × Bytes} (read : cs.readHeader fmt buf = .ok result) :
    HeaderOutcome cs fmt buf result := by
  by_cases idle : cs.state = .header
  · obtain ⟨zero, one, two, three⟩ := readHeader_idle idle buf
    by_cases is0 : fmt = 0
    · subst is0
      cases zero.symm.trans read
      exact .full idle .f0
    by_cases is1 : fmt = 1
    · subst is1
      cases one.symm.trans read
      exact .full idle .f1
    by_cases is2 : fmt = 2
    · subst is2
      cases two.symm.trans read
      exact .full idle .f2
    by_cases is3 : fmt = 3
    · subst is3
      rw [three] at read
      cases done : cs.readF3 buf with
      | error fault =>
          rw [done] at read
          cases read
      | ok repeated =>
          rw [done] at read
          cases read
          exact .repeated idle rfl done
    · cases (readHeader_other idle ⟨is0, is1, is2, is3⟩ buf).symm.trans read
      exact .unknown idle ⟨is0, is1, is2, is3⟩
  · simp only [readHeader, ne_eq, idle, not_false_eq_true, if_true, pure_ok] at read
    rw [← read]
    exact .past idle

theorem readHeader_accepts {cs cs' : RtmpChunkStream} {fmt : UInt8} {buf rest : Bytes} {ret : Ret}
    (type : fmt < 4) (read : cs.readHeader fmt buf = .ok (ret, cs', rest)) : ret ≠ .fail := by
  generalize same : (ret, cs', rest) = result at read
  cases readHeader_cases read with
  | past =>
      cases same
      decide
  | full idle format =>
      rename_i size assign
      obtain ⟨_, time, ext, rest', done⟩ | ⟨_, ext, done⟩ := readFull_cases size assign cs buf <;>
        rw [done] at same <;> cases same <;> exact nofun
  | @repeated again idle format done =>
      obtain ⟨ret', cs₁, rest'⟩ := again
      cases same
      obtain ⟨rfl, _⟩ | ⟨rfl, _⟩ | ⟨rfl, _⟩ := readF3_cases done <;> exact nofun
  | unknown idle other =>
      obtain ⟨zero, one, two, three⟩ := other
      have small : fmt.toNat < 4 := UInt8.lt_iff_toNat_lt.mp type
      simp only [ne_eq, ← UInt8.toNat_inj] at zero one two three
      change fmt.toNat ≠ 0 at zero
      change fmt.toNat ≠ 1 at one
      change fmt.toNat ≠ 2 at two
      change fmt.toNat ≠ 3 at three
      omega

theorem readPayload_accepts {cs cs' : RtmpChunkStream} {maxChunkSize : UInt32} {buf rest : Bytes}
    {ret : Ret} (read : cs.readPayload maxChunkSize buf = .ok (ret, cs', rest)) : ret ≠ .fail := by
  by_cases state : cs.state = .payload
  · cases left : cs.rem with
    | none =>
        simp only [readPayload, state, left, ne_eq, not_true_eq_false, if_false, reduceCtorEq] at read
    | some rem =>
        rw [readPayload_eq state left] at read
        split at read <;> cases read <;> exact nofun
  · simp only [readPayload, ne_eq, state, not_false_eq_true, if_true] at read
    cases read
    exact nofun

theorem readFull_suffix (size : Nat) (assign : Bytes → UInt32 → RtmpChunkStream → RtmpChunkStream)
    (cs : RtmpChunkStream) (buf : Bytes) : (readFull size assign cs buf).2.2 <:+ buf := by
  unfold readFull
  simp only
  split
  · exact List.suffix_refl buf
  split
  · split
    · exact List.suffix_refl buf
    · rw [List.drop_drop]
      exact List.drop_suffix _ buf
  · exact List.drop_suffix _ buf

theorem readF3_suffix {cs cs' : RtmpChunkStream} {buf rest : Bytes} {ret : Ret}
    (read : cs.readF3 buf = .ok (ret, cs', rest)) : rest <:+ buf := by
  have kept := List.suffix_refl buf
  have dropped := List.drop_suffix 4 buf
  unfold readF3 at read
  grind

theorem readHeader_suffix {cs cs' : RtmpChunkStream} {fmt : UInt8} {buf rest : Bytes} {ret : Ret}
    (read : cs.readHeader fmt buf = .ok (ret, cs', rest)) : rest <:+ buf := by
  generalize same : (ret, cs', rest) = result at read
  cases readHeader_cases read with
  | past | unknown =>
      cases same
      exact List.suffix_refl buf
  | @full size assign =>
      cases same
      exact readFull_suffix size assign cs buf
  | @repeated again idle format done =>
      obtain ⟨ret', cs₁, rest'⟩ := again
      cases same
      exact readF3_suffix done

theorem readPayload_suffix {cs cs' : RtmpChunkStream} {maxChunkSize : UInt32} {buf rest : Bytes}
    {ret : Ret} (read : cs.readPayload maxChunkSize buf = .ok (ret, cs', rest)) :
    rest <:+ buf := by
  by_cases state : cs.state = .payload
  · cases left : cs.rem with
    | none =>
        simp only [readPayload, state, left, ne_eq, not_true_eq_false, if_false, reduceCtorEq] at read
    | some rem =>
        rw [readPayload_eq state left] at read
        split at read
        · cases read
          exact List.suffix_refl buf
        · cases read
          exact List.drop_suffix _ buf
  · simp only [readPayload, ne_eq, state, not_false_eq_true, if_true] at read
    cases read
    exact List.suffix_refl buf
end RtmpChunkStream

/-- The bytes of a chunk. -/
def chunk (csid : UInt16) (h : MessageHeader) (piece : Bytes) : Bytes :=
  RtmpChunkStream.basicHeader h.fmt csid :: h.encode ++ piece

namespace RtmpSession

/-- The memory of a chunk stream, which is made on first use. -/
def memory (s : RtmpSession) (csid : UInt16) : RtmpChunkStream := (s.csIn csid).getD { csid }

/-- The session once a chunk of that format has left that memory. -/
def stored (s : RtmpSession) (csid : UInt16) (fmt : UInt8) (cs : RtmpChunkStream) : RtmpSession :=
  { s with csIn := Function.update s.csIn csid (some cs), csid, fmt }

theorem basicHeader_fields {csid : UInt16} (narrow : csid < 64) (h : MessageHeader) :
    (RtmpChunkStream.basicHeader h.fmt csid >>> 6) &&& 0x3 = h.fmt ∧
      (RtmpChunkStream.basicHeader h.fmt csid &&& 0x3f).toUInt16 = csid := by
  have all : ∀ fmt : Fin 4, ∀ id : Fin 64,
      (RtmpChunkStream.basicHeader (UInt8.ofNat fmt) (UInt16.ofNat id) >>> 6) &&& 0x3 =
          UInt8.ofNat fmt ∧
        (RtmpChunkStream.basicHeader (UInt8.ofNat fmt) (UInt16.ofNat id) &&& 0x3f).toUInt16 =
          UInt16.ofNat id := by decide
  have id := UInt16.ofNat_toNat (x := csid)
  have small : csid.toNat < 64 := UInt16.lt_iff_toNat_lt.mp narrow
  have every : ∀ fmt : Fin 4,
      (RtmpChunkStream.basicHeader (UInt8.ofNat fmt) csid >>> 6) &&& 0x3 = UInt8.ofNat fmt ∧
        (RtmpChunkStream.basicHeader (UInt8.ofNat fmt) csid &&& 0x3f).toUInt16 = csid := by
    intro fmt
    have fields := all fmt ⟨csid.toNat, small⟩
    rw [id] at fields
    exact fields
  cases h with
  | f0 => exact every 0
  | f1 => exact every 1
  | f2 => exact every 2
  | f3 => exact every 3

theorem readChunkStream_chunk {s : RtmpSession} {csid : UInt16} {h : MessageHeader} {left : Bytes}
    (between : s.headerRead = false) (narrow : csid < 64) (plain : h.Plain)
    (idle : (s.memory csid).state = .header) (noExt : (s.memory csid).extTs = false)
    (known : h = .f3 → (s.memory csid).rem.isSome ∧ (s.memory csid).fmt.isSome)
    (fits : left.length < 2 ^ 32)
    (rem : (h.apply (s.memory csid)).rem = some (UInt32.ofNat left.length)) (rest : Bytes) :
    s.readChunkStream (chunk csid h (left.take s.maxChunkSize.toNat) ++ rest) =
      .ok (.ok, s.stored csid h.fmt ((h.apply (s.memory csid)).collect s.maxChunkSize left),
        rest) := by
  obtain ⟨fmtRead, idRead⟩ := basicHeader_fields narrow h
  have header := RtmpChunkStream.readHeader_encode plain idle noExt known
    (left.take s.maxChunkSize.toNat ++ rest)
  have state : (h.apply (s.memory csid)).state = .payload := rfl
  have payload := RtmpChunkStream.readPayload_piece state fits rem s.maxChunkSize rest
  simp only [memory] at header payload
  simp [readChunkStream, chunk, readBasicHeader, between, fmtRead, idRead, current, header, payload,
    setCurrent, stored, memory, pure, Except.pure, bind, Except.bind]

/-- The type of a basic header fits two bits, so that no chunk is refused. -/
theorem readChunkStream_accepts {s s' : RtmpSession} {buf rest : Bytes} {ret : Ret}
    (type : s.fmt < 4) (read : s.readChunkStream buf = .ok (ret, s', rest)) :
    ret ≠ .fail ∧ s'.fmt < 4 := by
  unfold readChunkStream at read
  split at read
  · cases read
    exact ⟨by decide, type⟩
  · have basic : (s.readBasicHeader buf).1.fmt < 4 := by
      unfold readBasicHeader
      split
      · exact type
      · refine UInt8.lt_iff_toNat_lt.mpr ?_
        simp only [UInt8.toNat_and]
        exact Nat.lt_succ_of_le Nat.and_le_right
    obtain ⟨⟨ret₁, cs, rest₁⟩, header, read⟩ := bind_ok.mp read
    have accepted := RtmpChunkStream.readHeader_accepts basic header
    simp only at read
    split at read
    · cases read
      exact ⟨accepted, basic⟩
    · obtain ⟨⟨ret₂, cs, rest₂⟩, payload, read⟩ := bind_ok.mp read
      cases read
      refine ⟨RtmpChunkStream.readPayload_accepts payload, ?_⟩
      split <;> exact basic

/-- A chunk that is read whole took a byte of the buffer or ended a header read before. -/
theorem readChunkStream_progress {s s' : RtmpSession} {buf rest : Bytes} (some : buf ≠ [])
    (read : s.readChunkStream buf = .ok (.ok, s', rest)) :
    s'.headerRead = false ∧ rest.length < buf.length + if s.headerRead then 1 else 0 := by
  have taken : (s.readBasicHeader buf).2.length < buf.length + if s.headerRead then 1 else 0 := by
    have positive := List.length_pos_iff.mpr some
    unfold readBasicHeader
    split
    · simp
    · simp only [List.length_drop]
      omega
  unfold readChunkStream at read
  split at read
  · cases read
  · obtain ⟨⟨ret₁, cs, rest₁⟩, header, read⟩ := bind_ok.mp read
    have headerLength : rest₁.length ≤ (s.readBasicHeader buf).2.length :=
      (RtmpChunkStream.readHeader_suffix header).length_le
    simp only at read
    split at read
    · next waits =>
        simp only [pure_ok, Prod.mk.injEq] at read
        exact absurd read.1 waits
    · obtain ⟨⟨ret₂, cs₂, rest₂⟩, payload, read⟩ := bind_ok.mp read
      have payloadLength := (RtmpChunkStream.readPayload_suffix payload).length_le
      simp only [pure_ok, Prod.mk.injEq] at read
      obtain ⟨rfl, rfl, rfl⟩ := read
      exact ⟨rfl, by omega⟩

end RtmpSession

end DroneServer
