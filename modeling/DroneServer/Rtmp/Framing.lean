import DroneServer.Rtmp.ChunkSize
import DroneServer.Rtmp.Heard
import DroneServer.Rtmp.Loop

/-! # Where a chunk ends

Twice: as its bytes tell, with the headers before it and the chunk size the peer
has announced, and as the reader reckons, with `ext_ts_` and `max_chunk_size`. The
reader takes a chunk of type 3 to carry an extended time long after the last such
header, and it cuts by sizes the peer never announced. Where it wants more than the
bytes of the chunk, it waits on a chunk that is all there.
-/

namespace DroneServer

open Endian

namespace RtmpChunkStream

/-- The bytes of a message header, with an extended time or without. -/
def frontSize (fmt : UInt8) (extended : Bool) : Nat :=
  (if fmt = 3 then 0 else headerSize fmt) + if extended then 4 else 0

/-- The piece of payload in a chunk of this size. -/
def pieceSize (size left : UInt32) : Nat := min size.toNat left.toNat

/-- What a chunk of type 3 has still to bring of its message. -/
def remaining (cs : RtmpChunkStream) (rem : UInt32) : UInt32 := if rem = 0 then cs.len else rem

/-- The size of a chunk behind its basic header, as the bytes tell. The last header of type 0, 1 or
    2 says of a chunk of type 3 whether it repeats an extended time. -/
def chunkSize (cs : RtmpChunkStream) (heard : Heard) (announced : UInt32) (fmt : UInt8)
    (buf : Bytes) : Option Nat :=
  let repeated := frontSize fmt (heard.mark = some true)
  if cs.state = .payload then cs.rem.map fun left => repeated + pieceSize announced left
  else if fmt = 3 then cs.rem.map fun rem => repeated + pieceSize announced (cs.remaining rem)
  else if cs.Headed fmt buf then
    let mh := buf.take (headerSize fmt)
    some (frontSize fmt (timeField mh = 0xffffff) +
      pieceSize announced (if fmt = 2 then cs.len else headerLen mh))
  else none

/-- `read_f3` waits for a time, or takes one: as long as `ext_ts_` is set, in front of a message if
    the last header was a full one, and inside a message if the four bytes repeat the time. -/
def ExpectsTime (cs : RtmpChunkStream) (rem : UInt32) (buf : Bytes) : Prop :=
  cs.extTs = true ∧
    if rem = 0 then cs.fmt = some 0 ∨ cs.fmt = some 1 ∨ cs.fmt = some 2
    else buf.length < 4 ∨
      le32 (buf.getD 0 0) (buf.getD 1 0) (buf.getD 2 0) (buf.getD 3 0) = cs.time

instance (cs : RtmpChunkStream) (rem : UInt32) (buf : Bytes) : Decidable (cs.ExpectsTime rem buf) :=
  inferInstanceAs (Decidable (_ ∧ ite _ _ _))

/-- How many bytes the reader wants of the chunk, those it has taken aside. -/
def wanted (cs : RtmpChunkStream) (maxChunkSize : UInt32) (fmt : UInt8) (buf : Bytes) :
    Option Nat :=
  if cs.state = .payload then cs.rem.map (pieceSize maxChunkSize)
  else if fmt = 3 then
    cs.rem.bind fun rem =>
      if rem = 0 ∧ cs.fmt = none then none
      else some ((if cs.ExpectsTime rem buf then 4 else 0) +
        pieceSize maxChunkSize (cs.remaining rem))
  else if cs.Headed fmt buf then
    let mh := buf.take (headerSize fmt)
    some (frontSize fmt (timeField mh = 0xffffff) +
      pieceSize maxChunkSize (if fmt = 2 then cs.len else headerLen mh))
  else none

/-- All of the chunk is there, with the `taken` bytes that the reader has already. -/
def Arrived (cs : RtmpChunkStream) (heard : Heard) (announced : UInt32) (fmt : UInt8) (taken : Nat)
    (buf : Bytes) : Prop :=
  ∃ n ∈ cs.chunkSize heard announced fmt buf, n ≤ taken + buf.length

/-- The reader wants more than there is. -/
def Wants (cs : RtmpChunkStream) (maxChunkSize : UInt32) (fmt : UInt8) (buf : Bytes) : Prop :=
  ∃ n ∈ cs.wanted maxChunkSize fmt buf, buf.length < n

/-- It looks for an extended time where the last header announced none, or cuts by more than the
    peer announced. -/
def Stale (cs : RtmpChunkStream) (heard : Heard) (announced maxChunkSize : UInt32) (fmt : UInt8) :
    Prop :=
  fmt = 3 ∧ cs.extTs = true ∧ heard.mark ≠ some true ∨ announced < maxChunkSize

/-- The reader has taken no more of the chunk than a message header, unless it takes payload for a
    time; and nothing before that. -/
def Framed (cs : RtmpChunkStream) (heard : Heard) (fmt : UInt8) (taken : Nat) : Prop :=
  if cs.state = .payload then
    taken ≤ frontSize fmt (heard.mark = some true) ∨
      fmt = 3 ∧ cs.extTs = true ∧ heard.mark ≠ some true
  else taken = 0

instance (cs : RtmpChunkStream) (heard : Heard) (announced : UInt32) (fmt : UInt8) (taken : Nat)
    (buf : Bytes) : Decidable (cs.Arrived heard announced fmt taken buf) :=
  inferInstanceAs (Decidable (∃ _ ∈ _, _))

instance (cs : RtmpChunkStream) (maxChunkSize : UInt32) (fmt : UInt8) (buf : Bytes) :
    Decidable (cs.Wants maxChunkSize fmt buf) :=
  inferInstanceAs (Decidable (∃ _ ∈ _, _))

instance (cs : RtmpChunkStream) (heard : Heard) (announced maxChunkSize : UInt32) (fmt : UInt8) :
    Decidable (cs.Stale heard announced maxChunkSize fmt) :=
  inferInstanceAs (Decidable (_ ∨ _))

section Header

variable {cs cs' : RtmpChunkStream} {fmt : UInt8} {buf rest : Bytes} {ret : Ret}

theorem asked_pieceSize (rem maxChunkSize : UInt32) :
    (asked rem maxChunkSize).toNat = pieceSize maxChunkSize rem := asked_toNat rem maxChunkSize

theorem FullFormat.front {size : Nat} {assign : Bytes → UInt32 → RtmpChunkStream → RtmpChunkStream}
    (format : FullFormat fmt size assign) (extended : Bool) :
    frontSize fmt extended = size + if extended then 4 else 0 := by
  cases format <;> rfl

theorem readFull_complete {size : Nat} (cs : RtmpChunkStream)
    (assign : Bytes → UInt32 → RtmpChunkStream → RtmpChunkStream)
    (complete : HeaderComplete size buf) :
    ∃ time ext, readFull size assign cs buf =
      (.ok, assign (buf.take size) time { cs with extTs := ext },
        buf.drop (size + if timeField (buf.take size) = 0xffffff then 4 else 0)) := by
  obtain ⟨enough, extended⟩ := complete
  have enough := Nat.not_lt.mpr enough
  by_cases mark : timeField (buf.take size) = 0xffffff
  · have marked := mark
    have extended := Nat.not_lt.mpr (extended mark)
    unfold timeField at marked
    simp only [readFull, enough, if_false, marked, if_true, extended, mark, List.drop_drop]
    exact ⟨_, true, rfl⟩
  · have plain := mark
    unfold timeField at plain
    simp only [readFull, enough, if_false, plain, mark, Nat.add_zero]
    exact ⟨_, cs.extTs, rfl⟩

theorem readF3_early {rem : UInt32} (left : cs.rem = some rem) (expects : cs.ExpectsTime rem buf)
    (short : buf.length < 4) : cs.readF3 buf = .ok (.more, cs, buf) := by
  obtain ⟨ext, front⟩ := expects
  unfold readF3
  by_cases done : rem = 0
  · rw [if_pos done] at front
    obtain last | last | last := front <;> simp [left, done, ext, last, short]
  · simp [left, done, ext, short]

theorem readF3_reads {rem : UInt32} (left : cs.rem = some rem)
    (known : ¬ (rem = 0 ∧ cs.fmt = none)) (ready : ¬ (cs.ExpectsTime rem buf ∧ buf.length < 4)) :
    ∃ cs', cs.readF3 buf = .ok (.ok, cs', buf.drop (if cs.ExpectsTime rem buf then 4 else 0)) ∧
      cs'.rem = some (cs.remaining rem) := by
  unfold ExpectsTime at ready ⊢
  unfold readF3 remaining restart
  by_cases done : rem = 0
  · obtain ⟨last, stored⟩ := Option.ne_none_iff_exists'.mp fun none => known ⟨done, none⟩
    grind
  · grind

/-- How a header comes to be read: before, in one piece, or as a repetition of the last. -/
inductive Fronted (cs : RtmpChunkStream) (fmt : UInt8) (buf : Bytes) :
    RtmpChunkStream → Bytes → Prop where
  | past (state : cs.state = .payload) : Fronted cs fmt buf cs buf
  | full {cs' : RtmpChunkStream} (headed : cs.Headed fmt buf) (state : cs'.state = .payload)
      (left : cs'.rem = some (if fmt = 2 then cs.len else headerLen (buf.take (headerSize fmt)))) :
      Fronted cs fmt buf cs'
        (buf.drop (frontSize fmt (timeField (buf.take (headerSize fmt)) = 0xffffff)))
  | again {cs' : RtmpChunkStream} {rem : UInt32} (idle : cs.state = .header) (format : fmt = 3)
      (before : cs.rem = some rem) (known : ¬ (rem = 0 ∧ cs.fmt = none))
      (ready : ¬ (cs.ExpectsTime rem buf ∧ buf.length < 4)) (state : cs'.state = .payload)
      (left : cs'.rem = some (cs.remaining rem)) (ext : cs'.extTs = cs.extTs) :
      Fronted cs fmt buf cs' (buf.drop (if cs.ExpectsTime rem buf then 4 else 0))

theorem not_payload (idle : cs.state = .header) : cs.state ≠ .payload := by
  rw [idle]
  decide

theorem Headed.plain (headed : cs.Headed fmt buf) : cs.state ≠ .payload ∧ fmt ≠ 3 := by
  obtain ⟨⟨idle, type⟩, _⟩ := headed
  refine ⟨not_payload idle, ?_⟩
  rcases type with rfl | rfl | rfl <;> decide

theorem readHeader_fronted (read : cs.readHeader fmt buf = .ok (.ok, cs', rest)) :
    cs.Fronted fmt buf cs' rest := by
  have state := readHeader_payload read
  generalize same : (Ret.ok, cs', rest) = result at read
  cases readHeader_cases read with
  | past busy =>
      cases same
      exact .past state
  | @full size assign idle format =>
      have sized := format.sized
      obtain ⟨complete, _⟩ | ⟨_, ext, done⟩ := readFull_cases size assign cs buf
      · obtain ⟨time, ext, done⟩ := readFull_complete cs assign complete
        rw [done] at same
        rw [← sized] at complete
        have front := format.front (timeField (buf.take size) = 0xffffff)
        have left : cs'.rem = some (if fmt = 2 then cs.len else headerLen (buf.take size)) := by
          cases format <;> cases same <;> rfl
        simp only [decide_eq_true_eq] at front
        rw [← sized] at left front
        have ended : rest =
            buf.drop (frontSize fmt (timeField (buf.take (headerSize fmt)) = 0xffffff)) := by
          rw [front, sized]
          exact (congrArg (fun r => r.2.2) same :)
        rw [ended]
        exact .full ⟨⟨idle, format.types⟩, complete⟩ state left
      · rw [done] at same
        cases same
  | @repeated again idle format done =>
      obtain ⟨ret, cs₁, rest₁⟩ := again
      cases same
      cases before : cs.rem with
      | none => simp only [readF3, before, reduceCtorEq] at done
      | some rem =>
          have known : ¬ (rem = 0 ∧ cs.fmt = none) := by
            rintro ⟨rfl, none⟩
            simp only [readF3, before, none, if_true, reduceCtorEq] at done
          by_cases ready : cs.ExpectsTime rem buf ∧ buf.length < 4
          · cases (readF3_early before ready.1 ready.2).symm.trans done
          · obtain ⟨cs₂, taken, left⟩ := readF3_reads before known ready
            have kept : cs₁.extTs = cs.extTs := by
              obtain ⟨_, rfl⟩ | ⟨_, rfl, _⟩ | ⟨_, _, time, rfl⟩ := readF3_cases done <;> rfl
            cases taken.symm.trans done
            exact .again idle format before known ready rfl left kept
  | unknown => cases same

theorem Fronted.chunkSize (fronted : cs.Fronted fmt buf cs' rest) (heard : Heard)
    (announced : UInt32) :
    cs'.chunkSize (heard.note cs fmt buf) announced fmt rest =
      cs.chunkSize heard announced fmt buf := by
  cases fronted with
  | past state =>
      have unheaded : ¬ cs.Headed fmt buf := fun headed => headed.plain.1 state
      rw [heard.note_same unheaded]
  | full headed state left =>
      obtain ⟨busy, type⟩ := headed.plain
      simp only [RtmpChunkStream.chunkSize, state, if_true, left, Option.map_some, busy, type,
        if_false, headed, Heard.note, Option.some.injEq, decide_eq_true_eq]
  | again idle format before known ready state left =>
      have unheaded : ¬ cs.Headed fmt buf := fun headed => headed.plain.2 format
      have busy := not_payload idle
      rw [heard.note_same unheaded]
      simp only [RtmpChunkStream.chunkSize, state, if_true, left, before, Option.map_some, busy,
        format, if_false]

theorem Headed.front (headed : cs.Headed fmt buf) :
    frontSize fmt (timeField (buf.take (headerSize fmt)) = 0xffffff) ≤ buf.length := by
  obtain ⟨enough, extended⟩ := headed.2
  simp only [frontSize, headed.plain.2, if_false, decide_eq_true_eq]
  split
  · next marked => exact extended marked
  · exact enough

theorem Fronted.shorter (fronted : cs.Fronted fmt buf cs' rest) : rest.length ≤ buf.length := by
  cases fronted with
  | past => exact Nat.le_refl _
  | full | again => exact (List.drop_suffix _ buf).length_le

/-- The chunk is as whole as it was: what was read of it counts. -/
theorem Fronted.arrived (fronted : cs.Fronted fmt buf cs' rest) (heard : Heard) (announced : UInt32)
    (taken : Nat) :
    cs'.Arrived (heard.note cs fmt buf) announced fmt (taken + (buf.length - rest.length)) rest ↔
      cs.Arrived heard announced fmt taken buf := by
  have shorter := fronted.shorter
  have all : taken + (buf.length - rest.length) + rest.length = taken + buf.length := by omega
  rw [Arrived, Arrived, fronted.chunkSize heard announced, all]

theorem Fronted.wants (fronted : cs.Fronted fmt buf cs' rest) (maxChunkSize : UInt32) :
    cs'.Wants maxChunkSize fmt rest ↔ cs.Wants maxChunkSize fmt buf := by
  cases fronted with
  | past => rfl
  | full headed state left =>
      obtain ⟨busy, type⟩ := headed.plain
      have front := headed.front
      simp only [Wants, wanted, state, if_true, left, Option.map_some, busy, type, if_false, headed,
        Option.mem_some_iff, exists_eq_left', List.length_drop]
      omega
  | @again cs' rem idle format before known ready state left =>
      have busy := not_payload idle
      have front : (if cs.ExpectsTime rem buf then 4 else 0) ≤ buf.length := by
        split
        · next expects => exact Nat.not_lt.mp fun short => ready ⟨expects, short⟩
        · exact Nat.zero_le _
      simp only [Wants, wanted, state, if_true, left, before, Option.map_some, busy, format,
        if_false, Option.bind_some, known, Option.mem_some_iff, exists_eq_left', List.length_drop]
      omega

theorem Headed.reads (headed : cs.Headed fmt buf) :
    ∃ cs' rest, cs.readHeader fmt buf = .ok (.ok, cs', rest) := by
  obtain ⟨⟨idle, type⟩, complete⟩ := headed
  obtain ⟨zero, one, two, _⟩ := readHeader_idle idle buf
  have read : ∀ {size assign}, FullFormat fmt size assign →
      cs.readHeader fmt buf = .ok (entered fmt (readFull size assign cs buf)) →
      ∃ cs' rest, cs.readHeader fmt buf = .ok (.ok, cs', rest) := by
    intro size assign format header
    rw [format.sized] at complete
    obtain ⟨_, _, done⟩ := readFull_complete cs assign complete
    rw [done] at header
    exact ⟨_, _, header⟩
  rcases type with rfl | rfl | rfl
  · exact read .f0 zero
  · exact read .f1 one
  · exact read .f2 two

theorem readF3_more (read : cs.readF3 buf = .ok (.more, cs', rest)) :
    cs' = cs ∧ rest = buf ∧ buf.length < 4 ∧ ∃ rem, cs.rem = some rem ∧
      ¬ (rem = 0 ∧ cs.fmt = none) ∧ cs.ExpectsTime rem buf := by
  cases before : cs.rem with
  | none => simp only [readF3, before, reduceCtorEq] at read
  | some rem =>
      have known : ¬ (rem = 0 ∧ cs.fmt = none) := by
        rintro ⟨rfl, none⟩
        simp only [readF3, before, none, if_true, reduceCtorEq] at read
      by_cases waits : cs.ExpectsTime rem buf ∧ buf.length < 4
      · cases (readF3_early before waits.1 waits.2).symm.trans read
        exact ⟨rfl, rfl, waits.2, rem, rfl, known, waits.1⟩
      · obtain ⟨_, done, _⟩ := readF3_reads before known waits
        cases done.symm.trans read

/-- Where the header waits, nothing is read; and if the chunk is whole for all that, the reader
    wants a time. -/
theorem readHeader_waits (read : cs.readHeader fmt buf = .ok (.more, cs', rest)) :
    rest = buf ∧ cs.state = .header ∧ cs'.state = .header ∧ ∀ heard announced taken,
      (cs'.Arrived (heard.note cs fmt buf) announced fmt taken buf ↔
        cs.Arrived heard announced fmt taken buf) ∧
      (cs.Arrived heard announced fmt taken buf → ∀ n, cs.Wants n fmt buf) := by
  generalize same : (Ret.more, cs', rest) = result at read
  cases readHeader_cases read with
  | past | unknown => cases same
  | @full size assign idle format =>
      obtain ⟨complete, _⟩ | ⟨incomplete, ext, done⟩ := readFull_cases size assign cs buf
      · obtain ⟨_, _, done⟩ := readFull_complete cs assign complete
        rw [done] at same
        cases same
      · rw [done] at same
        cases same
        have type : fmt ≠ 3 := by cases format <;> decide
        have busy := not_payload idle
        have unheaded : ∀ {cs : RtmpChunkStream}, ¬ cs.Headed fmt buf := by
          intro cs headed
          have complete := headed.2
          rw [format.sized] at complete
          exact incomplete complete
        have none : ∀ heard announced taken, ¬ cs.Arrived heard announced fmt taken buf := by
          rintro heard announced taken ⟨n, known, _⟩
          simp only [chunkSize, busy, type, unheaded, if_false, Option.not_mem_none] at known
        refine ⟨rfl, idle, idle, fun heard announced taken => ⟨iff_of_false ?_ (none _ _ _), ?_⟩⟩
        · rintro ⟨n, known, _⟩
          simp only [reduceCtorEq, if_false, chunkSize, busy, type, unheaded,
            Option.not_mem_none] at known
        · exact fun whole => absurd whole (none _ _ _)
  | @repeated again idle format done =>
      obtain ⟨ret, cs₁, rest₁⟩ := again
      cases same
      obtain ⟨rfl, rfl, short, rem, before, known, expects⟩ := readF3_more done
      have busy := not_payload idle
      have unheaded : ∀ b, ¬ cs₁.Headed fmt b := fun _ headed => headed.plain.2 format
      refine ⟨rfl, idle, idle, fun heard announced taken => ⟨?_, fun _ n => ?_⟩⟩
      · rw [heard.note_same (unheaded _)]
        simp only [Arrived, chunkSize, reduceCtorEq, if_false, busy, format, if_true,
          remaining]
      · refine ⟨4 + pieceSize n (cs₁.remaining rem), ?_,
          Nat.lt_of_lt_of_le short (Nat.le_add_right 4 _)⟩
        simp only [wanted, busy, format, if_true, if_false, before, Option.bind_some, known,
          expects, Option.mem_some_iff]

end Header

section Chunk

variable {cs cs' : RtmpChunkStream} {n : UInt32} {fmt : UInt8} {buf rest : Bytes}

/-- Where the reader waits, the chunk is as whole as it was; and if it is whole, then the reader
    wanted more than that. -/
theorem readOn_waits (read : cs.readOn n fmt buf = .ok (.more, cs', rest)) (heard : Heard)
    (announced : UInt32) (taken : Nat) :
    (cs'.Arrived (heard.note cs fmt buf) announced fmt (taken + (buf.length - rest.length)) rest ↔
        cs.Arrived heard announced fmt taken buf) ∧
      (cs.Arrived heard announced fmt taken buf → cs.Wants n fmt buf) := by
  obtain ⟨⟨ret, cs₁, rest₁⟩, header, body⟩ := bind_ok.mp read
  by_cases done : ret = .ok
  · subst done
    have fronted := readHeader_fronted header
    have state := readHeader_payload header
    simp only [ne_eq, not_true_eq_false, if_false] at body
    cases left : cs₁.rem with
    | none =>
        simp only [readPayload, state, left, ne_eq, not_true_eq_false, if_false, reduceCtorEq]
          at body
    | some rem =>
        rw [readPayload_eq state left] at body
        split at body <;> cases body
        next short =>
        refine ⟨fronted.arrived heard announced taken, fun _ => (fronted.wants n).mp ?_⟩
        refine ⟨pieceSize n rem, ?_, by rwa [asked_pieceSize] at short⟩
        simp only [wanted, state, if_true, left, Option.map_some, Option.mem_some_iff]
  · simp only [ne_eq, done, not_false_eq_true, if_true] at body
    cases body
    obtain ⟨rfl, _, _, waits⟩ := readHeader_waits header
    rw [Nat.sub_self, Nat.add_zero]
    exact ⟨(waits heard announced taken).1, fun whole => (waits heard announced taken).2 whole n⟩

theorem readOn_wants (wants : cs.Wants n fmt buf) :
    ∃ cs' rest, cs.readOn n fmt buf = .ok (.more, cs', rest) := by
  have header : ∃ ret cs' rest, cs.readHeader fmt buf = .ok (ret, cs', rest) ∧
      (ret = .more ∨ ret = .ok) := by
    obtain ⟨m, known, _⟩ := wants
    unfold wanted at known
    by_cases busy : cs.state = .payload
    · exact ⟨.ok, cs, buf, by simp [readHeader, busy, pure, Except.pure], .inr rfl⟩
    have idle : cs.state = .header := by
      cases state : cs.state with
      | header => rfl
      | payload => exact absurd state busy
    rw [if_neg busy] at known
    split at known
    · next type =>
      subst type
      obtain ⟨rem, before, known⟩ := Option.bind_eq_some_iff.mp known
      obtain ⟨_, _, _, three⟩ := readHeader_idle idle buf
      have started : ¬ (rem = 0 ∧ cs.fmt = none) := fun unknown => by
        rw [if_pos unknown] at known
        cases known
      by_cases waits : cs.ExpectsTime rem buf ∧ buf.length < 4
      · rw [readF3_early before waits.1 waits.2] at three
        exact ⟨.more, _, _, three, .inl rfl⟩
      · obtain ⟨cs', read, _⟩ := readF3_reads before started waits
        rw [read] at three
        exact ⟨.ok, _, _, three, .inr rfl⟩
    · split at known
      · next headed =>
        obtain ⟨cs', rest, read⟩ := headed.reads
        exact ⟨.ok, cs', rest, read, .inr rfl⟩
      · cases known
  obtain ⟨ret, cs₁, rest, header, rfl | rfl⟩ := header
  · exact ⟨cs₁, rest, by simp [readOn, header, bind, Except.bind, pure, Except.pure]⟩
  · have fronted := readHeader_fronted header
    obtain ⟨m, known, short⟩ := (fronted.wants n).mpr wants
    have state := readHeader_payload header
    rw [wanted, if_pos state, Option.mem_map] at known
    obtain ⟨rem, left, rfl⟩ := known
    have waits := readPayload_eq state left n rest
    rw [asked_pieceSize, if_pos short] at waits
    exact ⟨cs₁, rest, by simp [readOn, header, waits, bind, Except.bind]⟩

theorem expects_front (cs : RtmpChunkStream) (heard : Heard) (fmt : UInt8) (rem : UInt32)
    (buf : Bytes) (timed : ¬ (cs.extTs = true ∧ heard.mark ≠ some true)) :
    (if cs.ExpectsTime rem buf then 4 else 0) ≤ frontSize fmt (heard.mark = some true) := by
  split
  · next expects =>
    have marked : heard.mark = some true := by
      by_contra unmarked
      exact timed ⟨expects.1, unmarked⟩
    simp only [frontSize, marked, decide_true, if_true]
    exact Nat.le_add_left 4 _
  · exact Nat.zero_le _

/-- A reader that wants more than the whole chunk is wrong about the time or about the size. -/
theorem Framed.stale {heard : Heard} {announced : UInt32} {taken : Nat}
    (framed : cs.Framed heard fmt taken) (whole : cs.Arrived heard announced fmt taken buf)
    (wants : cs.Wants n fmt buf) : cs.Stale heard announced n fmt := by
  obtain ⟨m, size, enough⟩ := whole
  obtain ⟨k, wanted, short⟩ := wants
  by_contra fresh
  simp only [Stale, not_or, UInt32.not_lt, UInt32.le_iff_toNat_le] at fresh
  obtain ⟨timed, cut⟩ := fresh
  have smaller : ∀ left, pieceSize n left ≤ pieceSize announced left := by
    intro left
    unfold pieceSize
    omega
  unfold Framed at framed
  unfold chunkSize at size
  unfold RtmpChunkStream.wanted at wanted
  by_cases busy : cs.state = .payload
  · rw [if_pos busy] at framed size wanted
    obtain ⟨left, before, rfl⟩ := Option.mem_map.mp size
    rw [before] at wanted
    cases wanted
    have piece := smaller left
    have front := framed.resolve_right timed
    omega
  · rw [if_neg busy] at framed size wanted
    split at size
    · next type =>
      rw [if_pos type] at wanted
      obtain ⟨rem, before, rfl⟩ := Option.mem_map.mp size
      rw [before, Option.bind_some] at wanted
      split at wanted
      · cases wanted
      · cases wanted
        have piece := smaller (cs.remaining rem)
        have front := cs.expects_front heard fmt rem buf fun looks => timed ⟨type, looks⟩
        omega
    · next type =>
      rw [if_neg type] at wanted
      split at size
      · next headed =>
        rw [if_pos headed] at wanted
        cases size
        cases wanted
        have piece := smaller (if fmt = 2 then cs.len else headerLen (buf.take (headerSize fmt)))
        omega
      · cases size

theorem Framed.waits {heard : Heard} {taken : Nat} (framed : cs.Framed heard fmt taken)
    (read : cs.readOn n fmt buf = .ok (.more, cs', rest)) :
    cs'.Framed (heard.note cs fmt buf) fmt (taken + (buf.length - rest.length)) := by
  obtain ⟨⟨ret, cs₁, rest₁⟩, header, body⟩ := bind_ok.mp read
  by_cases done : ret = .ok
  · subst done
    simp only [ne_eq, not_true_eq_false, if_false] at body
    obtain ⟨rfl, rfl⟩ : cs' = cs₁ ∧ rest = rest₁ := by
      have state := readHeader_payload header
      unfold readPayload at body
      grind
    have idle : cs.state = .header → taken = 0 := fun idle => by
      rw [Framed, if_neg (not_payload idle)] at framed
      exact framed
    cases readHeader_fronted header with
    | past state =>
        rwa [heard.note_same fun headed => headed.plain.1 state, Nat.sub_self]
    | full headed state =>
        rw [Framed, if_pos state, idle headed.1.1, List.length_drop, Heard.note, if_pos headed]
        refine .inl ?_
        simp only [Option.some.injEq, decide_eq_true_eq]
        omega
    | @again _ rem before type _ _ _ state _ ext =>
        have unheaded : ¬ cs.Headed fmt buf := fun headed => headed.plain.2 type
        rw [Framed, if_pos state, idle before, heard.note_same unheaded, List.length_drop, ext]
        by_cases timed : cs.extTs = true ∧ heard.mark ≠ some true
        · exact .inr ⟨type, timed⟩
        · refine .inl ?_
          have front := cs.expects_front heard fmt rem buf timed
          omega
  · simp only [ne_eq, done, not_false_eq_true, if_true] at body
    cases body
    obtain ⟨rfl, idle, still, _⟩ := readHeader_waits header
    rw [Framed, if_neg (not_payload idle)] at framed
    rw [Framed, if_neg (not_payload still), framed, Nat.sub_self]

end Chunk

end RtmpChunkStream

/-- What the bytes so far say of the chunks to come: what was heard of every chunk stream, and how
    much of the chunk in progress is taken, behind its basic header. -/
structure Framing where
  heard : UInt16 → Heard := fun _ => {}
  taken : Nat := 0

namespace RtmpSession

def begun (s : RtmpSession) (framing : Framing) : Nat := if s.headerRead then framing.taken else 0

/-- The notes once a chunk is read, or as far as it is there. -/
def frame (s : RtmpSession) (framing : Framing) (buf : Bytes) : Framing :=
  match s.readChunkStream buf with
  | .ok (_, _, rest) =>
      { heard := s.hear framing.heard buf
        taken := s.begun framing + ((s.readBasicHeader buf).2.length - rest.length) }
  | .error _ => framing

/-- The buffer holds all of the next chunk, or all that is left of the one in progress. -/
def HoldsChunk (s : RtmpSession) (framing : Framing) (announced : UInt32) (buf : Bytes) : Prop :=
  (s.headerRead = true ∨ buf ≠ []) ∧
    let front := (s.readBasicHeader buf).1
    front.current.Arrived (front.known framing.heard) announced front.fmt (s.begun framing)
      (s.readBasicHeader buf).2

/-- It does, and the reader waits for more. -/
def Starves (s : RtmpSession) (framing : Framing) (announced : UInt32) (buf : Bytes) : Prop :=
  s.HoldsChunk framing announced buf ∧
    let front := (s.readBasicHeader buf).1
    front.current.Stale (front.known framing.heard) announced s.maxChunkSize front.fmt ∧
      front.current.Wants s.maxChunkSize front.fmt (s.readBasicHeader buf).2

instance (s : RtmpSession) (framing : Framing) (announced : UInt32) (buf : Bytes) :
    Decidable (s.HoldsChunk framing announced buf) :=
  inferInstanceAs (Decidable ((_ ∨ _) ∧ RtmpChunkStream.Arrived ..))

instance (s : RtmpSession) (framing : Framing) (announced : UInt32) (buf : Bytes) :
    Decidable (s.Starves framing announced buf) :=
  inferInstanceAs (Decidable (_ ∧ RtmpChunkStream.Stale .. ∧ RtmpChunkStream.Wants ..))

/-- The notes fit the chunk in progress. -/
def Framed (s : RtmpSession) (framing : Framing) : Prop :=
  s.headerRead = true → s.current.Framed (s.known framing.heard) s.fmt framing.taken

section Chunk

variable {s s' : RtmpSession} {framing : Framing} {announced : UInt32} {buf rest : Bytes}

theorem Framed.front (framed : s.Framed framing) (buf : Bytes) :
    (s.readBasicHeader buf).1.current.Framed ((s.readBasicHeader buf).1.known framing.heard)
      (s.readBasicHeader buf).1.fmt (s.begun framing) := by
  cases read : s.headerRead with
  | true =>
      rw [readBasicHeader_done read, begun, if_pos read]
      exact framed read
  | false =>
      rw [begun, read, if_neg nofun]
      unfold RtmpChunkStream.Framed
      split
      · exact .inl (Nat.zero_le _)
      · rfl

theorem readBasicHeader_size (s : RtmpSession) (buf : Bytes) :
    (s.readBasicHeader buf).1.maxChunkSize = s.maxChunkSize := by
  unfold readBasicHeader
  split <;> rfl

theorem setCurrent_framed (read : s.headerRead = true) (cs : RtmpChunkStream)
    (heard : UInt16 → Heard) (h : Heard) (taken : Nat) (announced : UInt32) (rest : Bytes) :
    ((s.setCurrent cs).Framed ⟨Function.update heard s.csid h, taken⟩ ↔ cs.Framed h s.fmt taken) ∧
      ((s.setCurrent cs).HoldsChunk ⟨Function.update heard s.csid h, taken⟩ announced rest ↔
        cs.Arrived h announced s.fmt taken rest) := by
  have still : (s.setCurrent cs).headerRead = true := read
  have known : (s.setCurrent cs).known (Function.update heard s.csid h) = h := by
    simp only [RtmpSession.known, setCurrent, Function.update_self, Option.isNone_some,
      Bool.false_eq_true, if_false]
  constructor
  · simp only [Framed, still, known, setCurrent_current, forall_const]
    rfl
  · simp only [HoldsChunk, readBasicHeader_done still, still, begun, known, setCurrent_current,
      true_or, true_and, if_true]
    rfl

/-- Where the reader waits, the chunk it waits on is whole exactly if the reader starves. -/
theorem readChunkStream_waits (some : buf ≠ []) (framed : s.Framed framing)
    (read : s.readChunkStream buf = .ok (.more, s', rest)) (announced : UInt32) :
    s'.Framed (s.frame framing buf) ∧
      (s'.HoldsChunk (s.frame framing buf) announced rest ↔ s.Starves framing announced buf) := by
  have front := framed.front buf
  have head := (s.readBasicHeader_read buf).1
  have size := s.readBasicHeader_size buf
  have through := s.readChunkStream_readOn some
  cases body : (s.readBasicHeader buf).1.current.readOn (s.readBasicHeader buf).1.maxChunkSize
      (s.readBasicHeader buf).1.fmt (s.readBasicHeader buf).2 with
  | error f =>
      simp only [body, Except.map] at through
      cases through.symm.trans read
  | ok result =>
      obtain ⟨ret, cs, rest'⟩ := result
      simp only [body, Except.map, afterPayload] at through
      have same := through.symm.trans read
      simp only [Except.ok.injEq, Prod.mk.injEq] at same
      obtain ⟨rfl, stored, rfl⟩ := same
      have stored : s' = (s.readBasicHeader buf).1.setCurrent cs := stored.symm
      obtain ⟨whole, wants⟩ := RtmpChunkStream.readOn_waits body
        ((s.readBasicHeader buf).1.known framing.heard) announced (s.begun framing)
      obtain ⟨framed', holds⟩ := setCurrent_framed head cs framing.heard
        (((s.readBasicHeader buf).1.known framing.heard).note (s.readBasicHeader buf).1.current
          (s.readBasicHeader buf).1.fmt (s.readBasicHeader buf).2)
        (s.begun framing + ((s.readBasicHeader buf).2.length - rest'.length)) announced rest'
      simp only [frame, read, hear]
      rw [stored]
      refine ⟨framed'.mpr (front.waits body), holds.trans (whole.trans ?_)⟩
      rw [size] at wants
      have filled : s.headerRead = true ∨ buf ≠ [] := .inr some
      constructor
      · exact fun all => ⟨⟨filled, all⟩, front.stale all (wants all), wants all⟩
      · exact fun starves => starves.1.2

theorem Starves.waits (starves : s.Starves framing announced buf) (some : buf ≠ []) :
    ∃ s' rest, s.readChunkStream buf = .ok (.more, s', rest) := by
  have wants := starves.2.2
  rw [← s.readBasicHeader_size buf] at wants
  obtain ⟨cs, rest, body⟩ := RtmpChunkStream.readOn_wants wants
  rw [s.readChunkStream_readOn some, body]
  exact ⟨_, _, rfl⟩

end Chunk

end RtmpSession

namespace Server

open Feed

/-- The chunk size that the peer of `x` announced last. -/
def announced (srv : Server) (x : SessionId) : UInt32 := Event.lastSize (Event.sizeFrom x) srv.log

/-- A round of the loop and the notes about `x`. -/
def noted (env : Env) (x : SessionId) : Server × Framing → Bytes → Turn (Server × Framing) UInt8 :=
  noting (Server.turn env x) fun framing srv buf => (srv.sessions x).frame framing buf

/-- In one of its rounds the loop starves. -/
def Starves (env : Env) (x : SessionId) (srv : Server) (framing : Framing) (buf : Bytes) : Prop :=
  ∃ round out, Visits (noted env x) (srv, framing) buf round out ∧
    (round.1.sessions x).Starves round.2 (round.1.announced x) out

variable {env : Env} {x : SessionId} {srv : Server} {framing : Framing} {buf : Bytes}

theorem noted_drains (env : Env) (x : SessionId) (srv : Server) (framing : Framing) (buf : Bytes) :
    ∃ d, drain (noted env x) (srv.loopSize x buf + 1) (srv, framing) buf = d ∧
      Drains (noted env x) (srv, framing) buf d ∧
      drain (Server.turn env x) (srv.loopSize x buf + 1) srv buf =
        ⟨d.halted, d.state.1, d.rest⟩ := by
  refine ⟨_, rfl, ?_, drain_noting _ (srv, framing) buf⟩
  exact drains_drain (fun round => round.1.loopSize x)
    (fun _ _ _ _ some turned => turn_progress some (noting_next turned)) _ _ _ (Nat.lt_succ_self _)

theorem starves_turn (some : buf ≠ []) {announced : UInt32}
    (starves : (srv.sessions x).Starves framing announced buf) :
    ∃ srv' rest, srv.turn env x buf = .more srv' rest := by
  obtain ⟨s, rest, read⟩ := starves.waits some
  refine ⟨srv.set x s, rest, ?_⟩
  simp only [turn, parse, read]

/-- The loop leaves notes that fit, and ends with a whole chunk in the buffer exactly if it
    starves. -/
theorem drains_starves {round : Server × Framing} {d : Drained (Server × Framing) UInt8}
    (drains : Drains (noted env x) round buf d) (framed : (round.1.sessions x).Framed round.2)
    (begun : buf = [] → (round.1.sessions x).headerRead = false) :
    (d.halted = false → (d.state.1.sessions x).Framed d.state.2) ∧
      (Starves env x round.1 round.2 buf ↔ d.halted = false ∧
        (d.state.1.sessions x).HoldsChunk d.state.2 (d.state.1.announced x) d.rest) := by
  induction drains with
  | empty round =>
      refine ⟨fun _ => framed, iff_of_false ?_ ?_⟩
      · rintro ⟨_, _, visits, _⟩
        cases visits with
        | here some | next some => exact some rfl
      · rintro ⟨_, read | some, _⟩
        · rw [begun rfl] at read
          cases read
        · exact some rfl
  | @more round buf round' rest some turned =>
      obtain ⟨turned', note⟩ := noting_more turned
      obtain ⟨s, read, same⟩ := turn_more turned'
      have waits := RtmpSession.readChunkStream_waits some framed read (round.1.announced x)
      have log : round'.1.announced x = round.1.announced x := by
        rw [same]
        rfl
      rw [log, note, same, set_sessions]
      refine ⟨fun _ => waits.1, ?_⟩
      rw [eq_self_iff_true, true_and, waits.2]
      constructor
      · rintro ⟨_, _, visits, starves⟩
        cases visits with
        | here => exact starves
        | next _ again => cases turned.symm.trans again
      · exact fun starves => ⟨round, buf, .here some, starves⟩
  | @halt round buf round' rest some turned =>
      refine ⟨nofun, iff_of_false ?_ (fun both => absurd both.1 nofun)⟩
      rintro ⟨_, _, visits, starves⟩
      cases visits with
      | here =>
          obtain ⟨_, _, waits⟩ := starves_turn some starves
          cases (noting_halt turned).symm.trans waits
      | next _ again => cases turned.symm.trans again
  | @next round buf round' rest d some turned _ ih =>
      have turned' := noting_next turned
      have between := turn_headerRead some turned'
      have later := ih (fun read => absurd (between.symm.trans read) nofun) fun _ => between
      refine ⟨later.1, Iff.trans ⟨?_, ?_⟩ later.2⟩
      · rintro ⟨last, out, visits, starves⟩
        cases visits with
        | here =>
            obtain ⟨_, _, waits⟩ := starves_turn some starves
            cases turned'.symm.trans waits
        | next _ again after =>
            cases turned.symm.trans again
            exact ⟨last, out, after, starves⟩
      · rintro ⟨last, out, visits, starves⟩
        exact ⟨last, out, .next some turned visits, starves⟩

end Server

end DroneServer
