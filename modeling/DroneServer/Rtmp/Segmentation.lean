import DroneServer.Rtmp.Peer
import DroneServer.Rtmp.View

/-! # Reads do not depend on how the bytes are cut

Reading a chunk goes through three waits: for the message header, for the
payload, and before them for the first byte. Each asks for a number of bytes that
is known beforehand, as long as no extended time is involved, and a wait is taken
up again exactly where it was left. So the receive loop is a resumable consumer,
and what a session does with a byte string does not depend on the reads in which
the string arrives.
-/

namespace DroneServer

namespace RtmpChunkStream

/-- The next message header is all there, and its time field is the mark of an extended time. -/
def Marked (cs : RtmpChunkStream) (fmt : UInt8) (buf : Bytes) : Prop :=
  cs.state = .header ∧ fmt ≠ 3 ∧ headerSize fmt ≤ buf.length ∧
    timeField (buf.take (headerSize fmt)) = 0xffffff

instance (cs : RtmpChunkStream) (fmt : UInt8) (buf : Bytes) : Decidable (cs.Marked fmt buf) :=
  inferInstanceAs (Decidable (_ ∧ _ ∧ _ ∧ _))

theorem readFull_sized {size : Nat} (assign : Bytes → UInt32 → RtmpChunkStream → RtmpChunkStream)
    (cs : RtmpChunkStream) {buf : Bytes}
    (plain : size ≤ buf.length → timeField (buf.take size) ≠ 0xffffff) :
    readFull size assign cs buf =
      if buf.length < size then (.more, cs, buf)
      else (.ok, assign (buf.take size) (timeField (buf.take size)) cs, buf.drop size) := by
  by_cases short : buf.length < size
  · simp only [readFull, short, if_true]
  · have mark := plain (Nat.not_lt.mp short)
    have unmarked := mark
    unfold timeField at unmarked
    simp only [readFull, short, if_false, unmarked]
    rfl

/-- How `read_header` reads when no extended time is around: it fails or stops whatever the input
    is, or it waits for a number of bytes and leaves a memory that depends on these bytes only. -/
inductive Reads (cs : RtmpChunkStream) (fmt : UInt8) : Prop where
  | fault (f : Fault) (always : ∀ buf, cs.readHeader fmt buf = .error f)
  | refused (cs' : RtmpChunkStream) (noExt : cs'.extTs = false)
      (always : ∀ buf, cs.readHeader fmt buf = .ok (.fail, cs', buf))
  | sized (need : Nat) (wait : RtmpChunkStream) (done : Bytes → RtmpChunkStream)
      (noExt : wait.extTs = false ∧ ∀ mh, (done mh).extTs = false)
      (payload : ∀ mh, (done mh).state = .payload)
      (assigned : need ≠ 0 → ∀ mh, (done mh).rem.isSome)
      (resumes : ∀ buf, wait.readHeader fmt buf = cs.readHeader fmt buf)
      (unmarked : ∀ buf, cs.Marked fmt buf ↔ wait.Marked fmt buf)
      (plain : ∀ buf, ¬ cs.Marked fmt buf → cs.readHeader fmt buf =
        if buf.length < need then .ok (.more, wait, buf)
        else .ok (.ok, done (buf.take need), buf.drop need))

theorem Reads.at_once {cs cs' : RtmpChunkStream} {fmt : UInt8}
    (always : ∀ buf, cs.readHeader fmt buf = .ok (.ok, cs', buf)) (noExt : cs.extTs = false)
    (noExt' : cs'.extTs = false) (payload : cs'.state = .payload) : cs.Reads fmt :=
  .sized 0 cs (fun _ => cs') ⟨noExt, fun _ => noExt'⟩ (fun _ => payload) (absurd rfl)
    (fun _ => rfl) (fun _ => .rfl) (fun buf _ => always buf)

theorem Reads.full {cs : RtmpChunkStream} {fmt : UInt8} (noExt : cs.extTs = false)
    (idle : cs.state = .header) (small : fmt ≠ 3)
    (assign : Bytes → UInt32 → RtmpChunkStream → RtmpChunkStream)
    (keeps : ∀ mh time cs, (assign mh time cs).extTs = cs.extTs)
    (assigns : ∀ mh time cs, (assign mh time cs).rem.isSome)
    (forgets : ∀ mh time ext, { assign mh time { cs with extTs := ext, fmt := some fmt } with
      fmt := some fmt } = { assign mh time { cs with extTs := ext } with fmt := some fmt })
    (header : ∀ cs' : RtmpChunkStream, cs'.state = .header → ∀ buf,
      cs'.readHeader fmt buf = .ok (entered fmt (readFull (headerSize fmt) assign cs' buf))) :
    cs.Reads fmt := by
  refine .sized (headerSize fmt) { cs with fmt := some fmt }
    (fun mh => { assign mh (timeField mh) cs with fmt := some fmt, state := .payload })
    ⟨noExt, fun mh => (keeps mh _ cs).trans noExt⟩ (fun _ => rfl) (fun _ mh => assigns mh _ cs)
    (fun buf => ?_) (fun _ => .rfl) fun buf unmarked => ?_
  · refine (header { cs with fmt := some fmt } idle buf).trans
      (Eq.trans ?_ (header cs idle buf).symm)
    congr 1
    unfold readFull
    simp only
    split
    · rfl
    split
    · split
      · rfl
      · exact congrArg (fun c : RtmpChunkStream => (Ret.ok, { c with state := .payload }, _))
          (forgets _ _ true)
    · exact congrArg (fun c : RtmpChunkStream => (Ret.ok, { c with state := .payload }, _))
        (forgets _ _ cs.extTs)
  · rw [header _ idle, readFull_sized assign cs fun enough mark =>
      unmarked ⟨idle, small, enough, mark⟩]
    split <;> rfl

/-- A header of type 3 needs no byte: it goes on, starts a message afresh, or reads a field nothing
    has assigned. -/
theorem Reads.repeated {cs : RtmpChunkStream} (noExt : cs.extTs = false) (idle : cs.state = .header) :
    cs.Reads 3 := by
  have header := fun buf => (readHeader_idle idle buf).2.2.2
  cases left : cs.rem with
  | none =>
      refine .fault .uninitialised fun buf => ?_
      rw [header, readF3, left]
      rfl
  | some rem =>
      by_cases done : rem = 0
      · cases last : cs.fmt with
        | none =>
            refine .fault .uninitialised fun buf => ?_
            rw [header, readF3, left]
            simp only [done, if_true, last]
            rfl
        | some fmt =>
            subst done
            have restarts : ∀ buf, cs.readHeader 3 buf =
                .ok (.ok, { cs.restart (MessageHeader.repeatedTime cs) with
                  fmt := some 3, state := .payload }, buf) := by
              intro buf
              rw [header, readF3_plain noExt left last, if_pos left]
              rfl
            exact .at_once restarts noExt noExt rfl
      · have continues : ∀ buf, cs.readHeader 3 buf =
            .ok (.ok, { cs with fmt := some 3, state := .payload }, buf) := by
          intro buf
          have read : cs.readF3 buf = .ok (.ok, cs, buf) := by
            simp only [readF3, left, done, if_false, noExt, Bool.false_eq_true]
          rw [header, read]
          rfl
        exact .at_once continues noExt noExt rfl

theorem reads {cs : RtmpChunkStream} (noExt : cs.extTs = false) (fmt : UInt8) : cs.Reads fmt := by
  by_cases idle : cs.state = .header
  · by_cases is0 : fmt = 0
    · subst is0
      exact .full noExt idle (by decide) assignF0 (fun _ _ _ => rfl) (fun _ _ _ => rfl)
        (fun _ _ _ => rfl) fun cs' idle' buf => (readHeader_idle idle' buf).1
    by_cases is1 : fmt = 1
    · subst is1
      exact .full noExt idle (by decide) assignF1 (fun _ _ _ => rfl) (fun _ _ _ => rfl)
        (fun _ _ _ => rfl) fun cs' idle' buf => (readHeader_idle idle' buf).2.1
    by_cases is2 : fmt = 2
    · subst is2
      exact .full noExt idle (by decide) assignF2 (fun _ _ _ => rfl) (fun _ _ _ => rfl)
        (fun _ _ _ => rfl) fun cs' idle' buf => (readHeader_idle idle' buf).2.2.1
    by_cases is3 : fmt = 3
    · subst is3
      exact .repeated noExt idle
    · exact .refused { cs with fmt := some fmt } noExt fun buf =>
        readHeader_other idle ⟨is0, is1, is2, is3⟩ buf
  · have busy : cs.state = .payload := by
      cases state : cs.state with
      | header => exact absurd state idle
      | payload => rfl
    refine .at_once (fun buf => ?_) noExt noExt busy
    simp only [readHeader, busy, ne_eq, reduceCtorEq, not_false_eq_true, if_true]
    rfl

theorem Marked.append {cs : RtmpChunkStream} {fmt : UInt8} {now : Bytes}
    (marked : cs.Marked fmt now) (later : Bytes) : cs.Marked fmt (now ++ later) := by
  obtain ⟨idle, small, enough, mark⟩ := marked
  refine ⟨idle, small, ?_, ?_⟩
  · rw [List.length_append]
    omega
  · rwa [List.take_append_of_le_length enough]

end RtmpChunkStream

namespace RtmpSession

open RtmpChunkStream

/-- `read_chunk_stream` once the basic header is read. -/
def readBody (s : RtmpSession) (buf : Bytes) : Except Fault (Ret × RtmpSession × Bytes) := do
  let (ret, cs, buf) ← s.current.readHeader s.fmt buf
  if ret ≠ .ok then pure (ret, s.setCurrent cs, buf)
  else
    let (ret, cs, buf) ← cs.readPayload s.maxChunkSize buf
    let s := s.setCurrent cs
    pure (ret, if ret = .ok then { s with headerRead := false } else s, buf)

theorem readChunkStream_body (s : RtmpSession) {buf : Bytes} (some : buf ≠ []) :
    s.readChunkStream buf = (s.readBasicHeader buf).1.readBody (s.readBasicHeader buf).2 := by
  have filled : ¬ buf.length < 1 := by
    have := List.length_pos_iff.mpr some
    omega
  rw [readChunkStream, if_neg filled]
  rfl

@[simp] theorem setCurrent_current (s : RtmpSession) (cs : RtmpChunkStream) :
    (s.setCurrent cs).current = cs := by
  simp only [current, setCurrent, Function.update_self, Option.getD_some]

@[simp] theorem setCurrent_setCurrent (s : RtmpSession) (cs cs' : RtmpChunkStream) :
    (s.setCurrent cs).setCurrent cs' = s.setCurrent cs' := by
  simp only [setCurrent, Function.update_idem]

@[simp] theorem setCurrent_fmt (s : RtmpSession) (cs : RtmpChunkStream) :
    (s.setCurrent cs).fmt = s.fmt := rfl

@[simp] theorem setCurrent_maxChunkSize (s : RtmpSession) (cs : RtmpChunkStream) :
    (s.setCurrent cs).maxChunkSize = s.maxChunkSize := rfl

/-- What becomes of the session when its payload is read. -/
def afterPayload (s : RtmpSession) (read : Ret × RtmpChunkStream × Bytes) :
    Ret × RtmpSession × Bytes :=
  (read.1, { s.setCurrent read.2.1 with
    headerRead := if read.1 = .ok then false else s.headerRead }, read.2.2)

theorem readBody_payload {s : RtmpSession} {cs : RtmpChunkStream} {buf rest : Bytes}
    (header : s.current.readHeader s.fmt buf = .ok (.ok, cs, rest)) :
    s.readBody buf = (cs.readPayload s.maxChunkSize rest).map s.afterPayload := by
  simp only [readBody, header]
  cases read : cs.readPayload s.maxChunkSize rest with
  | error f => simp [read, bind, Except.bind, Except.map]
  | ok result =>
      obtain ⟨ret, cs', rest'⟩ := result
      by_cases done : ret = .ok <;>
        simp [read, done, afterPayload, setCurrent, bind, Except.bind, Except.map, pure, Except.pure]

/-- No chunk stream of the session has seen an extended time. -/
def Unextended (s : RtmpSession) : Prop := ∀ csid, (s.memory csid).extTs = false

theorem Unextended.setCurrent {s : RtmpSession} (unextended : s.Unextended) {cs : RtmpChunkStream}
    (noExt : cs.extTs = false) : (s.setCurrent cs).Unextended := by
  intro csid
  by_cases same : csid = s.csid
  · subst same
    simpa only [memory, RtmpSession.setCurrent, Function.update_self, Option.getD_some] using noExt
  · simpa only [memory, RtmpSession.setCurrent, Function.update_of_ne same] using unextended csid

/-- The same of a decoder. -/
def Decoder.Unextended (d : Decoder) : Prop := ∀ csid cs, d.csIn csid = some cs → cs.extTs = false

theorem unextended_decoder {s : RtmpSession} : s.Unextended ↔ s.decoder.Unextended := by
  constructor
  · intro unextended csid cs found
    have noExt := unextended csid
    have present : s.csIn csid = some cs := found
    rwa [memory, present, Option.getD_some] at noExt
  · intro unextended csid
    rw [memory]
    cases found : s.csIn csid with
    | none => rfl
    | some cs => exact unextended csid cs found

theorem Decoder.Unextended.clear {d : Decoder} (unextended : d.Unextended) {cs : RtmpChunkStream}
    (noExt : cs.extTs = false) : (d.store cs.clear).Unextended := by
  intro csid cs' found
  simp only [Decoder.store] at found
  by_cases self : csid = d.csid
  · subst self
    rw [Function.update_self] at found
    cases found
    exact noExt
  · rw [Function.update_of_ne self] at found
    exact unextended _ _ found

theorem Decoder.Unextended.drop {d : Decoder} (unextended : d.Unextended) (csid : UInt16) :
    (d.drop csid).Unextended := by
  intro csid' cs found
  simp only [Decoder.drop] at found
  by_cases self : csid' = csid
  · subst self
    rw [Function.update_self] at found
    cases found
  · rw [Function.update_of_ne self] at found
    exact unextended _ _ found

/-- The next message header in the buffer is all there and marks an extended time. -/
def MarkedNext (s : RtmpSession) (buf : Bytes) : Prop :=
  (s.readBasicHeader buf).1.current.Marked (s.readBasicHeader buf).1.fmt (s.readBasicHeader buf).2

instance (s : RtmpSession) (buf : Bytes) : Decidable (s.MarkedNext buf) :=
  inferInstanceAs (Decidable (Marked _ _ _))

theorem readBasicHeader_append (s : RtmpSession) {now : Bytes} (some : now ≠ []) (later : Bytes) :
    s.readBasicHeader (now ++ later) =
      ((s.readBasicHeader now).1, (s.readBasicHeader now).2 ++ later) := by
  cases now with
  | nil => exact absurd rfl some
  | cons b now =>
      unfold readBasicHeader
      split <;> rfl

theorem readBasicHeader_read (s : RtmpSession) (buf : Bytes) :
    (s.readBasicHeader buf).1.headerRead = true ∧ (s.readBasicHeader buf).1.csIn = s.csIn := by
  unfold readBasicHeader
  split
  · next read => exact ⟨read, rfl⟩
  · exact ⟨rfl, rfl⟩

theorem readBasicHeader_done {s : RtmpSession} (read : s.headerRead = true) (buf : Bytes) :
    s.readBasicHeader buf = (s, buf) := by
  rw [readBasicHeader, if_pos read]

/-- What more input does to a read: nothing, unless it was waiting, and then reading on, with `again`,
    is reading all at once. -/
inductive Resumes (again : RtmpSession → Bytes → Except Fault (Ret × RtmpSession × Bytes))
    (later : Bytes) (now all : Except Fault (Ret × RtmpSession × Bytes)) : Prop where
  | fault (f : Fault) (nowRead : now = .error f) (allRead : all = .error f)
  | settled {ret : Ret} {s : RtmpSession} {rest : Bytes} (done : ret ≠ .more)
      (unextended : s.Unextended) (nowRead : now = .ok (ret, s, rest))
      (allRead : all = .ok (ret, s, rest ++ later))
  | waiting {s : RtmpSession} {rest : Bytes} (unextended : s.Unextended)
      (read : s.headerRead = true) (unmarked : ¬ s.MarkedNext (rest ++ later))
      (nowRead : now = .ok (.more, s, rest))
      (resumed : again s (rest ++ later) = all) (settles : ∀ f, all ≠ .error f)

theorem readPayload_settles (s : RtmpSession) {cs : RtmpChunkStream} {rem : UInt32} (buf : Bytes)
    (state : cs.state = .payload) (left : cs.rem = some rem) (f : Fault) :
    (cs.readPayload s.maxChunkSize buf).map s.afterPayload ≠ .error f := by
  rw [readPayload_eq state left]
  split <;> intro failed <;> cases failed

theorem markedNext_setCurrent {s : RtmpSession} (read : s.headerRead = true) (cs : RtmpChunkStream)
    (buf : Bytes) : (s.setCurrent cs).MarkedNext buf ↔ cs.Marked s.fmt buf := by
  have waiting : (s.setCurrent cs).headerRead = true := read
  rw [MarkedNext, readBasicHeader_done waiting, setCurrent_current]
  rfl

theorem payload_resumes {s : RtmpSession} {cs : RtmpChunkStream} (unextended : s.Unextended)
    (read : s.headerRead = true) (noExt : cs.extTs = false) (state : cs.state = .payload)
    (now later : Bytes) :
    Resumes readBody later ((cs.readPayload s.maxChunkSize now).map s.afterPayload)
      ((cs.readPayload s.maxChunkSize (now ++ later)).map s.afterPayload) := by
  cases left : cs.rem with
  | none =>
      refine .fault .uninitialised ?_ ?_ <;> simp [readPayload, state, left, Except.map]
  | some rem =>
      have settles := s.readPayload_settles (now ++ later) state left
      rw [readPayload_eq state left] at settles ⊢
      rw [readPayload_eq state left]
      by_cases waits : now.length < (asked rem s.maxChunkSize).toNat
      · rw [if_pos waits]
        have unmarked : ¬ (s.setCurrent cs).MarkedNext (now ++ later) := by
          rw [markedNext_setCurrent read]
          rintro ⟨idle, _⟩
          rw [state] at idle
          cases idle
        refine .waiting (unextended.setCurrent noExt) read unmarked rfl ?_ settles
        have busy : (s.setCurrent cs).current.readHeader (s.setCurrent cs).fmt (now ++ later) =
            .ok (.ok, cs, now ++ later) := by
          simp only [setCurrent_current, readHeader, state, ne_eq, reduceCtorEq,
            not_false_eq_true, if_true]
          rfl
        have same : (s.setCurrent cs).afterPayload = s.afterPayload := by
          funext read
          simp only [afterPayload, setCurrent_setCurrent]
          rfl
        rw [readBody_payload busy, readPayload_eq state left, same]
        rfl
      · have front := Nat.not_lt.mp waits
        have filled : ¬ (now ++ later).length < (asked rem s.maxChunkSize).toNat := by
          rw [List.length_append]
          omega
        have unmarked : (cs.taken rem s.maxChunkSize now).extTs = false := noExt
        have still : ({ s.setCurrent (cs.taken rem s.maxChunkSize now) with
            headerRead := false } : RtmpSession).Unextended :=
          fun csid => unextended.setCurrent unmarked csid
        have done : Ret.ok ≠ .more := by decide
        rw [if_neg waits, if_neg filled]
        refine .settled done still rfl ?_
        simp only [taken, Except.map, afterPayload, List.take_append_of_le_length front,
          List.drop_append_of_le_length front, if_true]

/-- Past its basic header, a chunk is resumed at its header or its payload. -/
theorem readBody_resumes {s : RtmpSession} (unextended : s.Unextended) (read : s.headerRead = true)
    {now later : Bytes} (plain : ¬ s.MarkedNext (now ++ later)) :
    Resumes readBody later (s.readBody now) (s.readBody (now ++ later)) := by
  rw [MarkedNext, readBasicHeader_done read] at plain
  have noExt : s.current.extTs = false := unextended s.csid
  cases reads noExt s.fmt with
  | fault f always =>
      refine .fault f ?_ ?_ <;> simp only [readBody, always] <;> rfl
  | refused cs noExt' always =>
      have nowRead : s.readBody now = .ok (.fail, s.setCurrent cs, now) := by
        simp only [readBody, always]
        rfl
      have allRead : s.readBody (now ++ later) = .ok (.fail, s.setCurrent cs, now ++ later) := by
        simp only [readBody, always]
        rfl
      have done : Ret.fail ≠ .more := nofun
      exact .settled done (unextended.setCurrent noExt') nowRead allRead
  | sized need wait done noExt' payload assigned resumes unmarked plainRead =>
      have nowRead := plainRead now fun marked => plain (marked.append later)
      have allRead := plainRead (now ++ later) plain
      by_cases short : now.length < need
      · rw [if_pos short] at nowRead
        have waits : s.readBody now = .ok (.more, s.setCurrent wait, now) := by
          simp only [readBody, nowRead]
          rfl
        have again : (s.setCurrent wait).readBody (now ++ later) = s.readBody (now ++ later) := by
          simp only [readBody, setCurrent_current, setCurrent_setCurrent, setCurrent_fmt,
            setCurrent_maxChunkSize, resumes]
        refine .waiting (unextended.setCurrent noExt'.1) read ?_ waits again fun f => ?_
        · rw [markedNext_setCurrent read]
          exact mt (unmarked _).mpr plain
        by_cases still : (now ++ later).length < need
        · rw [if_pos still] at allRead
          simp only [readBody, allRead]
          exact nofun
        · rw [if_neg still] at allRead
          obtain ⟨rem, left⟩ := Option.isSome_iff_exists.mp
            (assigned (by omega) ((now ++ later).take need))
          rw [readBody_payload allRead]
          exact s.readPayload_settles _ (payload _) left f
      · have enough := Nat.not_lt.mp short
        have enough' : ¬ (now ++ later).length < need := by
          rw [List.length_append]
          omega
        rw [if_neg short] at nowRead
        rw [if_neg enough', List.take_append_of_le_length enough,
          List.drop_append_of_le_length enough] at allRead
        rw [readBody_payload nowRead, readBody_payload allRead]
        exact payload_resumes unextended read (noExt'.2 _) (payload _) _ later

/-- A chunk is resumed where it was left. -/
theorem readChunkStream_resumes {s : RtmpSession} {now : Bytes} (some : now ≠ []) (later : Bytes)
    (unextended : s.Unextended) (plain : ¬ s.MarkedNext (now ++ later)) :
    Resumes readChunkStream later (s.readChunkStream now) (s.readChunkStream (now ++ later)) := by
  have all : now ++ later ≠ [] := List.append_ne_nil_of_left_ne_nil some later
  obtain ⟨read, csIn⟩ := s.readBasicHeader_read now
  have begun : (s.readBasicHeader now).1.Unextended := fun csid => by
    rw [memory, csIn]
    exact unextended csid
  have unmarked : ¬ (s.readBasicHeader now).1.MarkedNext ((s.readBasicHeader now).2 ++ later) := by
    rw [MarkedNext, readBasicHeader_append s some later] at plain
    rwa [MarkedNext, readBasicHeader_done read]
  rw [readChunkStream_body s some, readChunkStream_body s all, readBasicHeader_append s some later]
  cases readBody_resumes begun read unmarked with
  | fault f nowRead allRead => exact .fault f nowRead allRead
  | settled done still nowRead allRead => exact .settled done still nowRead allRead
  | @waiting s' rest still read unmarked nowRead resumed settles =>
      refine .waiting still read unmarked nowRead ?_ settles
      by_cases none : rest ++ later = []
      · obtain ⟨rfl, rfl⟩ := List.append_eq_nil_iff.mp none
        simp only [List.append_nil, nowRead]
        rfl
      · rw [readChunkStream_body _ none, readBasicHeader_done read]
        exact resumed

end RtmpSession

namespace Server

open Feed

variable {env : Env} {x : SessionId} {srv srv' : Server} {buf rest : Bytes}

theorem handleChunkStream_done {ret : Ret} (done : srv.handleChunkStream env x = .ok (ret, srv')) :
    ret ≠ .more := by
  unfold handleChunkStream at done
  simp only at done
  split at done
  · obtain ⟨_, _, done⟩ := bind_ok.mp done
    cases done
    exact nofun
  split at done
  · unfold handleMediaMessage at done
    simp only at done
    split at done
    · cases done
      exact nofun
    split at done
    · obtain ⟨_, _, done⟩ := bind_ok.mp done
      obtain ⟨_, _, done⟩ := bind_ok.mp done
      cases done
      exact nofun
    · obtain ⟨_, _, done⟩ := bind_ok.mp done
      cases done
      exact nofun
  split at done
  · obtain ⟨_, _, done⟩ := bind_ok.mp done
    obtain ⟨_, _, done⟩ := bind_ok.mp done
    obtain ⟨_, _, done⟩ := bind_ok.mp done
    cases done
    exact nofun
  · cases done
    exact nofun

theorem dispatch_done (env : Env) (srv : Server) (x : SessionId) :
    (srv.dispatch env x).1 ≠ .more := by
  unfold dispatch
  split
  · exact nofun
  · simp only
    split
    · exact nofun
    · next handled => exact handleChunkStream_done handled

/-- The buffer does not hold a marked header where session `x` stands, and has not held one. -/
def Unmarked (x : SessionId) (srv : Server) (buf : Bytes) : Prop :=
  (srv.sessions x).Unextended ∧ ¬ (srv.sessions x).MarkedNext buf

/-- A round of the loop that has all it needs is not affected by more input; one that has not is
    taken up again. -/
theorem turn_resume (env : Env) {now : Bytes} (some : now ≠ []) (later : Bytes)
    (unmarked : Unmarked x srv (now ++ later)) :
    (∃ srv' rest, srv.turn env x now = .next srv' rest ∧
      srv.turn env x (now ++ later) = .next srv' (rest ++ later)) ∨
    (∃ srv' rest, srv.turn env x now = .halt srv' rest ∧
      srv.turn env x (now ++ later) = .halt srv' (rest ++ later)) ∨
    ∃ srv' rest, srv.turn env x now = .more srv' rest ∧ Unmarked x srv' (rest ++ later) ∧
      srv'.turn env x (rest ++ later) = srv.turn env x (now ++ later) := by
  cases RtmpSession.readChunkStream_resumes some later unmarked.1 unmarked.2 with
  | fault f nowRead allRead =>
      refine .inr (.inl ⟨srv.crash f, now, ?_, ?_⟩) <;> simp only [turn, parse, nowRead, allRead]
  | @settled ret s rest more unextended nowRead allRead =>
      cases ret with
      | more => exact absurd rfl more
      | fail =>
          refine .inr (.inl ⟨srv.set x s, rest, ?_, ?_⟩) <;>
            simp only [turn, parse, nowRead, allRead]
      | ok =>
          by_cases ready : ((srv.set x s).sessions x).current.ready
          · have done := (srv.set x s).dispatch_done env x
            cases handled : (srv.set x s).dispatch env x with
            | mk ret srv' =>
                rw [handled] at done
                cases ret with
                | more => exact absurd rfl done
                | ok =>
                    refine .inl ⟨srv', rest, ?_, ?_⟩ <;>
                      simp only [turn, parse, nowRead, allRead, ready, if_true, handled]
                | fail =>
                    refine .inr (.inl ⟨srv', rest, ?_, ?_⟩) <;>
                      simp only [turn, parse, nowRead, allRead, ready, if_true, handled]
          · refine .inl ⟨srv.set x s, rest, ?_, ?_⟩ <;>
              simp only [turn, parse, nowRead, allRead, ready, Bool.false_eq_true, if_false]
  | @waiting s rest unextended _ plain nowRead resumed settles =>
      refine .inr (.inr ⟨srv.set x s, rest, ?_, ?_, ?_⟩)
      · simp only [turn, parse, nowRead]
      · rw [Unmarked, set_sessions]
        exact ⟨unextended, plain⟩
      · cases read : (srv.sessions x).readChunkStream (now ++ later) with
        | error f => exact absurd read (settles f)
        | ok result => simp only [turn, parse, set_sessions, set_set, resumed, read]

/-- The receive loop can be fed in pieces. -/
theorem turn_resumable (env : Env) (x : SessionId) :
    Resumable (Server.turn env x) (Unmarked x) where
  next {srv now srv' rest} later some unmarked turned := by
    obtain ⟨_, _, now, all⟩ | ⟨_, _, now, _⟩ | ⟨_, _, now, _⟩ :=
      turn_resume env some later unmarked <;> rw [turned] at now <;> cases now
    exact all
  halt {srv now srv' rest} later some unmarked turned := by
    obtain ⟨_, _, now, _⟩ | ⟨_, _, now, all⟩ | ⟨_, _, now, _⟩ :=
      turn_resume env some later unmarked <;> rw [turned] at now <;> cases now
    exact all
  more {srv now srv' rest} later some unmarked turned := by
    obtain ⟨_, _, now, _⟩ | ⟨_, _, now, _⟩ | ⟨_, _, now, unmarked', resumed⟩ :=
      turn_resume env some later unmarked <;> rw [turned] at now <;> cases now
    exact ⟨resumed, unmarked'⟩

theorem dispatch_decoder (env : Env) (srv : Server) (x : SessionId) :
    (∃ es, srv.Handled x (srv.dispatch env x).1 ((srv.dispatch env x).2.sessions x).decoder es) ∨
      ((srv.dispatch env x).2.sessions x).decoder = (srv.sessions x).decoder := by
  have found : ∀ {d es}, (srv.dispatch env x).2.view = srv.viewWith x d es →
      ((srv.dispatch env x).2.sessions x).decoder = d := by
    intro d es view
    exact (congrFun (congrArg View.decoders view) x).trans (Function.update_self ..)
  obtain ⟨d, es, handled, view⟩ | ⟨_, _, es, _, view⟩ := srv.dispatch_view env x
  · refine .inl ⟨es, ?_⟩
    rwa [found view]
  · exact .inr (found view)

theorem dispatch_headerRead (env : Env) (srv : Server) (x : SessionId) :
    ((srv.dispatch env x).2.sessions x).headerRead = (srv.sessions x).headerRead := by
  have kept : ((srv.dispatch env x).2.sessions x).decoder.headerRead =
      (srv.sessions x).decoder.headerRead := by
    obtain ⟨es, handled⟩ | same := srv.dispatch_decoder env x
    · generalize ((srv.dispatch env x).2.sessions x).decoder = d at handled
      generalize (srv.dispatch env x).1 = ret at handled
      cases handled <;> rfl
    · rw [same]
  exact kept

theorem dispatch_unextended (env : Env) (srv : Server) (x : SessionId)
    (unextended : (srv.sessions x).Unextended) :
    ((srv.dispatch env x).2.sessions x).Unextended := by
  rw [RtmpSession.unextended_decoder] at unextended ⊢
  obtain ⟨es, handled⟩ | same := srv.dispatch_decoder env x
  · generalize ((srv.dispatch env x).2.sessions x).decoder = d at handled
    generalize (srv.dispatch env x).1 = ret at handled
    cases handled with
    | sized _ _ _ present | cleared _ _ present | connected _ present =>
        exact unextended.clear (unextended _ _ present)
    | aborted _ _ _ _ present => exact (unextended.drop _).clear (unextended _ _ present)
    | kept => exact unextended
  · rw [same]
    exact unextended

/-- How a round of the loop comes to its end. -/
inductive Turned (env : Env) (x : SessionId) (srv : Server) (buf : Bytes) :
    Turn Server UInt8 → Prop where
  | fault {f : Fault} (read : (srv.sessions x).readChunkStream buf = .error f) :
      Turned env x srv buf (.halt (srv.crash f) buf)
  | refused {s : RtmpSession} {rest : Bytes}
      (read : (srv.sessions x).readChunkStream buf = .ok (.fail, s, rest)) :
      Turned env x srv buf (.halt (srv.set x s) rest)
  | waits {s : RtmpSession} {rest : Bytes}
      (read : (srv.sessions x).readChunkStream buf = .ok (.more, s, rest)) :
      Turned env x srv buf (.more (srv.set x s) rest)
  | chunk {s : RtmpSession} {rest : Bytes}
      (read : (srv.sessions x).readChunkStream buf = .ok (.ok, s, rest))
      (unready : s.current.ready = false) : Turned env x srv buf (.next (srv.set x s) rest)
  | handled {s : RtmpSession} {rest : Bytes} {srv' : Server}
      (read : (srv.sessions x).readChunkStream buf = .ok (.ok, s, rest))
      (ready : s.current.ready = true) (handled : (srv.set x s).dispatch env x = (.ok, srv')) :
      Turned env x srv buf (.next srv' rest)
  | failed {s : RtmpSession} {rest : Bytes} {srv' : Server}
      (read : (srv.sessions x).readChunkStream buf = .ok (.ok, s, rest))
      (ready : s.current.ready = true) (failed : (srv.set x s).dispatch env x = (.fail, srv')) :
      Turned env x srv buf (.halt srv' rest)

theorem turn_cases (env : Env) (x : SessionId) (srv : Server) (buf : Bytes) :
    Turned env x srv buf (srv.turn env x buf) := by
  unfold turn parse
  cases read : (srv.sessions x).readChunkStream buf with
  | error f => exact .fault read
  | ok result =>
      obtain ⟨ret, s, rest⟩ := result
      cases ret with
      | more => exact .waits read
      | fail => exact .refused read
      | ok =>
          simp only [set_sessions]
          cases ready : s.current.ready with
          | false =>
              simp only [Bool.false_eq_true, if_false]
              exact .chunk read ready
          | true =>
              have done := (srv.set x s).dispatch_done env x
              simp only [if_true]
              cases handled : (srv.set x s).dispatch env x with
              | mk ret srv' =>
                  rw [handled] at done
                  cases ret with
                  | ok => exact .handled read ready handled
                  | more => exact absurd rfl done
                  | fail => exact .failed read ready handled

theorem turn_next (turned : srv.turn env x buf = .next srv' rest) :
    ∃ s, (srv.sessions x).readChunkStream buf = .ok (.ok, s, rest) ∧
      (srv' = srv.set x s ∨ (srv.set x s).dispatch env x = (.ok, srv')) := by
  have outcome := turn_cases env x srv buf
  rw [turned] at outcome
  cases outcome with
  | chunk read => exact ⟨_, read, .inl rfl⟩
  | handled read _ handled => exact ⟨_, read, .inr handled⟩

theorem turn_more (turned : srv.turn env x buf = .more srv' rest) :
    ∃ s, (srv.sessions x).readChunkStream buf = .ok (.more, s, rest) ∧ srv' = srv.set x s := by
  have outcome := turn_cases env x srv buf
  rw [turned] at outcome
  cases outcome with
  | waits read => exact ⟨_, read, rfl⟩

theorem turn_headerRead (some : buf ≠ []) (turned : srv.turn env x buf = .next srv' rest) :
    (srv'.sessions x).headerRead = false := by
  obtain ⟨s, read, done⟩ := turn_next turned
  obtain ⟨between, _⟩ := RtmpSession.readChunkStream_progress some read
  obtain rfl | handled := done
  · rwa [set_sessions]
  · have kept := dispatch_headerRead env (srv.set x s) x
    rwa [handled, set_sessions, between] at kept

/-- Every further round has taken a byte of the buffer or ended a header read before. -/
theorem turn_progress (some : buf ≠ []) (turned : srv.turn env x buf = .next srv' rest) :
    srv'.loopSize x rest < srv.loopSize x buf := by
  obtain ⟨s, read, _⟩ := turn_next turned
  obtain ⟨_, shorter⟩ := RtmpSession.readChunkStream_progress some read
  have still := turn_headerRead some turned
  simpa only [loopSize, still, Bool.false_eq_true, if_false, Nat.add_zero] using shorter

theorem turn_unextended (some : buf ≠ []) (unmarked : Unmarked x srv buf)
    (turned : srv.turn env x buf = .next srv' rest) : (srv'.sessions x).Unextended := by
  obtain ⟨s, read, done⟩ := turn_next turned
  have plain : ¬ (srv.sessions x).MarkedNext (buf ++ []) := by
    rw [List.append_nil]
    exact unmarked.2
  have unextended : ((srv.set x s).sessions x).Unextended := by
    rw [set_sessions]
    cases RtmpSession.readChunkStream_resumes some [] unmarked.1 plain with
    | fault f nowRead => cases read.symm.trans nowRead
    | settled _ unextended nowRead =>
        cases read.symm.trans nowRead
        exact unextended
    | waiting _ _ _ nowRead => cases read.symm.trans nowRead
  obtain rfl | handled := done
  · exact unextended
  · have kept := dispatch_unextended env (srv.set x s) x unextended
    rwa [handled] at kept

theorem clean_unmarked (unextended : (srv.sessions x).Unextended)
    (plain : Clean (Server.turn env x) (fun srv buf => ¬ (srv.sessions x).MarkedNext buf) srv buf) :
    Clean (Server.turn env x) (Unmarked x) srv buf := by
  intro t out visit
  induction visit with
  | here some => exact ⟨unextended, plain.here some⟩
  | next some turned _ ih =>
      exact ih (turn_unextended some ⟨unextended, plain.here some⟩ turned) (plain.next some turned)

theorem turn_phase (phase : (srv.sessions x).InChunkPhase)
    (turned : srv.turn env x buf = .next srv' rest ∨ srv.turn env x buf = .more srv' rest) :
    (srv'.sessions x).InChunkPhase := by
  have read_phase : ∀ {ret s}, (srv.sessions x).readChunkStream buf = .ok (ret, s, rest) →
      ((srv.set x s).sessions x).InChunkPhase := by
    intro ret s read
    rw [set_sessions, RtmpSession.InChunkPhase, (RtmpSession.readChunkStream_keeps read).1]
    exact phase
  obtain turned | turned := turned
  · obtain ⟨s, read, rfl | handled⟩ := turn_next turned
    · exact read_phase read
    · obtain ⟨srv₁, acts, same | ⟨_, failed, _⟩⟩ := dispatch_acts env (srv.set x s) x
      · rw [handled] at same
        subst same
        exact Acts.invariant (P := fun srv => (srv.sessions x).InChunkPhase)
          (fun _ _ before act => act.inChunkPhase id before) acts (read_phase read)
      · rw [handled] at failed
        cases failed
  · obtain ⟨s, read, rfl⟩ := turn_more turned
    exact read_phase read

theorem drains_phase {d : Drained Server UInt8} (drains : Drains (Server.turn env x) srv buf d)
    (phase : (srv.sessions x).InChunkPhase) (going : d.halted = false) :
    (d.state.sessions x).InChunkPhase := by
  induction drains with
  | empty => exact phase
  | more _ turned => exact turn_phase phase (.inr turned)
  | halt => cases going
  | next _ turned _ ih => exact ih (turn_phase phase (.inl turned)) going

theorem turn_drains (env : Env) (x : SessionId) (srv : Server) (buf : Bytes) :
    Drains (Server.turn env x) srv buf
      (drain (Server.turn env x) (srv.loopSize x buf + 1) srv buf) :=
  drains_drain (Server.loopSize x) (fun _ _ _ _ => turn_progress) _ srv buf (Nat.lt_succ_self _)

end Server

namespace Host

open Feed

/-- What a read comes to when the loop ends so. -/
def finish (host : Host) (x : SessionId) (d : Drained Server UInt8) : Ret × Host :=
  if d.halted then
    (.fail, if d.state.crashed = none then (host.put x d.state d.rest).close x
      else host.put x d.state d.rest)
  else (.more, host.put x d.state d.rest)

variable {env : Env} {host : Host} {x : SessionId}

theorem onRead_drain (phase : (host.server.sessions x).InChunkPhase) {data : Bytes}
    (some : data ≠ []) :
    host.onRead env x data =
      host.finish x (feed (Server.turn env x) (Server.loopSize x)
        ⟨false, host.server, host.recvBuf x⟩ data) := by
  obtain ⟨not_init, not_c2, not_close⟩ := phase
  have filled : (host.recvBuf x ++ data).isEmpty = false := by
    simp only [List.isEmpty_eq_false_iff]
    exact List.append_ne_nil_of_right_ne_nil _ some
  simp only [onRead, handle, put, Function.update_self, not_init, not_c2, not_close, filled,
    or_self, if_false, Bool.false_eq_true, Function.update_idem, feed]
  generalize drain (Server.turn env x) _ host.server (host.recvBuf x ++ data) = d
  cases halted : d.halted with
  | true => simp [finish, halted, put]
  | false => simp [finish, halted, put]

theorem deliver_feed (phase : (host.server.sessions x).InChunkPhase) {pieces : List Bytes}
    (some : ∀ piece ∈ pieces, piece ≠ []) :
    host.deliver env x pieces =
      host.finish x (pieces.foldl (feed (Server.turn env x) (Server.loopSize x))
        ⟨false, host.server, host.recvBuf x⟩) := by
  induction pieces generalizing host with
  | nil =>
      simp only [deliver, List.foldl_nil, finish, put, Function.update_eq_self, Bool.false_eq_true,
        if_false]
  | cons piece pieces ih =>
      have drains := Server.turn_drains env x host.server (host.recvBuf x ++ piece)
      rw [deliver, onRead_drain phase (some piece List.mem_cons_self), List.foldl_cons]
      have first : feed (Server.turn env x) (Server.loopSize x)
          ⟨false, host.server, host.recvBuf x⟩ piece = drain (Server.turn env x)
            (host.server.loopSize x (host.recvBuf x ++ piece) + 1) host.server
              (host.recvBuf x ++ piece) := rfl
      rw [← first] at drains
      generalize feed (Server.turn env x) (Server.loopSize x)
        ⟨false, host.server, host.recvBuf x⟩ piece = d at drains ⊢
      obtain ⟨halted, srv, rest⟩ := d
      cases halted with
      | true =>
          rw [foldl_feed_halted]
          simp only [finish, if_true]
      | false =>
          have phase' := Server.drains_phase drains phase rfl
          have later : (host.put x srv rest).recvBuf x = rest := Function.update_self ..
          simp only [finish, Bool.false_eq_true, if_false]
          rw [ih phase' fun piece inside => some piece (List.mem_cons_of_mem _ inside), later]
          simp only [finish, put, Function.update_idem]

/-- However the bytes are cut, what a session does with them is what draining them at once does. -/
theorem deliver_drains (env : Env) (phase : (host.server.sessions x).InChunkPhase)
    {pieces : List Bytes} (unextended : (host.server.sessions x).Unextended)
    (given : pieces ≠ []) (some : ∀ piece ∈ pieces, piece ≠ [])
    (plain : Clean (Server.turn env x) (fun srv buf => ¬ (srv.sessions x).MarkedNext buf)
      host.server (host.recvBuf x ++ pieces.flatten)) :
    ∃ d, Drains (Server.turn env x) host.server (host.recvBuf x ++ pieces.flatten) d ∧
      (host.deliver env x pieces).1 = (host.finish x d).1 ∧
      (host.deliver env x pieces).2.server = (host.finish x d).2.server ∧
      (d.halted = false → host.deliver env x pieces = host.finish x d) := by
  have clean := Server.clean_unmarked unextended plain
  obtain ⟨d, drains, halted, state, rest⟩ := feed_pieces (Server.turn_resumable env x)
    (Server.loopSize x) (fun _ _ _ _ => Server.turn_progress) pieces host.server (host.recvBuf x)
    clean given
  refine ⟨d, drains, ?_⟩
  rw [deliver_feed phase some]
  generalize pieces.foldl (feed (Server.turn env x) (Server.loopSize x))
    ⟨false, host.server, host.recvBuf x⟩ = fed at halted state rest ⊢
  obtain ⟨stopped, srv, left⟩ := d
  obtain ⟨stopped', srv', left'⟩ := fed
  simp only at halted state rest
  subst halted state
  cases stopped' with
  | true =>
      simp only [finish, if_true, true_and]
      refine ⟨?_, fun going => absurd going nofun⟩
      split <;> rfl
  | false =>
      rw [rest rfl]
      exact ⟨rfl, rfl, fun _ => rfl⟩

end Host

/-- Past the handshake, with no extended time around, a session does the same with a byte string in
    however many reads it arrives: the same calls, with the same results, and, unless a result is
    negative, it is left in the same state with the same bytes unread. -/
theorem segmentation_independent (env : Env) (host : Host) (x : SessionId) (pieces : List Bytes)
    (phase : (host.server.sessions x).InChunkPhase)
    (unextended : ∀ csid cs, (host.server.sessions x).csIn csid = some cs → cs.extTs = false)
    (given : pieces ≠ []) (some : ∀ piece ∈ pieces, piece ≠ [])
    (plain : Feed.Clean (Server.turn env x) (fun srv buf => ¬ (srv.sessions x).MarkedNext buf)
      host.server (host.recvBuf x ++ pieces.flatten)) :
    (host.deliver env x pieces).1 = (host.onRead env x pieces.flatten).1 ∧
      (host.deliver env x pieces).2.server = (host.onRead env x pieces.flatten).2.server ∧
      ((host.onRead env x pieces.flatten).1 ≠ .fail →
        host.deliver env x pieces = host.onRead env x pieces.flatten) := by
  have all : pieces.flatten ≠ [] := by
    obtain ⟨piece, inside⟩ := List.exists_mem_of_ne_nil pieces given
    intro none
    exact some piece inside (List.flatten_eq_nil_iff.mp none piece inside)
  obtain ⟨d, drains, ret, server, same⟩ := Host.deliver_drains env phase
    (RtmpSession.unextended_decoder.mpr unextended) given some plain
  have once : Feed.feed (Server.turn env x) (Server.loopSize x)
      ⟨false, host.server, host.recvBuf x⟩ pieces.flatten = d :=
    (Server.turn_drains env x host.server (host.recvBuf x ++ pieces.flatten)).unique drains
  rw [Host.onRead_drain phase all, once]
  refine ⟨ret, server, fun going => same ?_⟩
  cases halted : d.halted with
  | true => exact absurd (by rw [Host.finish, if_pos halted]) going
  | false => rfl

/-- `connect` and `createStream`, cut inside a basic header, a message header and a payload. -/
def cutCommands : List Bytes :=
  [Peer.connect "live" |>.take 1, Peer.connect "live" |>.drop 1 |>.take 4,
    (Peer.connect "live").drop 5 ++ Peer.createStream.take 20, Peer.createStream.drop 20]

/-- A session that has just finished the handshake. -/
def greeted : Host := { server := { sessions := fun _ => { isOpen := true, state := .connect } } }

set_option maxRecDepth 4000 in
theorem segmentation_independent_cutCommands :
    (greeted.deliver Peer.env 1 cutCommands).2.server =
      (greeted.onRead Peer.env 1 cutCommands.flatten).2.server ∧
    .streamCreated 1 ∈ (greeted.onRead Peer.env 1 cutCommands.flatten).2.server.log := by
  have plain : Feed.Clean (Server.turn Peer.env 1)
      (fun srv buf => ¬ (srv.sessions 1).MarkedNext buf) greeted.server
      (greeted.recvBuf 1 ++ cutCommands.flatten) := Feed.Clean.of_check 9 (by decide +kernel)
  refine ⟨(segmentation_independent Peer.env greeted 1 cutCommands (by decide) ?_ (by decide)
    (by decide +kernel) plain).2.1, by decide +kernel⟩
  intro csid cs found
  cases found

end DroneServer
