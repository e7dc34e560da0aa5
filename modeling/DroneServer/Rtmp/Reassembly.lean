import DroneServer.Rtmp.Message
import DroneServer.Rtmp.Segmentation

/-! # Interleaved messages are put together again

A peer cuts its messages into chunks and mixes the chunks of different chunk
streams as it likes. `Sender` is the peer's side of it: its chunk size, which its
own Set Chunk Size messages change, and how far each chunk stream has got. The
session's memory follows the sender chunk by chunk, so that each message is
handed over once, whole, when its last chunk arrives.
-/

namespace DroneServer

/-- What a peer has sent on a chunk stream. -/
inductive Lane where
  | unused
  /-- The last message was sent to its end. -/
  | rested (last : Message)
  /-- Of this message `left` is still to be sent. -/
  | partway (m : Message) (left : Bytes)

structure Sender where
  size : UInt32
  lanes : UInt16 → Lane := fun _ => .unused

/-- The size that a Set Chunk Size message announces. -/
def Message.sets (m : Message) : Option UInt32 :=
  if m.type = 1 ∧ m.streamId = 0 then (RtmpSession.wordAt m.payload 0).toOption else none

/-- A message that neither aborts another one nor connects. -/
structure Message.Allowed (m : Message) : Prop where
  fits : m.Fits
  /-- The time is left open. -/
  untimed : m.time = none
  noAbort : ¬ (m.type = 2 ∧ m.streamId = 0)
  noConnect : m.type = 20 → ∀ c, Server.readCommand m.payload = .ok c → c.name ≠ ascii "connect"

/-- The headers with which a peer may start a message: a full one, and after another message one
    that leaves out what is repeated. -/
def MessageHeader.May (lane : Lane) (m : Message) : MessageHeader → Prop
  | .f0 _ len type streamId => len = m.len ∧ type = m.type ∧ streamId = m.streamId
  | .f1 _ len type =>
      len = m.len ∧ type = m.type ∧ ∃ last, lane = .rested last ∧ last.streamId = m.streamId
  | .f2 _ | .f3 => ∃ last, lane = .rested last ∧ last.len = m.len ∧ last.type = m.type ∧
      last.streamId = m.streamId

/-- The sender once a chunk of the message is sent and `left` remains. -/
def Sender.after (sender : Sender) (csid : UInt16) (m : Message) (left : Bytes) : Sender :=
  if left = [] then
    { size := m.sets.getD sender.size
      lanes := Function.update sender.lanes csid (.rested m) }
  else { sender with lanes := Function.update sender.lanes csid (.partway m left) }

/-- The sender sends a chunk of a message, after which `left` remains of it. -/
inductive Sends (sender : Sender) (csid : UInt16) (m : Message) : Bytes → Bytes → Prop where
  | begins {h : MessageHeader} (idle : ∀ m' left, sender.lanes csid ≠ .partway m' left)
      (may : h.May (sender.lanes csid) m) (plain : h.Plain) :
      Sends sender csid m (chunk csid h (m.payload.take sender.size.toNat))
        (m.payload.drop sender.size.toNat)
  | continues {left : Bytes} (partway : sender.lanes csid = .partway m left) :
      Sends sender csid m (chunk csid .f3 (left.take sender.size.toNat))
        (left.drop sender.size.toNat)

/-- What a peer may send: any chunks, and the messages they complete, in the order of their last
    chunks. -/
inductive Wire : Sender → Bytes → List (UInt16 × Message) → Prop where
  | done (sender : Sender) : Wire sender [] []
  | chunk {sender : Sender} {csid : UInt16} {m : Message} {bytes left rest : Bytes}
      {ms : List (UInt16 × Message)} (range : 2 ≤ csid ∧ csid < 64) (allowed : m.Allowed)
      (sends : Sends sender csid m bytes left) (later : Wire (sender.after csid m left) rest ms) :
      Wire sender (bytes ++ rest) ((if left = [] then [(csid, m)] else []) ++ ms)

/-- A call of `handle_chunk_stream`, apart from the time. -/
structure Call where
  csid : UInt16
  type : UInt8
  len : Nat
  streamId : UInt32
  payload : Bytes
  deriving DecidableEq

/-- The call a message is to be handed over by. -/
def Message.call (csid : UInt16) (m : Message) : Call :=
  { csid, type := m.type, len := m.payload.length, streamId := m.streamId, payload := m.payload }

/-- The call of session `x` that an event records, if it does. -/
def Event.call? (x : SessionId) : Event → Option Call
  | .call y csid type len streamId _ payload =>
      if y = x then some { csid, type, len := len.toNat, streamId, payload } else none
  | _ => none

/-- The calls of session `x`, in order. -/
def calls (x : SessionId) (log : List Event) : List Call := log.filterMap (Event.call? x)

theorem calls_append (x : SessionId) (log es : List Event) :
    calls x (log ++ es) = calls x log ++ calls x es := List.filterMap_append

theorem calls_view (x : SessionId) (srv : Server) : calls x srv.view.events = calls x srv.log := by
  simp only [calls, Server.view, List.filterMap_filter]
  refine List.filterMap_congr fun e _ => ?_
  cases e <;> rfl

/-- The memory of a chunk stream is where the peer's side of it is. -/
def Lane.Holds (cs : RtmpChunkStream) : Lane → Prop
  | .unused => cs.Idle
  | .rested last => cs.Rested last
  | .partway m left => cs.state = .header ∧ left ≠ [] ∧ m.Fits ∧ cs.Expecting m left

/-- The session is where the sender is. -/
structure Sync (sender : Sender) (s : RtmpSession) : Prop where
  between : s.headerRead = false
  size : s.maxChunkSize = sender.size
  lanes : ∀ csid, (sender.lanes csid).Holds (s.memory csid)

theorem MessageHeader.Plain.unmarked {h : MessageHeader} (plain : h.Plain) (cs : RtmpChunkStream)
    (rest : Bytes) : ¬ cs.Marked h.fmt (h.encode ++ rest) := by
  have field : ∀ {time : UInt32}, time.toNat < 0xffffff →
      Endian.be24 (time >>> 16).toUInt8 (time >>> 8).toUInt8 time.toUInt8 ≠ 0xffffff := by
    intro time small mark
    rw [Endian.be24_toBE24 (by omega)] at mark
    rw [mark] at small
    exact absurd small (by decide)
  rintro ⟨_, full, _, mark⟩
  cases h with
  | f0 => exact field plain.1 mark
  | f1 => exact field plain.1 mark
  | f2 => exact field plain mark
  | f3 => exact full rfl

namespace RtmpSession

theorem readBasicHeader_chunk {s : RtmpSession} {csid : UInt16} (between : s.headerRead = false)
    (narrow : csid < 64) (h : MessageHeader) (piece : Bytes) :
    s.readBasicHeader (chunk csid h piece) =
      ({ s with fmt := h.fmt, csid, headerRead := true }, h.encode ++ piece) := by
  obtain ⟨fmt, id⟩ := basicHeader_fields narrow h
  simp [readBasicHeader, between, chunk, fmt, id]

theorem unmarked_chunk {s : RtmpSession} {csid : UInt16} {h : MessageHeader}
    (between : s.headerRead = false) (narrow : csid < 64) (plain : h.Plain) (piece : Bytes) :
    ¬ s.MarkedNext (chunk csid h piece) := by
  rw [MarkedNext, readBasicHeader_chunk between narrow]
  exact plain.unmarked _ piece

end RtmpSession

theorem MessageHeader.May.starts {h : MessageHeader} {lane : Lane} {m : Message}
    {cs : RtmpChunkStream} (may : h.May lane m) (holds : lane.Holds cs) (untimed : m.time = none) :
    h.Starts cs m := by
  cases h with
  | f0 time len type streamId =>
      obtain ⟨len, type, streamId⟩ := may
      refine ⟨len, type, streamId, ?_⟩
      rw [untimed]
      exact nofun
  | f1 dtime len type =>
      obtain ⟨len, type, last, rfl, streamId⟩ := may
      exact ⟨len, type, holds.streamId.trans streamId, untimed⟩
  | f2 dtime =>
      obtain ⟨last, rfl, len, type, streamId⟩ := may
      exact holds.repeats len type streamId untimed
  | f3 =>
      obtain ⟨last, rfl, len, type, streamId⟩ := may
      exact ⟨holds.repeats len type streamId untimed, holds.rem, holds.known⟩

/-- A chunk as the reader meets it: the header leaves the memory expecting `todo`. -/
structure Arriving (s : RtmpSession) (csid : UInt16) (m : Message) (h : MessageHeader)
    (todo : Bytes) : Prop where
  plain : h.Plain
  idle : (s.memory csid).state = .header
  noExt : (s.memory csid).extTs = false
  known : h = .f3 → (s.memory csid).rem.isSome ∧ (s.memory csid).fmt.isSome
  expecting : (h.apply (s.memory csid)).Expecting m todo

theorem Sends.arriving {sender : Sender} {s : RtmpSession} {csid : UInt16} {m : Message}
    {bytes left : Bytes} (sends : Sends sender csid m bytes left) (sync : Sync sender s)
    (allowed : m.Allowed) :
    ∃ h todo, bytes = chunk csid h (todo.take s.maxChunkSize.toNat) ∧
      left = todo.drop s.maxChunkSize.toNat ∧ Arriving s csid m h todo := by
  rw [sync.size]
  have holds := sync.lanes csid
  cases sends with
  | @begins h idle may plain =>
      have starts := may.starts holds allowed.untimed
      have rests : (s.memory csid).Idle := by
        cases lane : sender.lanes csid with
        | unused =>
            rw [lane] at holds
            exact holds
        | rested last =>
            rw [lane] at holds
            exact holds.toIdle
        | partway m' left => exact absurd lane (idle m' left)
      exact ⟨h, m.payload, rfl, rfl, plain, rests.idle, rests.noExt, starts.known,
        rests.starts starts⟩
  | @continues left partway =>
      rw [partway] at holds
      obtain ⟨idle, unfinished, fits, expecting⟩ := holds
      have known : (s.memory csid).rem.isSome := by
        rw [expecting.rem]
        rfl
      exact ⟨.f3, left, rfl, rfl, trivial, idle, expecting.noExt, fun _ => ⟨known, expecting.known⟩,
        expecting.continued fits unfinished⟩

namespace Sync

variable {sender : Sender} {s s' : RtmpSession}

theorem congr (sync : Sync sender s) (decoder : s'.decoder = s.decoder) : Sync sender s' := by
  have memory : ∀ csid, s'.memory csid = s.memory csid := by
    intro csid
    have csIn : s'.csIn = s.csIn := congrArg (·.csIn) decoder
    rw [RtmpSession.memory, csIn]
    rfl
  refine ⟨?_, ?_, fun csid => ?_⟩
  · exact (congrArg (·.headerRead) decoder).trans sync.between
  · exact (congrArg (·.maxChunkSize) decoder).trans sync.size
  · rw [memory]
    exact sync.lanes csid

theorem stored (sync : Sync sender s) (csid : UInt16) {lane : Lane} {cs : RtmpChunkStream}
    (holds : lane.Holds cs) (fmt : UInt8) (size : UInt32) :
    Sync { size, lanes := Function.update sender.lanes csid lane }
      { s.stored csid fmt cs with maxChunkSize := size } := by
  refine ⟨sync.between, rfl, fun other => ?_⟩
  change (Function.update sender.lanes csid lane other).Holds ((s.stored csid fmt cs).memory other)
  by_cases self : other = csid
  · subst self
    rw [Function.update_self, RtmpSession.stored_memory]
    exact holds
  · rw [Function.update_of_ne self, s.stored_other fmt cs self]
    exact sync.lanes other

end Sync

namespace Server

open Feed

variable {env : Env} {x : SessionId} {srv : Server} {sender : Sender} {csid : UInt16} {m : Message}

/-- A handler that returns without an error clears the message, and does no more to the decoder
    than to take over a chunk size the message sets. -/
theorem Handled.follows {s : RtmpSession} {fmt : UInt8} {cs : RtmpChunkStream}
    {d : RtmpSession.Decoder} {es : List Event} (handled : srv.Handled x .ok d es)
    (session : srv.sessions x = s.stored csid fmt cs) (allowed : m.Allowed) (heads : cs.Heads m)
    (data : cs.data = m.payload) :
    d = { s.stored csid fmt cs.clear with
      maxChunkSize := m.sets.getD s.maxChunkSize }.decoder ∧ calls x es = [] := by
  have current : (srv.sessions x).current = cs := by rw [session, RtmpSession.stored_current]
  have control : srv.Control x ↔ m.type < 7 ∧ m.streamId = 0 := by
    rw [Control, current, heads.type, heads.streamId]
  have present : ∀ {cs'}, (srv.sessions x).csIn (srv.sessions x).csid = some cs' →
      (srv.sessions x).decoder.store cs'.clear = (s.stored csid fmt cs.clear).decoder := by
    intro cs' found
    have kept : (s.stored csid fmt cs).csIn csid = some cs := Function.update_self ..
    rw [session] at found
    cases kept.symm.trans found
    rw [session]
    simp only [RtmpSession.decoder, RtmpSession.Decoder.store, RtmpSession.stored,
      Function.update_idem]
  cases handled with
  | @sized _ size isControl type read found =>
      have sets : m.sets = some size := by
        rw [current, heads.type] at type
        rw [current, data] at read
        rw [Message.sets, if_pos ⟨type, (control.mp isControl).2⟩, read]
        rfl
      rw [sets, present found]
      exact ⟨rfl, rfl⟩
  | aborted isControl type =>
      rw [current, heads.type] at type
      exact absurd ⟨type, (control.mp isControl).2⟩ allowed.noAbort
  | cleared plain _ found =>
      have sets : m.sets = none := by
        refine if_neg ?_
        rintro ⟨type, streamId⟩
        have isControl := control.mpr ⟨by rw [type]; decide, streamId⟩
        refine (plain isControl).1 ?_
        rw [current, heads.type, type]
      rw [sets, present found]
      exact ⟨rfl, rfl⟩
  | connected connecting =>
      obtain ⟨c, ⟨command, read⟩, connects⟩ := connecting
      rw [current, heads.type] at command
      rw [current, data] at read
      exact absurd connects.1 (allowed.noConnect command c read)

/-- A message that is handled is handed over once, as it is; and unless that fails, the session
    goes on in step. -/
theorem dispatch_follows {s : RtmpSession} {fmt : UInt8} {cs : RtmpChunkStream} (env : Env)
    (session : srv.sessions x = s.stored csid fmt cs) (sync : Sync sender s) (allowed : m.Allowed)
    (heads : cs.Heads m) (data : cs.data = m.payload) (rested : cs.clear.Rested m) :
    ((srv.dispatch env x).1 = .ok ∧
      Sync (sender.after csid m []) ((srv.dispatch env x).2.sessions x) ∧
      calls x (srv.dispatch env x).2.log = calls x srv.log ++ [m.call csid]) ∨
    (srv.dispatch env x).1 = .fail ∧
      ((srv.dispatch env x).2.crashed.isSome ∨ .result x .fail ∈ (srv.dispatch env x).2.log) := by
  have settled := srv.dispatch_done env x
  have viewed := srv.dispatch_view env x
  generalize srv.dispatch env x = done at settled viewed ⊢
  obtain ⟨ret, srv'⟩ := done
  simp only at settled viewed ⊢
  obtain ⟨d, es, handled, view⟩ | ⟨crashed, failed, _⟩ := viewed
  · cases ret with
    | more => exact absurd rfl settled
    | fail =>
        have noted : Event.result x .fail ∈ srv'.view.events := by
          rw [view, viewWith]
          simp
        exact .inr ⟨rfl, .inr (List.mem_of_mem_filter noted)⟩
    | ok =>
        obtain ⟨rfl, silent⟩ := handled.follows session allowed heads data
        refine .inl ⟨rfl, ?_, ?_⟩
        · have holds : (Lane.rested m).Holds cs.clear := rested
          have onward := sync.stored csid holds fmt (m.sets.getD s.maxChunkSize)
          rw [Sender.after, if_pos rfl, ← sync.size]
          refine onward.congr ?_
          exact (congrFun (congrArg View.decoders view) x).trans (Function.update_self ..)
        · have calling : calls x [srv.calling x] = [m.call csid] := by
            have current : (srv.sessions x).current = cs := by
              rw [session, RtmpSession.stored_current]
            have id : (srv.sessions x).csid = csid := by
              rw [session]
              rfl
            simp [calls, Server.calling, Event.call?, current, id, heads.type, heads.len,
              heads.streamId, data, Message.call, allowed.fits.len_toNat]
          have noted : srv'.view.events =
              srv.view.events ++ ([srv.calling x] ++ es ++ [.result x .ok]) :=
            congrArg View.events view
          rw [← calls_view, noted, calls_append, calls_append, calls_append, calls_view, calling,
            silent]
          rfl
  · exact .inr ⟨failed, .inl crashed⟩

/-- The next chunk is read from the front of the buffer, and the session goes on in step with the
    sender; unless the message it completes cannot be handled. -/
theorem turn_follows {bytes left : Bytes} (env : Env) (sync : Sync sender (srv.sessions x))
    (narrow : csid < 64) (allowed : m.Allowed) (sends : Sends sender csid m bytes left) :
    (∀ rest, ¬ (srv.sessions x).MarkedNext (bytes ++ rest)) ∧
    ((∃ srv', (∀ rest, srv.turn env x (bytes ++ rest) = .next srv' rest) ∧
        Sync (sender.after csid m left) (srv'.sessions x) ∧
        calls x srv'.log = calls x srv.log ++ if left = [] then [m.call csid] else []) ∨
      ∃ srv', (∀ rest, srv.turn env x (bytes ++ rest) = .halt srv' rest) ∧
        (srv'.crashed.isSome ∨ .result x .fail ∈ srv'.log)) := by
  obtain ⟨h, todo, rfl, rfl, arriving⟩ := sends.arriving sync allowed
  refine ⟨fun rest => ?_, ?_⟩
  · have more : chunk csid h (todo.take (srv.sessions x).maxChunkSize.toNat) ++ rest =
        chunk csid h (todo.take (srv.sessions x).maxChunkSize.toNat ++ rest) := by
      simp only [chunk, List.append_assoc, List.cons_append]
    rw [more]
    exact RtmpSession.unmarked_chunk sync.between narrow arriving.plain _
  obtain ⟨cs, read, ⟨unfinished, waiting, more⟩ | ⟨finished, ready, data, heads, rested⟩⟩ :=
    RtmpSession.readChunkStream_piece allowed.fits sync.between narrow arriving.plain arriving.idle
      arriving.noExt arriving.known arriving.expecting
  · refine .inl ⟨srv.set x ((srv.sessions x).stored csid h.fmt cs), fun rest => ?_, ?_, ?_⟩
    · simp only [turn, parse, read, set_sessions, RtmpSession.stored_current, more.unready,
        Bool.false_eq_true, if_false]
    · rw [Sender.after, if_neg unfinished, set_sessions, ← sync.size]
      have holds : (Lane.partway m (todo.drop (srv.sessions x).maxChunkSize.toNat)).Holds cs :=
        ⟨waiting, unfinished, allowed.fits, more⟩
      exact sync.stored csid holds h.fmt (srv.sessions x).maxChunkSize
    · rw [if_neg unfinished, List.append_nil]
      rfl
  · rw [finished]
    have follows := dispatch_follows env (set_sessions srv x ((srv.sessions x).stored csid h.fmt cs))
      sync allowed heads data rested
    cases done : (srv.set x ((srv.sessions x).stored csid h.fmt cs)).dispatch env x with
    | mk ret srv' =>
        rw [done] at follows
        obtain ⟨rfl, onward, called⟩ | ⟨rfl, failed⟩ := follows
        · refine .inl ⟨srv', fun rest => ?_, onward, called⟩
          simp only [turn, parse, read, set_sessions, RtmpSession.stored_current, ready, if_true,
            done]
        · refine .inr ⟨srv', fun rest => ?_, failed⟩
          simp only [turn, parse, read, set_sessions, RtmpSession.stored_current, ready, if_true,
            done]

/-- What the peer sent is read to its end, each message handed over once when its last chunk is
    there; unless one cannot be handled. -/
theorem Wire.drains {bytes : Bytes} {ms : List (UInt16 × Message)} (env : Env)
    (wire : Wire sender bytes ms) (sync : Sync sender (srv.sessions x)) :
    Clean (Server.turn env x) (fun srv buf => ¬ (srv.sessions x).MarkedNext buf) srv bytes ∧
    ((∃ srv', Drains (Server.turn env x) srv bytes ⟨false, srv', []⟩ ∧
        calls x srv'.log = calls x srv.log ++ ms.map fun (csid, m) => m.call csid) ∨
      ∃ srv' rest, Drains (Server.turn env x) srv bytes ⟨true, srv', rest⟩ ∧
        (srv'.crashed.isSome ∨ .result x .fail ∈ srv'.log)) := by
  induction wire generalizing srv with
  | done sender => exact ⟨.nil srv, .inl ⟨srv, .empty srv, (List.append_nil _).symm⟩⟩
  | @chunk sender csid m bytes left rest ms range allowed sends _ ih =>
      obtain ⟨unmarked, turned⟩ := turn_follows env sync range.2 allowed sends
      have some : bytes ++ rest ≠ [] := by
        cases sends <;> exact List.cons_ne_nil _ _
      obtain ⟨srv', turned, onward, called⟩ | ⟨srv', turned, failed⟩ := turned
      · obtain ⟨clean, drained⟩ := ih onward
        refine ⟨.of_next (unmarked rest) (turned rest) clean, ?_⟩
        obtain ⟨srv₂, drains, more⟩ | ⟨srv₂, left, drains, failed⟩ := drained
        · refine .inl ⟨srv₂, .next some (turned rest) drains, ?_⟩
          rw [more, called, List.append_assoc, List.map_append]
          split <;> rfl
        · exact .inr ⟨srv₂, left, .next some (turned rest) drains, failed⟩
      · exact ⟨.of_halt (unmarked rest) (turned rest),
          .inr ⟨srv', rest, .halt some (turned rest), failed⟩⟩

end Server

namespace RtmpSession

theorem readChunkStream_present {s s' : RtmpSession} {buf rest : Bytes} {ret : Ret}
    (some : buf ≠ []) (read : s.readChunkStream buf = .ok (ret, s', rest)) :
    (s'.csIn s'.csid).isSome := by
  have stored : ∀ (s : RtmpSession) (cs : RtmpChunkStream),
      ((s.setCurrent cs).csIn (s.setCurrent cs).csid).isSome := by
    intro s cs
    simp only [setCurrent, Function.update_self, Option.isSome_some]
  rw [readChunkStream_body s some] at read
  obtain ⟨⟨ret₁, cs, rest₁⟩, _, read⟩ := bind_ok.mp read
  simp only at read
  split at read
  · cases read
    exact stored _ _
  · obtain ⟨⟨ret₂, cs₂, rest₂⟩, _, read⟩ := bind_ok.mp read
    cases read
    split <;> exact stored (s.readBasicHeader buf).1 cs₂

end RtmpSession

/-- A session that has no chunk stream has read nothing yet. -/
def View.Fresh (v : View) (x : SessionId) : Prop :=
  (∀ csid, (v.decoders x).csIn csid = none) →
    (v.decoders x).headerRead = false ∧ calls x v.events = []

theorem View.Fresh.viewWith {srv : Server} (fresh : ∀ y, srv.view.Fresh y) {x : SessionId}
    {d : RtmpSession.Decoder} {es : List Event} (present : ∃ csid, (d.csIn csid).isSome)
    (others : ∀ y, y ≠ x → calls y es = []) (y : SessionId) : (srv.viewWith x d es).Fresh y := by
  intro none
  by_cases self : y = x
  · subst self
    obtain ⟨csid, present⟩ := present
    have gone := none csid
    simp only [Server.viewWith, Function.update_self] at gone
    rw [gone] at present
    cases present
  · have kept : (srv.viewWith x d es).decoders y = srv.view.decoders y := Function.update_of_ne self ..
    rw [kept] at none ⊢
    obtain ⟨read, called⟩ := fresh y none
    refine ⟨read, ?_⟩
    rw [Server.viewWith, calls_append, called, others y self]
    rfl

namespace Host

theorem fresh_step {host : Host} (fresh : ∀ y, host.server.view.Fresh y) (l : Label)
    (y : SessionId) : (host.step l).server.view.Fresh y := by
  obtain view | ⟨x, ret, s, rest, rfl, running, parsing, read⟩ | ⟨x, env, rfl, ready, done⟩ :=
    host.step_view l
  · rw [view]
    exact fresh y
  · rw [host.parse_view running parsing read]
    exact View.Fresh.viewWith fresh
      ⟨s.csid, RtmpSession.readChunkStream_present parsing.2.2.2 read⟩ (fun _ _ => rfl) y
  · rw [done]
    have present := RtmpSession.current_present ready.2.2
    have others : ∀ (es : List Event) y, y ≠ x → calls y es = [] →
        calls y (host.server.calling x :: es) = [] := by
      intro es y other silent
      simp only [calls, Server.calling, List.filterMap_cons, Event.call?, if_neg other.symm]
      exact silent
    obtain ⟨d, es, handled, view⟩ | ⟨_, _, es, events, view⟩ :=
      host.server.dispatch_view env x <;> rw [view]
    · generalize (host.server.dispatch env x).1 = ret at handled ⊢
      refine View.Fresh.viewWith fresh ⟨(host.server.sessions x).csid, ?_⟩ (fun y other => ?_) y
      · cases handled with
        | sized | aborted | cleared | connected =>
            simp only [RtmpSession.Decoder.store, RtmpSession.Decoder.drop, RtmpSession.decoder,
              Function.update_self, Option.isSome_some]
        | kept => exact present
      · refine others _ y other ?_
        cases handled <;> rfl
    · refine View.Fresh.viewWith fresh ⟨_, present⟩ (fun y other => ?_) y
      obtain rfl | rfl := events
      · rfl
      · exact others [] y other rfl

theorem fresh {recordForce : Bool} {host : Host} (reached : (machine recordForce).Reachable host)
    (x : SessionId) : host.server.view.Fresh x :=
  reached.invariant (P := fun host => ∀ x, host.server.view.Fresh x) (fun _ _ => ⟨rfl, rfl⟩)
    (fun _ l fresh => fresh_step fresh l) x

theorem exec_view (recordForce : Bool) (host : Host) (labels : List Label)
    (quiet : ∀ l ∈ labels, (∀ x, l ≠ .parse x) ∧ ∀ x env, l ≠ .dispatch x env) :
    ((machine recordForce).exec host labels).server.view = host.server.view := by
  induction labels generalizing host with
  | nil => rfl
  | cons l labels ih =>
      have now := quiet l List.mem_cons_self
      have later := ih (host.step l) fun l' inside => quiet l' (List.mem_cons_of_mem l inside)
      obtain view | ⟨x, _, _, _, parses, _⟩ | ⟨x, env, handles, _⟩ := host.step_view l
      · exact later.trans view
      · exact absurd parses (now.1 x)
      · exact absurd handles (now.2 x env)

theorem finish_failed {srv : Server} {x : SessionId}
    (failed : srv.crashed.isSome ∨ .result x .fail ∈ srv.log) (host : Host) (rest : Bytes) :
    (host.finish x ⟨true, srv, rest⟩).2.server.crashed.isSome ∨
      .result x .fail ∈ (host.finish x ⟨true, srv, rest⟩).2.server.log := by
  rw [finish, if_pos rfl]
  split
  · next running =>
      have noted : .result x .fail ∈ srv.log := by
        refine failed.resolve_left ?_
        simp only at running
        rw [running]
        exact Bool.false_ne_true
      have viewed : .result x .fail ∈ (srv.close x).view.events := by
        rw [srv.close_view x]
        exact List.mem_filter.mpr ⟨noted, rfl⟩
      exact .inr (List.mem_of_mem_filter viewed)
  · exact failed

end Host

/-- Whatever a peer sends, cut into chunks of its chunk size and mixed as it likes, and in however
    many reads it arrives: a session past the handshake hands every message over exactly once, in
    the order of their last chunks, with its own type, length, stream and payload. This holds as
    long as every message that is handed over can be handled. -/
theorem messages_reassembled (recordForce : Bool) (labels : List Label) (env : Env) (x : SessionId)
    (pieces : List Bytes) (ms : List (UInt16 × Message))
    (phase : (((machine recordForce).run labels).server.sessions x).InChunkPhase)
    (unused : ∀ csid, (((machine recordForce).run labels).server.sessions x).csIn csid = none)
    (empty : ((machine recordForce).run labels).recvBuf x = [])
    (some : ∀ piece ∈ pieces, piece ≠ [])
    (wire : Wire
      { size := (((machine recordForce).run labels).server.sessions x).maxChunkSize }
      pieces.flatten ms)
    (running : (((machine recordForce).run labels).deliver env x pieces).2.server.crashed = none)
    (handled : .result x .fail ∉
      (((machine recordForce).run labels).deliver env x pieces).2.server.log) :
    calls x (((machine recordForce).run labels).deliver env x pieces).2.server.log =
      ms.map fun (csid, m) => m.call csid := by
  have reached := Machine.Reachable.run (machine recordForce) labels
  generalize (machine recordForce).run labels = host at *
  obtain ⟨between, silent⟩ := Host.fresh reached x unused
  rw [calls_view] at silent
  have sync : Sync { size := (host.server.sessions x).maxChunkSize } (host.server.sessions x) := by
    refine ⟨between, rfl, fun csid => ?_⟩
    rw [RtmpSession.memory, unused csid]
    exact ⟨rfl, rfl, rfl, rfl, rfl⟩
  have unextended : (host.server.sessions x).Unextended := by
    intro csid
    rw [RtmpSession.memory, unused csid]
    rfl
  obtain ⟨clean, drained⟩ := Server.Wire.drains env wire sync
  rw [← List.nil_append pieces.flatten, ← empty] at clean drained
  have ended : ∃ d, Feed.Drains (Server.turn env x) host.server
      (host.recvBuf x ++ pieces.flatten) d ∧
      (host.deliver env x pieces).2.server = (host.finish x d).2.server := by
    by_cases none : pieces = []
    · subst none
      rw [empty]
      exact ⟨_, .empty host.server, rfl⟩
    · obtain ⟨d, drains, _, server, _⟩ := host.deliver_drains env phase unextended none some clean
      exact ⟨d, drains, server⟩
  obtain ⟨d, drains, server⟩ := ended
  rw [server] at running handled ⊢
  obtain ⟨srv', whole, called⟩ | ⟨srv', rest, halted, failed⟩ := drained
  · cases drains.unique whole
    rw [silent, List.nil_append] at called
    exact called
  · cases drains.unique halted
    obtain crashed | noted := Host.finish_failed failed host rest
    · rw [running] at crashed
      cases crashed
    · exact absurd noted handled

namespace Peer

/-- Two changes of the chunk size. -/
def toFive : Message := { type := 1, streamId := 0, payload := Endian.toBE32 5 }

def toFour : Message := { type := 1, streamId := 0, payload := Endian.toBE32 4 }

/-- An acknowledgement, longer than it need be. -/
def ack : Message := { type := 3, streamId := 0, payload := [1, 2, 3, 4, 5, 6] }

def windowSize : Message := { type := 5, streamId := 0, payload := [0, 1, 0, 0] }

/-- The two chunks of `ack`, in the second one's chunk size, around two other messages. -/
def mixed : List Bytes :=
  [chunk 2 (.f0 0 4 1 0) (Endian.toBE32 5) ++ [4],
    (chunk 4 (.f0 7 6 3 0) [1, 2, 3, 4, 5]).drop 1 ++ chunk 2 .f3 (Endian.toBE32 4) ++
      chunk 5 (.f0 8 4 5 0) [0, 1, 0, 0] ++ chunk 4 .f3 [6]]

theorem mixed_wire : Wire { size := 128 } mixed.flatten
    [(2, toFive), (2, toFour), (5, windowSize), (4, ack)] := by
  have allowed : ∀ m ∈ [toFive, toFour, windowSize, ack], m.Allowed := by
    intro m inside
    have plain : m.Fits ∧ m.time = none ∧ m.type ≠ 2 ∧ m.type ≠ 20 := by
      revert m
      unfold Message.Fits
      decide
    obtain ⟨fits, untimed, noAbort, noCommand⟩ := plain
    exact ⟨fits, untimed, fun aborts => noAbort aborts.1, fun command => absurd command noCommand⟩
  have bytes : mixed.flatten = chunk 2 (.f0 0 4 1 0) (Endian.toBE32 5) ++
      (chunk 4 (.f0 7 6 3 0) [1, 2, 3, 4, 5] ++ (chunk 2 .f3 (Endian.toBE32 4) ++
        (chunk 5 (.f0 8 4 5 0) [0, 1, 0, 0] ++ (chunk 4 .f3 [6] ++ [])))) := by decide
  rw [bytes]
  exact
    @Wire.chunk _ 2 toFive _ [] _ _ (by decide) (allowed _ (by decide))
      (.begins (h := .f0 0 4 1 0) (by simp) ⟨rfl, rfl, rfl⟩ ⟨by decide, by decide⟩) <|
    @Wire.chunk _ 4 ack _ [6] _ _ (by decide) (allowed _ (by decide))
      (.begins (h := .f0 7 6 3 0) (by simp [Sender.after]) ⟨rfl, rfl, rfl⟩
        ⟨by decide, by decide⟩) <|
    @Wire.chunk _ 2 toFour _ [] _ _ (by decide) (allowed _ (by decide))
      (.begins (h := .f3) (by simp [Sender.after]) ⟨toFive, rfl, rfl, rfl, rfl⟩ trivial) <|
    @Wire.chunk _ 5 windowSize _ [] _ _ (by decide) (allowed _ (by decide))
      (.begins (h := .f0 8 4 5 0) (by simp [Sender.after]) ⟨rfl, rfl, rfl⟩
        ⟨by decide, by decide⟩) <|
    @Wire.chunk _ 4 ack _ [] _ _ (by decide) (allowed _ (by decide))
      (@Sends.continues _ 4 ack [6] rfl) <|
    .done _

end Peer

set_option maxRecDepth 4000 in
theorem messages_reassembled_mixed :
    calls 1 (((machine false).run (Peer.greet 1)).deliver Peer.env 1 Peer.mixed).2.server.log =
      [(2, Peer.toFive), (2, Peer.toFour), (5, Peer.windowSize), (4, Peer.ack)].map
        fun (csid, m) => m.call csid := by
  have size : (((machine false).run (Peer.greet 1)).server.sessions 1).maxChunkSize = 128 := by
    decide +kernel
  have unused : ∀ csid, (((machine false).run (Peer.greet 1)).server.sessions 1).csIn csid =
      none := by
    have csIn : ∀ host : Host, (host.server.view.decoders 1).csIn = (host.server.sessions 1).csIn :=
      fun _ => rfl
    intro csid
    rw [← csIn, Machine.run, Host.exec_view false _ (Peer.greet 1) (by simp [Peer.greet])]
    rfl
  exact messages_reassembled false (Peer.greet 1) Peer.env 1 Peer.mixed _ (by decide +kernel)
    unused (by decide +kernel) (by decide) (size ▸ Peer.mixed_wire) (by decide +kernel)
    (by decide +kernel)

end DroneServer
