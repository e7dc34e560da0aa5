import DroneServer.Rtmp.Bystander
import DroneServer.Rtmp.Outcome
import DroneServer.Rtmp.Relay
import DroneServer.Rtmp.Segmentation
import DroneServer.Rtmp.Shake

/-! # The callbacks of all sessions

The event loop calls `on_connect`, `on_read` and `on_error` of any session, one
after the other, and `on_read` only with what an `async_read` under way was given.
Every callback is a run of single steps of its session, so what holds in all
states of `machine` holds between callbacks.
-/

namespace DroneServer

structure Loop where
  host : Host := {}
  /-- The buffer size of the `async_read` under way, if one is. -/
  asked : SessionId → Option Nat := fun _ => none
  /-- What the session's read callbacks were given so far. -/
  received : SessionId → Bytes := fun _ => []

inductive Callback where
  /-- `on_connect` of an accepted connection. -/
  | connected (x : SessionId)
  /-- `on_read` with the bytes an `async_read` was given. -/
  | read (x : SessionId) (env : Env) (data : Bytes)
  /-- `on_error`. -/
  | failed (x : SessionId)

namespace Callback

/-- The session whose callback it is. -/
def session : Callback → SessionId
  | .connected x | .read x _ _ | .failed x => x

end Callback

namespace Loop

/-- `read_buffer_size`, which `async_read` asks for by default. -/
def readBufferSize : Nat := 8192

/-- The `async_read` an `on_read` leaves under way, by what `handle` returned. In state `INIT` that
    is `0`, and `handle` has asked for C2 itself. -/
def nextRead : Ret → Option Nat
  | .ok => some RtmpHandshake.c2Size
  | .more => some readBufferSize
  | .fail => none

/-- The callback may happen: a read is under way, and is given some bytes that fit its buffer. -/
def Reads (loop : Loop) (x : SessionId) (data : Bytes) : Prop :=
  data ≠ [] ∧ ∃ n, loop.asked x = some n ∧ data.length ≤ n

instance (loop : Loop) (x : SessionId) (data : Bytes) : Decidable (loop.Reads x data) :=
  match asked : loop.asked x with
  | some n =>
      decidable_of_iff (data ≠ [] ∧ data.length ≤ n) <| by
        constructor
        · exact fun ⟨filled, fits⟩ => ⟨filled, n, asked, fits⟩
        · rintro ⟨filled, m, again, fits⟩
          cases asked.symm.trans again
          exact ⟨filled, fits⟩
  | none => .isFalse <| by
      rintro ⟨_, m, again, _⟩
      cases asked.symm.trans again

/-- A callback that cannot happen changes nothing. -/
def perform (loop : Loop) : Callback → Loop
  | .connected x =>
      let s := loop.host.server.sessions x
      if !s.isOpen ∧ s.state = .init then
        { loop with
          host := loop.host.step (.accept x)
          asked := Function.update loop.asked x
            (some (RtmpHandshake.c0Size + RtmpHandshake.c1Size)) }
      else loop
  | .read x env data =>
      if loop.Reads x data then
        let (ret, host) := loop.host.onRead env x data
        { host
          asked := Function.update loop.asked x (nextRead ret)
          received := Function.update loop.received x (loop.received x ++ data) }
      else loop
  | .failed x =>
      { loop with host := loop.host.close x, asked := Function.update loop.asked x none }

/-- Nothing is called any more once the process has stopped. -/
def step (loop : Loop) (cb : Callback) : Loop :=
  if loop.host.server.crashed = none then loop.perform cb else loop

end Loop

/-- The process as its callbacks. -/
def callbacks (recordForce : Bool) : Machine Loop Callback where
  start := { host := (machine recordForce).start }
  step := Loop.step

namespace RtmpChunkStream

theorem readFull_ready (size : Nat)
    {assign : Bytes → UInt32 → RtmpChunkStream → RtmpChunkStream}
    (keeps : ∀ mh ts cs, (assign mh ts cs).ready = cs.ready) (cs : RtmpChunkStream) (buf : Bytes) :
    (readFull size assign cs buf).2.1.ready = cs.ready := by
  obtain ⟨_, time, ext, rest, done⟩ | ⟨_, ext, done⟩ := readFull_cases size assign cs buf <;>
    rw [done]
  exact keeps _ _ _

theorem readHeader_ready {cs cs' : RtmpChunkStream} {fmt : UInt8} {buf rest : Bytes} {ret : Ret}
    (read : cs.readHeader fmt buf = .ok (ret, cs', rest)) (unready : cs.ready = false) :
    cs'.ready = false := by
  generalize same : (ret, cs', rest) = result at read
  cases readHeader_cases read with
  | past | unknown =>
      cases same
      exact unready
  | full idle format =>
      have kept : ∀ size {assign}, (∀ mh ts cs, (assign mh ts cs).ready = cs.ready) →
          (entered fmt (readFull size assign cs buf)).2.1.ready = false :=
        fun size _ keeps => (readFull_ready size keeps cs buf).trans unready
      cases same
      cases format with
      | f0 => exact kept 11 fun _ _ _ => rfl
      | f1 => exact kept 7 fun _ _ _ => rfl
      | f2 => exact kept 3 fun _ _ _ => rfl
  | @repeated again idle format done =>
      obtain ⟨ret', cs₁, rest'⟩ := again
      cases same
      obtain ⟨_, rfl⟩ | ⟨_, rfl, _⟩ | ⟨_, _, time, rfl⟩ := readF3_cases done
      · exact unready
      · exact unready
      · rfl

theorem readHeader_payload {cs cs' : RtmpChunkStream} {fmt : UInt8} {buf rest : Bytes}
    (read : cs.readHeader fmt buf = .ok (.ok, cs', rest)) : cs'.state = .payload := by
  generalize same : (Ret.ok, cs', rest) = result at read
  cases readHeader_cases read with
  | past busy =>
      cases same
      cases state : cs.state with
      | header => exact absurd state busy
      | payload => rfl
  | @full size assign =>
      have done : (readFull size assign cs buf).1 = .ok := (congrArg (·.1) same).symm
      have stored : cs' = (entered fmt (readFull size assign cs buf)).2.1 := congrArg (·.2.1) same
      rw [stored, entered, done]
      rfl
  | @repeated again =>
      have done : again.1 = .ok := (congrArg (·.1) same).symm
      have stored : cs' = (entered fmt again).2.1 := congrArg (·.2.1) same
      rw [stored, entered, done]
      rfl
  | unknown => cases same

end RtmpChunkStream

namespace RtmpSession

open RtmpChunkStream

/-- How reading a chunk comes to its end: stopped or waiting in the header, waiting for the payload,
    or done with it. -/
inductive ChunkRead (s : RtmpSession) (buf : Bytes) : Ret → RtmpSession → Bytes → Prop where
  | header {ret : Ret} {cs : RtmpChunkStream} {rest : Bytes} (unread : ret ≠ .ok)
      (header : (s.readBasicHeader buf).1.current.readHeader (s.readBasicHeader buf).1.fmt
        (s.readBasicHeader buf).2 = .ok (ret, cs, rest)) :
      ChunkRead s buf ret ((s.readBasicHeader buf).1.setCurrent cs) rest
  | waiting {cs : RtmpChunkStream} {rest : Bytes} {rem : UInt32}
      (header : (s.readBasicHeader buf).1.current.readHeader (s.readBasicHeader buf).1.fmt
        (s.readBasicHeader buf).2 = .ok (.ok, cs, rest))
      (state : cs.state = .payload) (left : cs.rem = some rem)
      (short : rest.length < (asked rem s.maxChunkSize).toNat) :
      ChunkRead s buf .more ((s.readBasicHeader buf).1.setCurrent cs) rest
  | taken {cs : RtmpChunkStream} {rest : Bytes} {rem : UInt32}
      (header : (s.readBasicHeader buf).1.current.readHeader (s.readBasicHeader buf).1.fmt
        (s.readBasicHeader buf).2 = .ok (.ok, cs, rest))
      (state : cs.state = .payload) (left : cs.rem = some rem) :
      ChunkRead s buf .ok
        { (s.readBasicHeader buf).1.setCurrent (cs.taken rem s.maxChunkSize rest) with
          headerRead := false }
        (rest.drop (asked rem s.maxChunkSize).toNat)

theorem readChunkStream_cases {s s' : RtmpSession} {buf rest : Bytes} {ret : Ret}
    (some : buf ≠ []) (read : s.readChunkStream buf = .ok (ret, s', rest)) :
    ChunkRead s buf ret s' rest := by
  have size : (s.readBasicHeader buf).1.maxChunkSize = s.maxChunkSize := by
    unfold readBasicHeader
    split <;> rfl
  rw [readChunkStream_body s some] at read
  cases header : (s.readBasicHeader buf).1.current.readHeader (s.readBasicHeader buf).1.fmt
      (s.readBasicHeader buf).2 with
  | error f =>
      simp only [readBody, header] at read
      cases read
  | ok result =>
      obtain ⟨ret₁, cs, rest₁⟩ := result
      by_cases done : ret₁ = .ok
      · subst done
        have state := readHeader_payload header
        rw [readBody_payload header] at read
        cases left : cs.rem with
        | none =>
            simp only [readPayload, state, left, ne_eq, not_true_eq_false, if_false] at read
            cases read
        | some rem =>
            rw [readPayload_eq state left, size] at read
            split at read <;> cases read
            · next short => exact .waiting header state left short
            · exact .taken header state left
      · have stopped : (s.readBasicHeader buf).1.readBody (s.readBasicHeader buf).2 =
            .ok (ret₁, (s.readBasicHeader buf).1.setCurrent cs, rest₁) := by
          simp only [readBody, header]
          exact if_pos done
        cases stopped.symm.trans read
        exact .header done header

/-- No chunk stream holds a complete message. -/
def Decoder.Unready (d : Decoder) : Prop := ∀ csid cs, d.csIn csid = some cs → cs.ready = false

/-- None but the current one does. -/
def Decoder.Settled (d : Decoder) : Prop :=
  ∀ csid cs, d.csIn csid = some cs → csid ≠ d.csid → cs.ready = false

theorem Decoder.Unready.settled {d : Decoder} (unready : d.Unready) : d.Settled :=
  fun csid cs found _ => unready csid cs found

theorem Decoder.Settled.store {d : Decoder} (settled : d.Settled) (cs : RtmpChunkStream) :
    (d.store cs).Settled := by
  intro csid cs' found other
  simp only [Decoder.store] at found other
  rw [Function.update_of_ne other] at found
  exact settled csid cs' found other

theorem Decoder.Settled.unready {d : Decoder} (settled : d.Settled) {cs : RtmpChunkStream}
    (unready : cs.ready = false) : (d.store cs).Unready := by
  intro csid cs' found
  by_cases self : csid = d.csid
  · simp only [Decoder.store, self, Function.update_self] at found
    cases found
    exact unready
  · exact settled.store cs csid cs' found self

theorem Decoder.Settled.drop {d : Decoder} (settled : d.Settled) (csid : UInt16) :
    (d.drop csid).Settled := by
  intro csid' cs found other
  by_cases self : csid' = csid
  · simp only [Decoder.drop, self, Function.update_self] at found
    cases found
  · simp only [Decoder.drop, Function.update_of_ne self] at found
    exact settled csid' cs found other

theorem Decoder.Unready.current {s : RtmpSession} (unready : s.decoder.Unready) :
    s.current.ready = false := by
  unfold RtmpSession.current
  cases found : s.csIn s.csid with
  | none => rfl
  | some cs => exact unready s.csid cs found

/-- Where all were settled, a chunk completes the current message at most, and none when the reader
    has to wait. -/
theorem Decoder.Unready.read {s s' : RtmpSession} {buf rest : Bytes} {ret : Ret}
    (unready : s.decoder.Unready) (some : buf ≠ [])
    (read : s.readChunkStream buf = .ok (ret, s', rest)) :
    s'.decoder.Settled ∧ (ret ≠ .ok ∨ s'.current.ready = false → s'.decoder.Unready) := by
  have begun : (s.readBasicHeader buf).1.decoder.Unready := by
    intro csid cs found
    have kept := (s.readBasicHeader_read buf).2
    exact unready csid cs ((congrFun kept csid).symm.trans found)
  cases readChunkStream_cases some read with
  | @header _ cs _ unread header =>
      have still := readHeader_ready header begun.current
      have stored := begun.settled.unready still
      exact ⟨stored.settled, fun _ => stored⟩
  | @waiting cs _ _ header =>
      have still := readHeader_ready header begun.current
      have stored := begun.settled.unready still
      exact ⟨stored.settled, fun _ => stored⟩
  | @taken cs rest rem header =>
      have stored := begun.settled.store (cs.taken rem s.maxChunkSize rest)
      refine ⟨stored, fun unready => ?_⟩
      have still : (cs.taken rem s.maxChunkSize rest).ready = false := by
        obtain wrong | still := unready
        · exact absurd rfl wrong
        · rwa [← setCurrent_current (s.readBasicHeader buf).1 (cs.taken rem s.maxChunkSize rest)]
      exact begun.settled.unready still

/-- The session waits for what comes next: nothing it holds is left to be handled. -/
structure Awaiting (s : RtmpSession) : Prop where
  isOpen : s.isOpen = true
  state : s.state ≠ .close
  unready : s.decoder.Unready

theorem Awaiting.phase {s : RtmpSession} (awaiting : s.Awaiting)
    (late : ¬ (s.state = .init ∨ s.state = .handshakeC2)) : s.InChunkPhase :=
  ⟨fun init => late (.inl init), fun shaking => late (.inr shaking), awaiting.state⟩

end RtmpSession

namespace Server

open Feed

variable {env : Env} {x : SessionId} {srv srv' : Server} {buf rest : Bytes}

theorem dispatch_unready (settled : (srv.sessions x).decoder.Settled)
    (handled : srv.dispatch env x = (.ok, srv')) : (srv'.sessions x).decoder.Unready := by
  obtain ⟨d, es, ran, view⟩ | ⟨_, failed, _⟩ := srv.dispatch_view env x
  · rw [handled] at ran view
    have stored : (srv'.sessions x).decoder = d :=
      (congrFun (congrArg View.decoders view) x).trans (Function.update_self ..)
    rw [stored]
    cases ran with
    | sized | cleared | connected => exact settled.unready rfl
    | aborted => exact (settled.drop _).unready rfl
  · rw [handled] at failed
    cases failed

theorem turn_awaiting (some : buf ≠ []) (phase : (srv.sessions x).InChunkPhase)
    (awaiting : (srv.sessions x).Awaiting) (running : srv.crashed = none)
    (turned : srv.turn env x buf = .next srv' rest ∨ srv.turn env x buf = .more srv' rest) :
    (srv'.sessions x).Awaiting ∧ srv'.crashed = none := by
  have state := (turn_phase phase turned).2.2
  have parsed : ∀ {ret s}, (srv.sessions x).readChunkStream buf = .ok (ret, s, rest) →
      ret ≠ .ok ∨ s.current.ready = false → srv' = srv.set x s →
      (srv'.sessions x).Awaiting ∧ srv'.crashed = none := by
    rintro ret s read still rfl
    have unready := (awaiting.unready.read some read).2 still
    have isOpen : s.isOpen = true := by
      obtain ⟨_, _, _, _, rfl⟩ := RtmpSession.readChunkStream_own read
      exact awaiting.isOpen
    rw [set_sessions] at state ⊢
    exact ⟨⟨isOpen, state, unready⟩, running⟩
  have outcome := turn_cases env x srv buf
  obtain turned | turned := turned
  · rw [turned] at outcome
    cases outcome with
    | chunk read unready => exact parsed read (.inr unready) rfl
    | @handled s _ _ read ready handled =>
        have settled := (awaiting.unready.read some read).1
        rw [← set_sessions srv x s] at settled
        obtain ⟨isOpen, crashed⟩ := dispatch_keeps handled
        have opened : s.isOpen = true := by
          obtain ⟨_, _, _, _, rfl⟩ := RtmpSession.readChunkStream_own read
          exact awaiting.isOpen
        rw [set_sessions, opened] at isOpen
        exact ⟨⟨isOpen, state, dispatch_unready settled handled⟩, crashed.trans running⟩
  · rw [turned] at outcome
    cases outcome with
    | waits read =>
        have waiting : Ret.more ≠ .ok := nofun
        exact parsed read (.inl waiting) rfl

theorem close_closed (isOpen : (srv.sessions x).isOpen = true) (running : (srv.close x).crashed = none) :
    ((srv.close x).sessions x).state = .close := by
  unfold close at running ⊢
  rw [if_pos isOpen] at running ⊢
  simp only at running ⊢
  split at running
  · next closed =>
      obtain ⟨_, _, rest⟩ := bind_ok.mp closed
      cases rest
      rw [set_sessions]
  · cases running

end Server

namespace Host

open Feed

variable {recordForce : Bool} {env : Env} {x : SessionId} {host : Host} {srv : Server} {buf : Bytes}

@[simp] theorem put_server (host : Host) (x : SessionId) (srv : Server) (buf : Bytes) :
    (host.put x srv buf).server = srv := rfl

@[simp] theorem put_recvBuf (host : Host) (x : SessionId) (srv : Server) (buf : Bytes) :
    (host.put x srv buf).recvBuf x = buf := Function.update_self ..

@[simp] theorem put_put (host : Host) (x : SessionId) (srv srv' : Server) (buf buf' : Bytes) :
    (host.put x srv buf).put x srv' buf' = host.put x srv' buf' := by
  simp only [put, Function.update_idem]

theorem step_accept (running : host.server.crashed = none)
    (opens : (!(host.server.sessions x).isOpen) = true ∧ (host.server.sessions x).state = .init) :
    host.step (.accept x) = { host with
      server := host.server.set x { host.server.sessions x with isOpen := true } } := by
  rw [step, if_pos running, perform]
  exact if_pos opens

theorem step_parse (running : srv.crashed = none) (awaiting : (srv.sessions x).Awaiting)
    (phase : (srv.sessions x).InChunkPhase) (some : buf ≠ []) :
    (host.put x srv buf).step (.parse x) =
      if (srv.parse x buf).2.1.crashed = none ∧ (srv.parse x buf).1 = .fail then
        (host.put x (srv.parse x buf).2.1 (srv.parse x buf).2.2).close x
      else host.put x (srv.parse x buf).2.1 (srv.parse x buf).2.2 := by
  have idle : ¬ (srv.sessions x).current.ready := by
    rw [awaiting.unready.current]
    exact nofun
  have parsing : (host.put x srv buf).Parsing x := by
    rw [Parsing, put_recvBuf]
    exact ⟨awaiting.isOpen, phase, idle, some⟩
  have alive : (host.put x srv buf).server.crashed = none := running
  rw [step, if_pos alive, perform, if_pos parsing]
  simp only [put_recvBuf, put_server, put_put]

theorem step_dispatch (running : srv.crashed = none) (isOpen : (srv.sessions x).isOpen = true)
    (phase : (srv.sessions x).InChunkPhase) (ready : (srv.sessions x).current.ready = true) :
    (host.put x srv buf).step (.dispatch x env) = host.put x (srv.dispatch env x).2 buf := by
  have enabled : (host.put x srv buf).Ready x := ⟨isOpen, phase, ready⟩
  have alive : (host.put x srv buf).server.crashed = none := running
  rw [step, if_pos alive, perform, if_pos enabled]
  rfl

/-- Single steps of one session lead from one host to the other. -/
def Leads (recordForce : Bool) (x : SessionId) (host host' : Host) : Prop :=
  ∃ labels, (∀ l ∈ labels, Label.session l = x) ∧ (machine recordForce).exec host labels = host'

theorem Leads.refl (host : Host) : Leads recordForce x host host := ⟨[], by simp, rfl⟩

theorem Leads.step {host' : Host} {l : Label} (session : l.session = x)
    (later : Leads recordForce x (host.step l) host') : Leads recordForce x host host' := by
  obtain ⟨labels, own, done⟩ := later
  refine ⟨l :: labels, ?_, done⟩
  intro k inside
  obtain rfl | inside := List.mem_cons.mp inside
  · exact session
  · exact own k inside

theorem Leads.invariant {P : Host → Prop} {host' : Host} (leads : Leads recordForce x host host')
    (keeps : ∀ host l, Label.session l = x → P host → P (host.step l)) (holds : P host) :
    P host' := by
  obtain ⟨labels, own, rfl⟩ := leads
  induction labels generalizing host with
  | nil => exact holds
  | cons l labels ih =>
      exact ih (keeps host l (own l List.mem_cons_self) holds) fun k inside =>
        own k (List.mem_cons_of_mem _ inside)

theorem Leads.reachable {host' : Host} (leads : Leads recordForce x host host')
    (reached : (machine recordForce).Reachable host) : (machine recordForce).Reachable host' := by
  obtain ⟨labels, _, rfl⟩ := leads
  obtain ⟨done, rfl⟩ := reached
  exact ⟨done ++ labels, (machine recordForce).exec_append _ done labels⟩

theorem Leads.other {host' : Host} {y : SessionId} (other : y ≠ x)
    (leads : Leads recordForce x host host') :
    (host'.server.sessions y).quiet = (host.server.sessions y).quiet ∧
      host'.recvBuf y = host.recvBuf y := by
  refine leads.invariant (P := fun after =>
    (after.server.sessions y).quiet = (host.server.sessions y).quiet ∧
      after.recvBuf y = host.recvBuf y) ?_ ⟨rfl, rfl⟩
  rintro before l rfl ⟨session, buf⟩
  exact ⟨(Server.Acts.other other (before.step_acts_close l)).trans session,
    (before.step_recvBuf other).trans buf⟩

theorem Leads.forward {host' : Host} (leads : Leads recordForce x host host') (y : SessionId) :
    (host.server.sessions y).state.rank ≤ (host'.server.sessions y).state.rank := by
  obtain ⟨labels, _, rfl⟩ := leads
  exact host.forward recordForce labels y

section Drain

variable (phase : (srv.sessions x).InChunkPhase) (awaiting : (srv.sessions x).Awaiting)
  (running : srv.crashed = none)
include phase awaiting running

theorem Leads.parse {s : RtmpSession} {rest : Bytes} {ret : Ret} {host' : Host} (some : buf ≠ [])
    (read : (srv.sessions x).readChunkStream buf = .ok (ret, s, rest)) (good : ret ≠ .fail)
    (later : Leads recordForce x (host.put x (srv.set x s) rest) host') :
    Leads recordForce x (host.put x srv buf) host' := by
  have parsed : srv.parse x buf = (ret, srv.set x s, rest) := by simp only [Server.parse, read]
  refine .step (l := .parse x) rfl ?_
  rw [step_parse running awaiting phase some, parsed]
  simp only [good, and_false, if_false]
  exact later

theorem Leads.message (env : Env) {s : RtmpSession} {rest : Bytes} {host' : Host} (some : buf ≠ [])
    (read : (srv.sessions x).readChunkStream buf = .ok (.ok, s, rest))
    (ready : s.current.ready = true)
    (later : Leads recordForce x (host.put x ((srv.set x s).dispatch env x).2 rest) host') :
    Leads recordForce x (host.put x srv buf) host' := by
  refine .parse phase awaiting running some read (by decide) ?_
  refine .step (l := .dispatch x env) rfl ?_
  have alive : (srv.set x s).crashed = none := running
  rw [step_dispatch alive ?_ ?_ ?_]
  · exact later
  · rw [Server.set_sessions]
    obtain ⟨_, _, _, _, rfl⟩ := RtmpSession.readChunkStream_own read
    exact awaiting.isOpen
  · rw [Server.set_sessions, RtmpSession.InChunkPhase, (RtmpSession.readChunkStream_keeps read).1]
    exact phase
  · rwa [Server.set_sessions]

end Drain

/-- Draining the buffer is reading chunks and handling messages, one after the other. -/
theorem drains_leads (recordForce : Bool) (host : Host) {d : Drained Server UInt8}
    (drains : Drains (Server.turn env x) srv buf d)
    (phase : (srv.sessions x).InChunkPhase) (awaiting : (srv.sessions x).Awaiting)
    (running : srv.crashed = none) :
    Leads recordForce x (host.put x srv buf) (host.finish x d).2 := by
  induction drains with
  | empty => exact .refl _
  | more some turned =>
      obtain ⟨s, read, rfl⟩ := Server.turn_more turned
      exact .parse phase awaiting running some read (by decide) (.refl _)
  | @halt srv buf srv' rest some turned =>
      have outcome := Server.turn_cases env x srv buf
      rw [turned] at outcome
      cases outcome with
      | @fault f read =>
          have parsed : srv.parse x buf = (.fail, srv.crash f, buf) := by
            simp only [Server.parse, read]
          have stopped : (srv.crash f).crashed ≠ none := Option.some_ne_none f
          refine .step (l := .parse x) rfl ?_
          rw [step_parse running awaiting phase some, parsed]
          simp only [stopped, false_and, if_false, finish, if_true]
          exact .refl _
      | @refused s rest read =>
          have parsed : srv.parse x buf = (.fail, srv.set x s, rest) := by
            simp only [Server.parse, read]
          have alive : (srv.set x s).crashed = none := running
          refine .step (l := .parse x) rfl ?_
          rw [step_parse running awaiting phase some, parsed]
          simp only [alive, and_self, if_true, finish]
          exact .refl _
      | @failed s _ _ read ready failed =>
          refine .message phase awaiting running env some read ready ?_
          rw [failed]
          by_cases alive : srv'.crashed = none
          · refine .step (l := .close x) rfl ?_
            have closed : (host.put x srv' rest).step (.close x) = (host.put x srv' rest).close x :=
              if_pos alive
            simp only [closed, finish, alive, if_true]
            exact .refl _
          · simp only [finish, alive, if_true, if_false]
            exact .refl _
  | @next srv buf srv' rest d some turned drains ih =>
      obtain ⟨awaiting', running'⟩ := Server.turn_awaiting some phase awaiting running (.inl turned)
      have later := ih (Server.turn_phase phase (.inl turned)) awaiting' running'
      have outcome := Server.turn_cases env x srv buf
      rw [turned] at outcome
      cases outcome with
      | chunk read => exact .parse phase awaiting running some read (by decide) later
      | handled read ready handled =>
          refine .message phase awaiting running env some read ready ?_
          rwa [handled]

theorem drains_awaiting {d : Drained Server UInt8} (drains : Drains (Server.turn env x) srv buf d)
    (phase : (srv.sessions x).InChunkPhase) (awaiting : (srv.sessions x).Awaiting)
    (running : srv.crashed = none) (going : d.halted = false) :
    (d.state.sessions x).Awaiting ∧ d.state.crashed = none := by
  induction drains with
  | empty => exact ⟨awaiting, running⟩
  | more some turned => exact Server.turn_awaiting some phase awaiting running (.inr turned)
  | halt => cases going
  | next some turned _ ih =>
      obtain ⟨awaiting', running'⟩ := Server.turn_awaiting some phase awaiting running (.inl turned)
      exact ih (Server.turn_phase phase (.inl turned)) awaiting' running' going

theorem onRead_drains (env : Env) (phase : (host.server.sessions x).InChunkPhase) {data : Bytes}
    (some : data ≠ []) :
    ∃ d, Drains (Server.turn env x) host.server (host.recvBuf x ++ data) d ∧
      host.onRead env x data = host.finish x d :=
  ⟨_, Server.turn_drains env x _ _, onRead_drain phase some⟩

theorem onRead_shake (env : Env) (data : Bytes) (early : (host.server.sessions x).state = .init ∨
      (host.server.sessions x).state = .handshakeC2)
    (isOpen : (host.server.sessions x).isOpen = true) (running : host.server.crashed = none) :
    ∃ ret srv rest, Server.Shaken env host.server x (host.recvBuf x ++ data) (ret, srv, rest) ∧
      (host.put x host.server (host.recvBuf x ++ data)).step (.shake x env) =
        (if ret = .fail then (host.put x srv rest).close x else host.put x srv rest) ∧
      host.onRead env x data =
        (ret, if ret = .fail then (host.put x srv rest).close x else host.put x srv rest) := by
  have outcome := host.server.shake_cases env x (host.recvBuf x ++ data)
  generalize shaken : host.server.shake env x (host.recvBuf x ++ data) = result at outcome
  obtain ⟨ret, srv, rest⟩ := result
  have alive : srv.crashed = none := outcome.keeps.2.2.trans running
  refine ⟨ret, srv, rest, outcome, ?_, ?_⟩
  · simp only [step, perform, put_server, put_recvBuf, running, isOpen, early, and_self, if_true,
      shaken, put_put]
  · simp only [onRead, handle, put_server, put_recvBuf, early, if_true, shaken, put_put, alive,
      true_and]

/-- `on_read` of a session that awaits input is a run of single steps. -/
theorem onRead_leads (host : Host) (env : Env) {data : Bytes} (some : data ≠ [])
    (awaiting : (host.server.sessions x).Awaiting) (running : host.server.crashed = none) :
    Leads recordForce x host (host.onRead env x data).2 := by
  have received : host.step (.receive x data) =
      host.put x host.server (host.recvBuf x ++ data) := by
    rw [step, if_pos running, perform, if_pos awaiting.isOpen]
  refine .step (l := .receive x data) rfl ?_
  rw [received]
  by_cases early : (host.server.sessions x).state = .init ∨
      (host.server.sessions x).state = .handshakeC2
  · obtain ⟨ret, srv, rest, _, stepped, done⟩ := onRead_shake env data early awaiting.isOpen running
    refine .step (l := .shake x env) rfl ?_
    rw [stepped, done]
    exact .refl _
  · have phase := awaiting.phase early
    obtain ⟨d, drains, done⟩ := onRead_drains env phase some
    rw [done]
    exact drains_leads _ _ drains phase awaiting running

end Host

namespace Loop

/-- What holds of a session while the process runs: it awaits input if it is to read, and is as it
    was made if it has never been accepted. -/
structure Sane (loop : Loop) (x : SessionId) : Prop where
  awaiting : ∀ {n}, loop.asked x = some n → (loop.host.server.sessions x).Awaiting
  fresh : loop.asked x = none → (loop.host.server.sessions x).state = .init →
    (loop.host.server.sessions x).quiet = RtmpSession.quiet {} ∧ loop.host.recvBuf x = []

variable {recordForce : Bool} {loop : Loop}

/-- Every callback is a run of single steps of its session. -/
theorem perform_leads (recordForce : Bool) (running : loop.host.server.crashed = none) {cb : Callback}
    (sane : loop.Sane cb.session) :
    Host.Leads recordForce cb.session loop.host (loop.perform cb).host := by
  cases cb with
  | connected x =>
      simp only [perform]
      split
      · exact .step rfl (.refl _)
      · exact .refl _
  | failed x =>
      have closed : loop.host.step (.close x) = loop.host.close x := if_pos running
      exact .step (l := .close x) rfl (closed ▸ .refl _)
  | read x env data =>
      simp only [perform]
      split
      · next reads =>
        obtain ⟨some, n, asked, _⟩ := reads
        exact loop.host.onRead_leads env some (sane.awaiting asked) running
      · exact .refl _

theorem onRead_awaiting {host : Host} {env : Env} {x : SessionId} {data : Bytes} (some : data ≠ [])
    (awaiting : (host.server.sessions x).Awaiting) (running : host.server.crashed = none)
    (alive : (host.onRead env x data).2.server.crashed = none) :
    if (host.onRead env x data).1 = .fail then
      ((host.onRead env x data).2.server.sessions x).state ≠ .init
    else ((host.onRead env x data).2.server.sessions x).Awaiting := by
  by_cases early : (host.server.sessions x).state = .init ∨
      (host.server.sessions x).state = .handshakeC2
  · obtain ⟨ret, srv, rest, shaken, _, done⟩ :=
      Host.onRead_shake env data early awaiting.isOpen running
    obtain ⟨isOpen, decoder, _⟩ := shaken.keeps
    have opened : (srv.sessions x).isOpen = true := isOpen.trans awaiting.isOpen
    have unready : (srv.sessions x).decoder.Unready := decoder ▸ awaiting.unready
    rw [done] at alive ⊢
    cases shaken with
    | waits => exact awaiting
    | refused =>
        have closed := Server.close_closed opened alive
        intro init
        exact absurd (closed.symm.trans init) (by decide)
    | greeted | shaken =>
        refine ⟨opened, ?_, unready⟩
        simp only [Host.put_server, Server.emit, Server.set_sessions, reduceCtorEq, if_false, ne_eq,
          not_false_eq_true]
  · have phase := awaiting.phase early
    obtain ⟨d, drains, done⟩ := Host.onRead_drains env phase some
    rw [done] at alive ⊢
    cases halted : d.halted with
    | true =>
        have failed : (host.finish x d).1 = .fail := by rw [Host.finish, if_pos halted]
        have leads := Host.drains_leads false host drains phase awaiting running
        have forward := leads.forward x
        rw [if_pos failed]
        intro init
        rw [init] at forward
        exact phase.1 (SessionState.rank_init forward)
    | false =>
        have waits : host.finish x d = (.more, host.put x d.state d.rest) := by
          rw [Host.finish, halted]
          rfl
        rw [waits]
        exact (Host.drains_awaiting drains phase awaiting running halted).1

theorem perform_asked (loop : Loop) {cb : Callback} {y : SessionId} (other : y ≠ cb.session) :
    (loop.perform cb).asked y = loop.asked y := by
  cases cb with
  | connected | read =>
      simp only [perform]
      split
      · exact Function.update_of_ne other _ _
      · rfl
  | failed => exact Function.update_of_ne other _ _

theorem perform_sane_other (running : loop.host.server.crashed = none) {cb : Callback}
    (own : loop.Sane cb.session) {y : SessionId} (other : y ≠ cb.session) (sane : loop.Sane y) :
    (loop.perform cb).Sane y := by
  have asked := loop.perform_asked other
  obtain ⟨session, buf⟩ := (perform_leads false running own).other other
  have state := congrArg RtmpSession.state session
  constructor
  · intro n again
    have awaiting := sane.awaiting (asked.symm.trans again)
    have decoder := congrArg RtmpSession.decoder session
    exact ⟨(congrArg RtmpSession.isOpen session).trans awaiting.isOpen,
      fun closed => awaiting.state (state.symm.trans closed), decoder ▸ awaiting.unready⟩
  · intro none init
    obtain ⟨fresh, empty⟩ := sane.fresh (asked.symm.trans none) (state.symm.trans init)
    exact ⟨session.trans fresh, buf.trans empty⟩

theorem Sane.unasked {x : SessionId} (sane : loop.Sane x)
    (shut : ¬ (loop.host.server.sessions x).isOpen) : loop.asked x = none := by
  cases asked : loop.asked x with
  | none => rfl
  | some n => exact absurd (sane.awaiting asked).isOpen shut

theorem awaiting_accepted {s s' : RtmpSession} (fresh : s.quiet = RtmpSession.quiet {})
    (accepted : s' = { s with isOpen := true }) : s'.Awaiting := by
  subst accepted
  have decoder := congrArg RtmpSession.decoder fresh
  refine ⟨rfl, fun closed => ?_, fun csid cs found => ?_⟩
  · have init := congrArg RtmpSession.state fresh
    exact absurd (init.symm.trans closed) (by decide)
  · have absent := congrFun (congrArg RtmpSession.Decoder.csIn decoder) csid
    cases absent.symm.trans found

theorem perform_sane_own (running : loop.host.server.crashed = none) {cb : Callback}
    (sane : loop.Sane cb.session) (alive : (loop.perform cb).host.server.crashed = none) :
    (loop.perform cb).Sane cb.session := by
  cases cb with
  | connected x =>
      simp only [perform] at alive ⊢
      split
      · next opens =>
        have shut : ¬ (loop.host.server.sessions x).isOpen := by simpa using opens.1
        obtain ⟨fresh, _⟩ := sane.fresh (sane.unasked shut) opens.2
        have accepted : (loop.host.step (.accept x)).server.sessions x =
            { loop.host.server.sessions x with isOpen := true } := by
          rw [Host.step_accept running opens, Server.set_sessions]
        refine ⟨fun _ => ?_, fun none => ?_⟩
        · exact awaiting_accepted fresh accepted
        · cases (Function.update_self x _ loop.asked).symm.trans none
      · exact sane
  | read x env data =>
      simp only [perform] at alive ⊢
      split
      · next reads =>
        rw [if_pos reads] at alive
        obtain ⟨some, n, asked, _⟩ := reads
        have done := onRead_awaiting (x := x) some (sane.awaiting asked) running alive
        have next := Function.update_self x (nextRead (loop.host.onRead env x data).1) loop.asked
        split at done
        · next failed =>
            refine ⟨fun again => ?_, fun _ init => absurd init done⟩
            have asks := next.symm.trans again
            rw [failed] at asks
            cases asks
        · next going =>
            refine ⟨fun _ => done, fun none => ?_⟩
            have asks := next.symm.trans none
            cases ret : (loop.host.onRead env x data).1 with
            | fail => exact absurd ret going
            | ok | more =>
                rw [ret] at asks
                cases asks
      · exact sane
  | failed x =>
      simp only [perform] at alive ⊢
      refine ⟨fun again => ?_, fun _ init => ?_⟩
      · cases (Function.update_self x none loop.asked).symm.trans again
      · by_cases isOpen : (loop.host.server.sessions x).isOpen
        · have closed := Server.close_closed isOpen alive
          exact absurd (closed.symm.trans init) (by decide)
        · have same : loop.host.close x = loop.host := by
            rw [Host.close, Server.close, if_neg isOpen]
          rw [same] at init ⊢
          exact sane.fresh (sane.unasked isOpen) init

/-- Every session is in order, unless the process has stopped. -/
def Orderly (loop : Loop) : Prop := loop.host.server.crashed = none → ∀ x, loop.Sane x

theorem orderly_start (recordForce : Bool) : (callbacks recordForce).start.Orderly :=
  fun _ _ => ⟨nofun, fun _ _ => ⟨rfl, rfl⟩⟩

theorem Orderly.step (orderly : loop.Orderly) (cb : Callback) : (loop.step cb).Orderly := by
  intro alive x
  by_cases running : loop.host.server.crashed = none
  · have stepped : loop.step cb = loop.perform cb := if_pos running
    rw [stepped] at alive ⊢
    have sane := orderly running
    by_cases self : x = cb.session
    · subst self
      exact perform_sane_own running (sane _) alive
    · exact perform_sane_other running (sane _) self (sane x)
  · have stopped : loop.step cb = loop := if_neg running
    rw [stopped] at alive
    exact absurd alive running

theorem reachable_sane {recordForce : Bool} {loop : Loop}
    (reached : (callbacks recordForce).Reachable loop)
    (running : loop.host.server.crashed = none) (x : SessionId) : loop.Sane x :=
  Machine.Reachable.invariant (P := Orderly) (orderly_start recordForce)
    (fun _ cb orderly => orderly.step cb) reached running x

/-- The states between callbacks are states of single steps. -/
theorem reachable_host {recordForce : Bool} {loop : Loop}
    (reached : (callbacks recordForce).Reachable loop) :
    (machine recordForce).Reachable loop.host := by
  obtain ⟨cbs, rfl⟩ := reached
  induction cbs using List.reverseRecOn with
  | nil => exact .run _ []
  | append_singleton cbs cb ih =>
      rw [Machine.run_snoc]
      by_cases running : ((callbacks recordForce).run cbs).host.server.crashed = none
      · have sane := reachable_sane (.run _ cbs) running cb.session
        have stepped : (callbacks recordForce).step ((callbacks recordForce).run cbs) cb = _ :=
          if_pos running
        rw [stepped]
        exact (perform_leads recordForce running sane).reachable ih
      · have stopped : (callbacks recordForce).step ((callbacks recordForce).run cbs) cb = _ :=
          if_neg running
        rwa [stopped]

end Loop

end DroneServer
