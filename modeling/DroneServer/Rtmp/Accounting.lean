import DroneServer.Rtmp.Loop

/-! # The bytes of the handshake

Until a session is connected, every byte it was given is one it has consumed or
one of its buffer: first none, then C0C1, then C0C1 and C2. It has sent its reply
exactly when it has consumed C0C1.
-/

namespace DroneServer

open Endian RtmpHandshake

/-- All calls of the crypto library succeed. -/
structure Env.Succeeds (env : Env) : Prop where
  hmac : ∀ n key data, ∃ digest, env.hmac n key data = some digest ∧ digest.length = keyLen
  rand : env.rand.isSome

namespace RtmpHandshake

section Succeeds

variable {env : Env} (succeeds : env.Succeeds)
include succeeds

theorem hmacSha256_succeeds (n : Nat) (key data : Bytes) (skip : Option Nat) :
    ∃ digest, hmacSha256 env n key data skip = some digest ∧ digest.length = keyLen := by
  have answers : ∀ data, ∃ digest,
      (env.hmac n key data).filter (fun digest => digest.length = keyLen) = some digest ∧
        digest.length = keyLen := by
    intro data
    obtain ⟨digest, made, length⟩ := succeeds.hmac n key data
    exact ⟨digest, by simp only [made, Option.filter_some, length, decide_true, if_true], length⟩
  cases skip <;> exact answers _

theorem sendS0S1S2_succeeds {hs : RtmpHandshake} (echoed : hs.m.length = c1Size) :
    ∃ reply, (hs.sendS0S1S2 env).2.2 = some reply ∧
      reply.length = c0Size + c1Size + c2Size := by
  obtain ⟨fill, rand⟩ := Option.isSome_iff_exists.mp succeeds.rand
  have answered : Answered env hs := by
    refine ⟨fill, rand, fun _ => ?_⟩
    obtain ⟨digest, signed, _⟩ := hmacSha256_succeeds succeeds 3 partialServerKey
      (hs.signedBlock fill) (some (digestOffset (hs.signedBlock fill) 8))
    obtain ⟨_, keyed, _⟩ := hmacSha256_succeeds succeeds 4 clientKey digest none
    obtain ⟨_, closed, _⟩ := hmacSha256_succeeds succeeds 5 hs.cdigest
      (((randomBytes fill).drop c1Size).take (c2Size - keyLen)) none
    exact ⟨digest, signed, by simp [keyed], by simp [closed]⟩
  obtain ⟨_, _, reply, sent, complete⟩ | ⟨refused, _⟩ := sendS0S1S2_cases env echoed
  · exact ⟨reply, by rw [sent], complete.2⟩
  · exact absurd answered refused

end Succeeds

end RtmpHandshake

/-- A session in one of the two states of the handshake. -/
def RtmpSession.Early (s : RtmpSession) : Prop := s.state = .init ∨ s.state = .handshakeC2

theorem RtmpSession.Early.not_entered {s : RtmpSession} (early : s.Early) : ¬ s.Entered := by
  intro entered
  obtain early | early := early <;> obtain entered | entered := entered <;>
    exact absurd (early.symm.trans entered) (by decide)

theorem Server.leaveStream_unpublished {srv : Server} {x : SessionId}
    (unpublished : ∀ st, srv.streams (srv.sessions x).url = some st → st.publisher ≠ some x) :
    ∃ srv', srv.leaveStream x = .ok srv' ∧ srv'.crashed = srv.crashed := by
  unfold leaveStream
  simp only
  split
  · exact ⟨srv, rfl, rfl⟩
  · next st found =>
      rw [if_neg (unpublished st found)]
      refine ⟨_, rfl, ?_⟩
      split <;> rfl

/-- Closing a session in the handshake does not fail: it is in no stream. -/
theorem Registry.close_early {srv : Server} (reg : Registry srv) {x : SessionId}
    (early : (srv.sessions x).Early) (isOpen : (srv.sessions x).isOpen = true)
    (running : srv.crashed = none) : ((srv.close x).sessions x).state = .close := by
  refine Server.close_closed isOpen ?_
  have unpublished : ∀ st, (srv.set x { srv.sessions x with isOpen := false }).streams
      ((srv.set x { srv.sessions x with isOpen := false }).sessions x).url = some st →
      st.publisher ≠ some x := by
    rw [Server.set_sessions]
    intro st found publishes
    exact early.not_entered (reg.entered found ((reg.sound found).hosted x publishes))
  obtain ⟨srv', left, crashed⟩ := Server.leaveStream_unpublished unpublished
  rw [Server.close, if_pos isOpen]
  simp only [Server.onClose, left]
  exact crashed.trans running

namespace Loop

/-- The session has consumed the first `n` bytes it was given, from a C0 of version 3 on, and its
    buffer holds the others. -/
def Consumed (loop : Loop) (x : SessionId) (n : Nat) : Prop :=
  ∃ front, loop.received x = front ++ loop.host.recvBuf x ∧ front.length = n ∧
    front.head? = some 3

/-- During the handshake all bytes are accounted for, and so is the reply. -/
structure Accounted (loop : Loop) (x : SessionId) : Prop where
  untouched : (loop.host.server.sessions x).state = .init →
    loop.received x = loop.host.recvBuf x ∧ (loop.host.server.sessions x).written = []
  replied : (loop.host.server.sessions x).state = .handshakeC2 →
    loop.Consumed x (c0Size + c1Size) ∧
      ∃ reply, (loop.host.server.sessions x).written = [reply] ∧
        reply.length = c0Size + c1Size + c2Size

/-- The callback between two states has taken a session from the handshake to `CONNECT`. -/
structure Greeted (loop loop' : Loop) (x : SessionId) : Prop where
  before : (loop.host.server.sessions x).state = .handshakeC2
  after : (loop'.host.server.sessions x).state = .connect
  consumed : loop'.Consumed x (c0Size + c1Size + c2Size)
  replied : (loop'.host.server.sessions x).written = (loop.host.server.sessions x).written

variable {recordForce : Bool} {loop loop' : Loop} {x : SessionId} {cb : Callback}

theorem Accounted.congr (accounted : loop.Accounted x)
    (session : (loop'.host.server.sessions x).state = (loop.host.server.sessions x).state ∧
      (loop'.host.server.sessions x).written = (loop.host.server.sessions x).written)
    (buf : loop'.host.recvBuf x = loop.host.recvBuf x)
    (received : loop'.received x = loop.received x) : loop'.Accounted x := by
  obtain ⟨state, written⟩ := session
  constructor
  · rw [state, written, buf, received]
    exact accounted.untouched
  · rw [state, written, Consumed, buf, received]
    exact accounted.replied

theorem Accounted.of_late (late : ¬ (loop.host.server.sessions x).Early) : loop.Accounted x :=
  ⟨fun init => absurd (.inl init) late, fun shaking => absurd (.inr shaking) late⟩

/-- A callback does not touch other sessions in the handshake. -/
theorem perform_early (reached : (callbacks recordForce).Reachable loop)
    (running : loop.host.server.crashed = none) (other : x ≠ cb.session)
    (early : (loop.host.server.sessions x).Early) :
    (loop.perform cb).host.server.sessions x = loop.host.server.sessions x ∧
      (loop.perform cb).host.recvBuf x = loop.host.recvBuf x := by
  have leads := perform_leads recordForce running (reachable_sane reached running cb.session)
  have kept := leads.invariant (P := fun host => (machine recordForce).Reachable host ∧
    host.server.sessions x = loop.host.server.sessions x ∧ host.recvBuf x = loop.host.recvBuf x)
  refine (kept ?_ ⟨reachable_host reached, rfl, rfl⟩).2
  rintro host l own ⟨reached, session, buf⟩
  have gone := Host.gone reached (session ▸ early.not_entered)
  obtain ⟨same, bytes⟩ := host.step_other (own ▸ other) gone
  refine ⟨?_, same.trans session, bytes.trans buf⟩
  obtain ⟨labels, rfl⟩ := reached
  exact ⟨labels ++ [l], Machine.run_snoc _ labels l⟩

theorem perform_received (other : x ≠ cb.session) :
    (loop.perform cb).received x = loop.received x := by
  cases cb with
  | connected | failed =>
      simp only [perform]
      try split <;> rfl
  | read =>
      simp only [perform]
      split
      · exact Function.update_of_ne other _ _
      · rfl

/-- What a callback of a session in the handshake may lead to. -/
def Accounts (loop loop' : Loop) (x : SessionId) : Prop :=
  loop'.Accounted x ∧ ((loop'.host.server.sessions x).Early ∨
    (loop'.host.server.sessions x).state = .close ∨ loop.Greeted loop' x)

theorem Accounts.still (early : (loop.host.server.sessions x).Early) (accounted : loop'.Accounted x)
    (state : (loop'.host.server.sessions x).state = (loop.host.server.sessions x).state) :
    loop.Accounts loop' x := by
  refine ⟨accounted, .inl ?_⟩
  rwa [RtmpSession.Early, state]

theorem Accounts.closed (state : (loop'.host.server.sessions x).state = .close) :
    loop.Accounts loop' x := by
  refine ⟨.of_late ?_, .inr (.inl state)⟩
  rintro (init | shaking)
  · exact absurd (state.symm.trans init) (by decide)
  · exact absurd (state.symm.trans shaking) (by decide)

theorem Consumed.more {n : Nat} {data : Bytes} (consumed : loop.Consumed x n)
    (received : loop'.received x = loop.received x ++ data)
    (buf : loop'.host.recvBuf x = loop.host.recvBuf x ++ data) : loop'.Consumed x n := by
  obtain ⟨front, split, length, version⟩ := consumed
  refine ⟨front, ?_, length, version⟩
  rw [received, split, buf, List.append_assoc]

theorem Accounted.read (reg : Registry loop.host.server) (running : loop.host.server.crashed = none)
    (accounted : loop.Accounted x) (awaiting : (loop.host.server.sessions x).Awaiting)
    (early : (loop.host.server.sessions x).Early) {env : Env} (succeeds : env.Succeeds)
    {data : Bytes} (done : loop'.host = (loop.host.onRead env x data).2)
    (received : loop'.received x = loop.received x ++ data) : loop.Accounts loop' x := by
  obtain ⟨ret, srv, rest, shaken, _, read⟩ :=
    Host.onRead_shake env data early awaiting.isOpen running
  rw [read] at done
  have buffered : ret ≠ .fail → loop'.host.server = srv ∧ loop'.host.recvBuf x = rest := by
    intro good
    rw [done, if_neg good]
    exact ⟨rfl, Host.put_recvBuf ..⟩
  cases shaken with
  | waits short =>
      obtain ⟨server, buf⟩ := buffered nofun
      refine .still early ⟨fun init => ?_, fun shaking => ?_⟩ (by rw [server])
      · rw [server] at init ⊢
        obtain ⟨all, unwritten⟩ := accounted.untouched init
        exact ⟨by rw [received, all, buf], unwritten⟩
      · rw [server] at shaking ⊢
        obtain ⟨consumed, replied⟩ := accounted.replied shaking
        exact ⟨consumed.more received buf, replied⟩
  | @refused hs rest =>
      have session := Server.set_sessions loop.host.server x { loop.host.server.sessions x with hs }
      have again : Registry (loop.host.server.set x { loop.host.server.sessions x with hs }) := by
        refine reg.same rfl rfl fun y entered => ?_
        by_cases self : y = x
        · rw [self] at entered ⊢
          rwa [session]
        · rwa [Server.set_other _ _ self]
      refine .closed ?_
      rw [done]
      refine again.close_early ?_ ?_ running
      · rwa [session]
      · rw [session]
        exact awaiting.isOpen
  | @greeted hs init long accepts echoed =>
      obtain ⟨server, buf⟩ := buffered nofun
      obtain ⟨all, unwritten⟩ := accounted.untouched init
      obtain ⟨reply, sent, length⟩ := sendS0S1S2_succeeds succeeds echoed
      have state : (loop'.host.server.sessions x).state = .handshakeC2 := by
        rw [server, Server.set_sessions]
      refine ⟨⟨fun again => ?_, fun _ => ⟨?_, reply, ?_, length⟩⟩, .inl (.inr state)⟩
      · exact absurd (state.symm.trans again) (by decide)
      · refine ⟨(loop.host.recvBuf x ++ data).take (c0Size + c1Size), ?_,
          List.length_take_of_le long, ?_⟩
        · rw [received, all, buf, List.take_append_drop]
        · rw [List.head?_take, if_neg (by decide)]
          exact not_not.mp fun other => accepts (.inl other)
      · rw [server, Server.set_sessions]
        simp only [unwritten, sent, Option.toList_some, List.nil_append]
  | @shaken hs late long accepts =>
      obtain ⟨server, buf⟩ := buffered nofun
      have shaking := early.resolve_left late
      obtain ⟨⟨front, all, length, version⟩, _⟩ := accounted.replied shaking
      have session : loop'.host.server.sessions x =
          { loop.host.server.sessions x with hs, state := .connect } := by
        rw [server, Server.emit, Server.set_sessions]
      refine ⟨.of_late ?_, .inr (.inr ⟨shaking, ?_, ?_, ?_⟩)⟩
      · rw [RtmpSession.Early, session]
        simp only [reduceCtorEq, or_self, not_false_eq_true]
      · rw [session]
      · refine ⟨front ++ (loop.host.recvBuf x ++ data).take c2Size, ?_, ?_, ?_⟩
        · rw [received, all, buf, List.append_assoc, List.append_assoc, List.take_append_drop]
        · rw [List.length_append, length, List.length_take_of_le long]
        · rw [List.head?_append, version]
          rfl
      · rw [session]

theorem Accounted.perform_own (reached : (callbacks recordForce).Reachable loop)
    (running : loop.host.server.crashed = none) (accounted : loop.Accounted cb.session)
    (succeeds : ∀ env data, cb = .read cb.session env data → env.Succeeds)
    (early : (loop.host.server.sessions cb.session).Early) :
    loop.Accounts (loop.perform cb) cb.session := by
  have reg := Registry.reachable (reachable_host reached)
  cases cb with
  | connected x =>
      simp only [perform]
      split
      · next opens =>
        rw [Host.step_accept running opens]
        have session : (loop.host.server.set x
            { loop.host.server.sessions x with isOpen := true }).sessions x =
            { loop.host.server.sessions x with isOpen := true } := Server.set_sessions ..
        refine .still early (accounted.congr ⟨?_, ?_⟩ rfl rfl) ?_ <;>
          simp only [Callback.session, session]
      · exact .still early accounted rfl
  | failed x =>
      simp only [perform]
      by_cases isOpen : (loop.host.server.sessions x).isOpen = true
      · exact .closed (reg.close_early early isOpen running)
      · have same : loop.host.close x = loop.host := by
          rw [Host.close, Server.close, if_neg isOpen]
        rw [same]
        exact .still early (accounted.congr ⟨rfl, rfl⟩ rfl rfl) rfl
  | read x env data =>
      simp only [perform]
      split
      · next reads =>
        obtain ⟨_, n, asked, _⟩ := reads
        have awaiting := (reachable_sane reached running x).awaiting asked
        exact accounted.read reg running awaiting early (succeeds env data rfl) rfl
          (Function.update_self ..)
      · exact .still early accounted rfl

/-- Between the two states the session has come to `CONNECT`, or past the handshake at all. -/
def Connects (loop loop' : Loop) (x : SessionId) : Prop :=
  (loop.host.server.sessions x).state ≠ .connect ∧
      (loop'.host.server.sessions x).state = .connect ∨
    ¬ (loop.host.server.sessions x).InChunkPhase ∧ (loop'.host.server.sessions x).InChunkPhase

theorem Connects.moved (connects : loop.Connects loop' x) :
    (loop'.host.server.sessions x).state ≠ (loop.host.server.sessions x).state := by
  intro same
  obtain ⟨before, after⟩ | ⟨before, after⟩ := connects
  · exact before (same ▸ after)
  · exact before (by rwa [RtmpSession.InChunkPhase, same] at after)

theorem Connects.phase (connects : loop.Connects loop' x) :
    (loop'.host.server.sessions x).InChunkPhase := by
  obtain ⟨_, after⟩ | ⟨_, after⟩ := connects
  · rw [RtmpSession.InChunkPhase, after]
    decide
  · exact after

theorem late_forward {before after : RtmpSession} (late : ¬ before.Early)
    (forward : before.state.rank ≤ after.state.rank) :
    ¬ after.Early ∧ (after.state = .connect → before.state = .connect) ∧
      (after.InChunkPhase → before.InChunkPhase) := by
  unfold RtmpSession.Early RtmpSession.InChunkPhase at *
  generalize before.state = a at late forward ⊢
  generalize after.state = b at forward ⊢
  cases a <;> cases b <;> simp_all [SessionState.rank]

/-- A callback of any session. -/
theorem Accounted.step (reached : (callbacks recordForce).Reachable loop)
    (accounted : loop.Accounted x) (succeeds : ∀ env data, cb = .read x env data → env.Succeeds) :
    (loop.step cb).Accounted x ∧
      (loop.Connects (loop.step cb) x → loop.Greeted (loop.step cb) x) := by
  by_cases running : loop.host.server.crashed = none
  · have stepped : loop.step cb = loop.perform cb := if_pos running
    have leads := perform_leads recordForce running (reachable_sane reached running cb.session)
    rw [stepped]
    by_cases early : (loop.host.server.sessions x).Early
    · by_cases own : x = cb.session
      · subst own
        obtain ⟨kept, outcome⟩ := accounted.perform_own reached running succeeds early
        refine ⟨kept, fun connects => ?_⟩
        obtain still | closed | greeted := outcome
        · exact absurd still (fun still => still.elim connects.phase.1 connects.phase.2.1)
        · exact absurd closed connects.phase.2.2
        · exact greeted
      · obtain ⟨session, buf⟩ := perform_early reached running own early
        refine ⟨accounted.congr ⟨by rw [session], by rw [session]⟩ buf (perform_received own), ?_⟩
        exact fun connects => absurd (by rw [session]) connects.moved
    · obtain ⟨late, back, phase⟩ := late_forward early (leads.forward x)
      refine ⟨.of_late late, fun connects => ?_⟩
      obtain ⟨before, after⟩ | ⟨before, after⟩ := connects
      · exact absurd (back after) before
      · exact absurd (phase after) before
  · have stopped : loop.step cb = loop := if_neg running
    rw [stopped]
    exact ⟨accounted, fun connects => absurd rfl connects.moved⟩

end Loop

/-- However the bytes arrive, and whatever other sessions do: until a session is connected, what it
    was given is what it has consumed and what its buffer holds, and it has replied exactly once, when
    it had consumed C0C1. It comes to `CONNECT` from there, and by consuming C2: the first 3073
    bytes in all. -/
theorem handshake_accounting (recordForce : Bool) (cbs : List Callback) (x : SessionId)
    (succeeds : ∀ env data, Callback.read x env data ∈ cbs → env.Succeeds) :
    (callbacks recordForce).Always (fun loop => loop.Accounted x) cbs ∧
      ∀ done cb, done ++ [cb] <+: cbs →
        ((callbacks recordForce).run done).Connects ((callbacks recordForce).run (done ++ [cb])) x →
        ((callbacks recordForce).run done).Greeted
          ((callbacks recordForce).run (done ++ [cb])) x := by
  have steps : (callbacks recordForce).Steps
      (fun _ cb => ∀ env data, cb = .read x env data → env.Succeeds) cbs := by
    rintro done _ inside env data rfl
    refine succeeds env data (inside.subset ?_)
    exact List.mem_append_right _ List.mem_cons_self
  have always : (callbacks recordForce).Always (fun loop => loop.Accounted x) cbs := by
    refine steps.always ⟨fun _ => ⟨rfl, rfl⟩, fun shaking => absurd shaking nofun⟩ ?_
    exact fun loop cb reached accounted succeeds => (accounted.step reached succeeds).1
  refine ⟨always, fun done cb inside => ?_⟩
  have accounted := always done ((List.prefix_append done [cb]).trans inside)
  rw [Machine.run_snoc]
  exact (accounted.step (.run _ done) (steps done cb inside)).2

/-- The handshake without digests in four reads: C0 alone, C1 but for its end, that end with the first
    bytes of C2, and the others with the first byte of what follows. -/
def cutHandshake : List Callback :=
  let env : Env := .crypto (fun _ _ => List.replicate keyLen 0) (fun _ => 0) 0
  [.connected 1, .read 1 env [3], .read 1 env (List.replicate 1500 0),
    .read 1 env (List.replicate 136 0), .read 1 env (List.replicate 1436 0 ++ [7])]

theorem handshake_accounting_cut :
    ((callbacks false).run (cutHandshake.take 4)).Greeted ((callbacks false).run cutHandshake) 1 ∧
      ((callbacks false).run cutHandshake).host.recvBuf 1 = [7] := by
  have succeeds : ∀ env data, Callback.read 1 env data ∈ cutHandshake → env.Succeeds := by
    intro env data inside
    have same : env = .crypto (fun _ _ => List.replicate keyLen 0) (fun _ => 0) 0 := by
      simp only [cutHandshake, List.mem_cons, Callback.read.injEq, reduceCtorEq, List.not_mem_nil,
        true_and, false_or, or_false] at inside
      obtain ⟨same, _⟩ | ⟨same, _⟩ | ⟨same, _⟩ | ⟨same, _⟩ := inside <;> exact same
    subst same
    exact ⟨fun _ _ _ => ⟨_, rfl, rfl⟩, rfl⟩
  refine ⟨(handshake_accounting false cutHandshake 1 succeeds).2 (cutHandshake.take 4) _
    (List.prefix_refl _) (.inl ⟨?_, ?_⟩), ?_⟩
  · decide +kernel
  · decide +kernel
  · decide +kernel

end DroneServer
