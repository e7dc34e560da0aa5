import DroneServer.Rtmp.Loop
import DroneServer.Rtmp.Steady

/-! # One read at a time

`async_read` begins a read into the session's only buffer and does not ask whether
one is under way already, so the callbacks have to: `on_connect` begins the first
read, and what `handle` returns decides about the next, except in state `INIT`,
where `handle` begins it itself.
-/

namespace DroneServer

open RtmpHandshake

structure Reads where
  host : Host := {}
  /-- The sizes of a session's reads that boost has begun and not completed, oldest first. -/
  pending : SessionId → List Nat := fun _ => []

inductive ReadEvent where
  /-- `on_connect` of an accepted connection. -/
  | connected (x : SessionId)
  /-- The `i`-th read under way completes with these bytes: `on_read`. -/
  | read (x : SessionId) (i : Nat) (env : Env) (data : Bytes)
  /-- It fails, as all do once the socket is closed: `on_error`. -/
  | readFailed (x : SessionId) (i : Nat)
  /-- A write fails: `on_error`. -/
  | writeFailed (x : SessionId)

namespace ReadEvent

/-- The session whose callback it is. -/
def session : ReadEvent → SessionId
  | .connected x | .read x _ _ _ | .readFailed x _ | .writeFailed x => x

end ReadEvent

namespace Reads

/-- `async_read`: a size beyond the buffer begins no read. -/
def asyncRead (r : Reads) (x : SessionId) (size : Nat) : Reads :=
  if size > Loop.readBufferSize then r
  else { r with pending := Function.update r.pending x (r.pending x ++ [size]) }

/-- The `i`-th read under way is over. -/
def completed (r : Reads) (x : SessionId) (i : Nat) : Reads :=
  { r with pending := Function.update r.pending x ((r.pending x).eraseIdx i) }

def close (r : Reads) (x : SessionId) : Reads := { r with host := r.host.close x }

/-- `handle`, which begins the read of C2 where it has taken C0C1. -/
def handle (env : Env) (r : Reads) (x : SessionId) : Ret × Reads :=
  let state := (r.host.server.sessions x).state
  let (ret, host) := r.host.handle env x
  let r := { r with host }
  (ret, if state = .init ∧ ret = .ok then r.asyncRead x c2Size else r)

/-- `on_read`, unless `handle` stops the process. -/
def onRead (env : Env) (r : Reads) (x : SessionId) (data : Bytes) : Reads :=
  let r := { r with host := r.host.put x r.host.server (r.host.recvBuf x ++ data) }
  let (ret, r) := r.handle env x
  if r.host.server.crashed ≠ none then r
  else if ret = .fail then r.close x
  else if ret = .more then r.asyncRead x Loop.readBufferSize
  else r

/-- An event that cannot happen changes nothing. -/
def perform (r : Reads) : ReadEvent → Reads
  | .connected x =>
      let s := r.host.server.sessions x
      if !s.isOpen ∧ s.state = .init then
        { r with host := r.host.step (.accept x) }.asyncRead x (c0Size + c1Size)
      else r
  | .read x i env data =>
      match (r.pending x)[i]? with
      | some size =>
          if data ≠ [] ∧ data.length ≤ size then (r.completed x i).onRead env x data else r
      | none => r
  | .readFailed x i => if i < (r.pending x).length then (r.completed x i).close x else r
  | .writeFailed x => r.close x

/-- Nothing is called any more once the process has stopped. -/
def step (r : Reads) (e : ReadEvent) : Reads :=
  if r.host.server.crashed = none then r.perform e else r

end Reads

/-- The process as its callbacks, with all reads under way. -/
def reading (recordForce : Bool) : Machine Reads ReadEvent where
  start := { host := (machine recordForce).start }
  step := Reads.step

namespace Server

variable {env : Env} {x : SessionId} {srv srv' : Server}

theorem close_shuts (srv : Server) (x : SessionId) : ((srv.close x).sessions x).isOpen = false := by
  have steady := (steady_frame x).close srv x
  rw [set_sessions] at steady
  exact steady.isOpen

theorem dispatch_shuts (isOpen : (srv.sessions x).isOpen = true)
    (refused : srv.dispatch env x = (.fail, srv')) (alive : srv'.crashed = none) :
    (srv'.sessions x).isOpen = false ∧ (srv'.sessions x).state = .close := by
  unfold dispatch at refused
  split at refused
  · cases refused
    cases alive
  · next srv₁ counted =>
      simp only at refused
      split at refused
      · cases refused
        cases alive
      · next ret srv₂ handled =>
          obtain ⟨rfl, rfl⟩ := Prod.mk.inj refused
          have opened : (srv₂.sessions x).isOpen = true := by
            obtain ⟨s, counting, rfl⟩ := within_ok counted
            have kept := (RtmpSession.acknowledge_ok counting).2.2.2.2
            have steady := ((steady_frame x).handleChunkStream handled x).isOpen
            rw [emit, set_sessions] at steady
            exact (steady.trans kept).trans isOpen
          have emitted : ((srv₂.emit (.result x .fail)).sessions x).isOpen = true := opened
          rw [if_pos rfl] at alive ⊢
          exact ⟨close_shuts _ x, close_closed emitted alive⟩

end Server

namespace Host

open Feed

variable {env : Env} {x : SessionId} {host : Host} {srv : Server} {buf : Bytes}

theorem close_over (isOpen : (host.server.sessions x).isOpen = true)
    (alive : (host.close x).server.crashed = none) :
    ((host.close x).server.sessions x).isOpen = false ∧
      ((host.close x).server.sessions x).state = .close :=
  ⟨Server.close_shuts _ x, Server.close_closed isOpen alive⟩

theorem drains_over {d : Drained Server UInt8} (drains : Drains (Server.turn env x) srv buf d)
    (phase : (srv.sessions x).InChunkPhase) (awaiting : (srv.sessions x).Awaiting)
    (running : srv.crashed = none) (halted : d.halted = true)
    (alive : (host.finish x d).2.server.crashed = none) :
    ((host.finish x d).2.server.sessions x).isOpen = false ∧
      ((host.finish x d).2.server.sessions x).state = .close := by
  induction drains with
  | empty | more => cases halted
  | next some turned _ ih =>
      obtain ⟨awaiting', running'⟩ := Server.turn_awaiting some phase awaiting running (.inl turned)
      exact ih (Server.turn_phase phase (.inl turned)) awaiting' running' halted alive
  | @halt srv buf srv' rest some turned =>
      by_cases going : srv'.crashed = none
      · have done : (host.finish x ⟨true, srv', rest⟩).2 = (host.put x srv' rest).close x := by
          simp only [finish, if_true, going]
        rw [done] at alive ⊢
        have outcome := Server.turn_cases env x srv buf
        rw [turned] at outcome
        cases outcome with
        | fault => cases going
        | @refused s rest read =>
            refine close_over ?_ alive
            rw [put_server, Server.set_sessions]
            exact (RtmpSession.readChunkStream_steady read).isOpen.trans awaiting.isOpen
        | @failed s _ _ read ready failed =>
            have opened : ((srv.set x s).sessions x).isOpen = true := by
              rw [Server.set_sessions]
              exact (RtmpSession.readChunkStream_steady read).isOpen.trans awaiting.isOpen
            obtain ⟨shut, state⟩ := Server.dispatch_shuts opened failed going
            have same : (host.put x srv' rest).close x = host.put x srv' rest := by
              have shut : ¬ (srv'.sessions x).isOpen := by simp [shut]
              rw [close, put_server, Server.close, if_neg shut]
              rfl
            rw [same]
            exact ⟨shut, state⟩
      · have done : (host.finish x ⟨true, srv', rest⟩).2 = host.put x srv' rest := by
          simp only [finish, if_true, if_neg going]
        rw [done] at alive
        exact absurd alive going

theorem onRead_over {data : Bytes} (some : data ≠ []) (awaiting : (host.server.sessions x).Awaiting)
    (running : host.server.crashed = none) (alive : (host.onRead env x data).2.server.crashed = none)
    (refused : (host.onRead env x data).1 = .fail) :
    ((host.onRead env x data).2.server.sessions x).isOpen = false ∧
      ((host.onRead env x data).2.server.sessions x).state = .close := by
  by_cases early : (host.server.sessions x).state = .init ∨
      (host.server.sessions x).state = .handshakeC2
  · obtain ⟨ret, srv, rest, shaken, _, done⟩ := onRead_shake env data early awaiting.isOpen running
    have opened : (srv.sessions x).isOpen = true := shaken.keeps.1.trans awaiting.isOpen
    rw [done] at refused alive ⊢
    simp only at refused
    simp only [refused, if_true] at alive ⊢
    exact close_over opened alive
  · have phase := awaiting.phase early
    obtain ⟨d, drains, done⟩ := onRead_drains env phase some
    rw [done] at refused alive ⊢
    cases halted : d.halted with
    | true => exact drains_over drains phase awaiting running halted alive
    | false =>
        rw [finish, halted] at refused
        cases refused

theorem onRead_closed {data : Bytes} (shut : (host.server.sessions x).isOpen = false)
    (state : (host.server.sessions x).state = .close) (running : host.server.crashed = none) :
    host.onRead env x data = (.fail, host.put x host.server (host.recvBuf x ++ data)) := by
  have shut : ¬ (host.server.sessions x).isOpen := by simp [shut]
  simp only [onRead, handle, put_server, state, reduceCtorEq, or_self, true_or, if_false, if_true,
    running, and_self, close, Server.close, if_neg shut]
  rfl

/-- `handle` returns 0 in state `INIT` only. -/
theorem handle_ok (done : (host.handle env x).1 = .ok) : (host.server.sessions x).state = .init := by
  unfold handle at done
  simp only at done
  split at done
  · have outcome := host.server.shake_cases env x (host.recvBuf x)
    generalize host.server.shake env x (host.recvBuf x) = result at outcome done
    cases outcome with
    | greeted init => exact init
    | waits | refused | shaken => cases done
  split at done
  · cases done
  · simp only at done
    split at done <;> cases done

end Host

namespace Reads

variable {r : Reads} {x y : SessionId} {env : Env} {data : Bytes}

/-- The read a callback leaves under way, by what `handle` returned. -/
def armed : Ret → List Nat
  | .ok => [c2Size]
  | .more => [Loop.readBufferSize]
  | .fail => []

theorem asyncRead_eq (r : Reads) (x : SessionId) {size : Nat} (fits : size ≤ Loop.readBufferSize) :
    r.asyncRead x size =
      { r with pending := Function.update r.pending x (r.pending x ++ [size]) } :=
  if_neg (Nat.not_lt.mpr fits)

theorem asyncRead_other (r : Reads) {x y : SessionId} (size : Nat) (other : y ≠ x) :
    (r.asyncRead x size).pending y = r.pending y := by
  unfold asyncRead
  split
  · rfl
  · exact Function.update_of_ne other _ _

/-- `handle` begins a read itself when it returns 0, and only then. -/
theorem handle_eq (env : Env) (r : Reads) (x : SessionId) :
    r.handle env x = ((r.host.handle env x).1,
      { host := (r.host.handle env x).2
        pending := Function.update r.pending x
          (r.pending x ++ if (r.host.handle env x).1 = .ok then [c2Size] else []) }) := by
  have asked : (r.host.handle env x).1 = .ok → (r.host.server.sessions x).state = .init :=
    Host.handle_ok
  unfold handle
  simp only
  by_cases done : (r.host.handle env x).1 = .ok
  · rw [if_pos ⟨asked done, done⟩, if_pos done, asyncRead_eq _ _ (by decide)]
  · have unasked : ¬ ((r.host.server.sessions x).state = .init ∧ (r.host.handle env x).1 = .ok) :=
      fun both => done both.2
    rw [if_neg unasked, if_neg done, List.append_nil, Function.update_eq_self]

/-- The sessions are what `on_read` makes of them, and one read is begun for this one unless
    `handle` has refused. -/
theorem onRead_eq (env : Env) (r : Reads) (x : SessionId) (data : Bytes) :
    (r.onRead env x data).host = (r.host.onRead env x data).2 ∧
      ((r.onRead env x data).host.server.crashed = none → (r.onRead env x data).pending =
        Function.update r.pending x (r.pending x ++ armed (r.host.onRead env x data).1)) := by
  have none : Function.update r.pending x (r.pending x ++ []) = r.pending := by
    rw [List.append_nil, Function.update_eq_self]
  unfold onRead Host.onRead
  simp only [handle_eq]
  generalize (r.host.put x r.host.server (r.host.recvBuf x ++ data)).handle env x = result
  obtain ⟨ret, host⟩ := result
  by_cases going : host.server.crashed = Option.none
  · cases ret with
    | ok => simp only [going, ne_eq, not_true_eq_false, reduceCtorEq, and_false, if_false, if_true,
        armed, implies_true, and_self]
    | more =>
        simp only [going, asyncRead_eq _ _ (Nat.le_refl _), ne_eq, not_true_eq_false, reduceCtorEq,
          and_false, if_false, if_true, armed, implies_true, and_self, none]
    | fail =>
        simp only [going, ne_eq, not_true_eq_false, reduceCtorEq, and_self, if_false, if_true,
          close, armed, none, implies_true]
  · simp only [ne_eq, going, not_false_eq_true, if_true, false_and, if_false, false_implies,
      and_self]

/-- What holds of a session between callbacks: it was not accepted yet, or it is to read and one read
    is under way, or it is closed. -/
inductive Armed (r : Reads) (x : SessionId) : Prop where
  | fresh (quiet : (r.host.server.sessions x).quiet = RtmpSession.quiet {})
      (none : r.pending x = [])
  | armed {size : Nat} (awaiting : (r.host.server.sessions x).Awaiting)
      (one : r.pending x = [size])
  | closed (shut : (r.host.server.sessions x).isOpen = false)
      (state : (r.host.server.sessions x).state = .close) (few : (r.pending x).length ≤ 1)

theorem Armed.few (armed : r.Armed x) : (r.pending x).length ≤ 1 := by
  cases armed with
  | fresh _ none => simp [none]
  | armed _ one => simp [one]
  | closed _ _ few => exact few

theorem Armed.one (armed : r.Armed x) (isOpen : (r.host.server.sessions x).isOpen = true) :
    ∃ size, r.pending x = [size] := by
  cases armed with
  | fresh quiet =>
      have shut := congrArg RtmpSession.isOpen quiet
      cases isOpen.symm.trans shut
  | armed _ one => exact ⟨_, one⟩
  | closed shut => cases isOpen.symm.trans shut

theorem Armed.congr {r' : Reads} (armed : r.Armed x)
    (session : (r'.host.server.sessions x).quiet = (r.host.server.sessions x).quiet)
    (pending : r'.pending x = r.pending x) : r'.Armed x := by
  have isOpen := congrArg RtmpSession.isOpen session
  have state := congrArg RtmpSession.state session
  have decoder := congrArg RtmpSession.decoder session
  cases armed with
  | fresh quiet none => exact .fresh (session.trans quiet) (pending.trans none)
  | armed awaiting one =>
      exact .armed ⟨isOpen.trans awaiting.isOpen,
        fun closed => awaiting.state (state.symm.trans closed), decoder ▸ awaiting.unready⟩
        (pending.trans one)
  | closed shut gone few => exact .closed (isOpen.trans shut) (state.trans gone) (pending ▸ few)

theorem close_armed (armed : r.Armed x) {pending : SessionId → List Nat}
    (fewer : (pending x).length ≤ (r.pending x).length)
    (alive : (r.host.close x).server.crashed = none) :
    Armed { host := r.host.close x, pending } x := by
  cases armed with
  | fresh quiet none =>
      have shut : ¬ (r.host.server.sessions x).isOpen := by
        have isOpen := congrArg RtmpSession.isOpen quiet
        exact fun opened => absurd (opened.symm.trans isOpen) (by decide)
      have same : r.host.close x = r.host := by rw [Host.close, Server.close, if_neg shut]
      rw [none, List.length_nil, Nat.le_zero, List.length_eq_zero_iff] at fewer
      exact .fresh (same.symm ▸ quiet) fewer
  | armed awaiting one =>
      obtain ⟨shut, state⟩ := Host.close_over awaiting.isOpen alive
      exact .closed shut state (fewer.trans (by simp [one]))
  | closed shut state few =>
      have same : r.host.close x = r.host := by
        have shut : ¬ (r.host.server.sessions x).isOpen := by simp [shut]
        rw [Host.close, Server.close, if_neg shut]
      exact .closed (same.symm ▸ shut) (same.symm ▸ state) (fewer.trans few)

theorem completed_pending (r : Reads) (x : SessionId) (i : Nat) :
    (r.completed x i).pending x = (r.pending x).eraseIdx i := Function.update_self ..

/-- A read that completes is followed by one other, or by none if the session is closed. -/
theorem onRead_armed (armed : r.Armed x) (running : r.host.server.crashed = none) {i size : Nat}
    (under : (r.pending x)[i]? = some size) (some : data ≠ [])
    (alive : ((r.completed x i).onRead env x data).host.server.crashed = none) :
    ((r.completed x i).onRead env x data).Armed x := by
  obtain ⟨same, begun⟩ := onRead_eq env (r.completed x i) x data
  have host : ((r.completed x i).onRead env x data).host = (r.host.onRead env x data).2 := same
  have pending : ((r.completed x i).onRead env x data).pending x =
      (r.pending x).eraseIdx i ++ Reads.armed (r.host.onRead env x data).1 := by
    rw [begun alive, Function.update_self, completed_pending]
    rfl
  generalize (r.completed x i).onRead env x data = after at host pending alive ⊢
  cases armed with
  | fresh _ none =>
      rw [none] at under
      cases under
  | armed awaiting one =>
      obtain rfl : i = 0 := by
        have inside := (List.getElem?_eq_some_iff.mp under).1
        rw [one] at inside
        exact Nat.lt_one_iff.mp inside
      rw [one, List.eraseIdx_zero, List.tail_cons, List.nil_append] at pending
      have survives : (r.host.onRead env x data).2.server.crashed = none := host ▸ alive
      have continues := Loop.onRead_awaiting some awaiting running survives
      split at continues
      · next refused =>
          obtain ⟨shut, state⟩ := Host.onRead_over some awaiting running survives refused
          rw [refused] at pending
          exact .closed (host ▸ shut) (host ▸ state) (by simp [pending, Reads.armed])
      · next going =>
          cases ret : (r.host.onRead env x data).1 with
          | ok | more =>
              rw [ret] at pending
              exact .armed (host ▸ continues) pending
          | fail => exact absurd ret going
  | closed shut state few =>
      rw [Host.onRead_closed shut state running] at host pending
      refine .closed (host ▸ shut) (host ▸ state) ?_
      rw [pending, Reads.armed, List.append_nil]
      exact (List.length_eraseIdx_le _ _).trans few

theorem perform_pending (r : Reads) {e : ReadEvent} (other : y ≠ e.session) :
    (r.perform e).pending y = r.pending y := by
  cases e with
  | connected x =>
      simp only [perform]
      split
      · exact asyncRead_other _ _ other
      · rfl
  | read x i env data =>
      simp only [perform]
      split
      · split
        · have mine : ∀ reads, Function.update (r.completed x i).pending x reads y = r.pending y :=
            fun reads => (Function.update_of_ne other _ _).trans (Function.update_of_ne other _ _)
          simp only [onRead, handle_eq]
          split
          · exact mine _
          split
          · exact mine _
          split
          · exact (asyncRead_other _ _ other).trans (mine _)
          · exact mine _
        · rfl
      · rfl
  | readFailed x i =>
      simp only [perform]
      split
      · exact Function.update_of_ne other _ _
      · rfl
  | writeFailed x => rfl

theorem perform_other (running : r.host.server.crashed = none) {e : ReadEvent}
    (armed : r.Armed e.session) (other : y ≠ e.session) :
    ((r.perform e).host.server.sessions y).quiet = (r.host.server.sessions y).quiet := by
  have stepped : ∀ l : Label, y ≠ l.session →
      ((r.host.step l).server.sessions y).quiet = (r.host.server.sessions y).quiet :=
    fun l other => Server.Acts.other other (r.host.step_acts_close l)
  have closed : ∀ x, y ≠ x →
      ((r.host.close x).server.sessions y).quiet = (r.host.server.sessions y).quiet := by
    intro x other
    have done : r.host.step (.close x) = r.host.close x := if_pos running
    exact done ▸ stepped (.close x) other
  cases e with
  | connected x =>
      simp only [perform]
      split
      · rw [asyncRead_eq _ _ (by decide)]
        exact stepped (.accept x) other
      · rfl
  | read x i env data =>
      simp only [perform]
      split
      · next size under =>
        split
        · next fits =>
          have host : ((r.completed x i).onRead env x data).host = (r.host.onRead env x data).2 :=
            (onRead_eq env (r.completed x i) x data).1
          have armed : r.Armed x := armed
          rw [host]
          cases armed with
          | fresh _ none =>
              rw [none] at under
              cases under
          | armed awaiting =>
              have leads : Host.Leads false x r.host (r.host.onRead env x data).2 :=
                r.host.onRead_leads env fits.1 awaiting running
              exact (leads.other other).1
          | closed shut state =>
              rw [Host.onRead_closed shut state running]
              rfl
        · rfl
      · rfl
  | readFailed x i =>
      simp only [perform]
      split
      · exact closed x other
      · rfl
  | writeFailed x => exact closed x other

theorem perform_own (running : r.host.server.crashed = none) {e : ReadEvent}
    (armed : r.Armed e.session) (alive : (r.perform e).host.server.crashed = none) :
    (r.perform e).Armed e.session := by
  cases e with
  | connected x =>
      simp only [perform] at alive ⊢
      split
      · next opens =>
        have armed : r.Armed x := armed
        rw [asyncRead_eq _ _ (by decide)]
        cases armed with
        | fresh quiet none =>
            have accepted : (r.host.step (.accept x)).server.sessions x =
                { r.host.server.sessions x with isOpen := true } := by
              rw [Host.step_accept running opens, Server.set_sessions]
            have one : Function.update r.pending x (r.pending x ++ [c0Size + c1Size]) x =
                [c0Size + c1Size] := by
              rw [Function.update_self, none, List.nil_append]
            exact .armed (Loop.awaiting_accepted quiet accepted) one
        | armed awaiting =>
            have shut : ¬ (r.host.server.sessions x).isOpen := by simpa using opens.1
            exact absurd awaiting.isOpen shut
        | closed _ state => exact absurd (opens.2.symm.trans state) (by decide)
      · exact armed
  | read x i env data =>
      simp only [perform] at alive ⊢
      split
      · next size under =>
        rw [under] at alive
        simp only at alive
        split
        · next fits =>
          rw [if_pos fits] at alive
          exact onRead_armed armed running under fits.1 alive
        · exact armed
      · exact armed
  | readFailed x i =>
      simp only [perform] at alive ⊢
      split
      · next inside =>
        rw [if_pos inside] at alive
        have fewer : ((r.completed x i).pending x).length ≤ (r.pending x).length := by
          rw [completed_pending]
          exact List.length_eraseIdx_le _ _
        exact close_armed armed fewer alive
      · exact armed
  | writeFailed x => exact close_armed armed (Nat.le_refl _) alive

/-- Between callbacks every session is in order, unless the process has stopped. -/
def Orderly (r : Reads) : Prop := r.host.server.crashed = none → ∀ x, r.Armed x

theorem Orderly.step (orderly : r.Orderly) (e : ReadEvent) : (r.step e).Orderly := by
  intro alive x
  by_cases running : r.host.server.crashed = none
  · have stepped : r.step e = r.perform e := if_pos running
    rw [stepped] at alive ⊢
    have armed := orderly running
    by_cases own : x = e.session
    · subst own
      exact perform_own running (armed _) alive
    · exact (armed x).congr (perform_other running (armed _) own) (r.perform_pending own)
  · have stopped : r.step e = r := if_neg running
    rw [stopped] at alive
    exact absurd alive running

end Reads

/-- Between callbacks, in every run: an open session has one read under way, and no session has
    more, whatever the reads and messages were, in whatever order they came, and whether or not
    they failed. -/
theorem one_read_outstanding (recordForce : Bool) (events : List ReadEvent) :
    (reading recordForce).Always
      (fun r => r.host.server.crashed = none → ∀ x,
        ((r.host.server.sessions x).isOpen = true → ∃ size, r.pending x = [size]) ∧
          (r.pending x).length ≤ 1) events := by
  have start : (reading recordForce).start.Orderly := fun _ _ => .fresh rfl rfl
  intro done _ running x
  have orderly : ((reading recordForce).run done).Orderly :=
    (Machine.Reachable.run _ done).invariant start fun _ e before => before.step e
  exact ⟨(orderly running x).one, (orderly running x).few⟩

end DroneServer
