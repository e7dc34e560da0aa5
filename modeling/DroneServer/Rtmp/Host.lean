import DroneServer.Lib.Feed
import DroneServer.Lib.Machine
import DroneServer.Rtmp.Server

/-! # The event loop: receive buffers, read callbacks and single steps

`Host` adds every session's `recv_buf` to the server. `onRead` is the read
callback as a whole, with `handle` and its loop. `machine` takes the same work
in single steps, so that a run can interleave the messages and closes of any
number of sessions, and every state between two messages is a state of a run.
-/

namespace DroneServer

structure Host where
  server : Server := {}
  /-- `recv_buf` of each session. -/
  recvBuf : SessionId → Bytes := fun _ => []

namespace Server

/-- `read_chunk_stream` of session `x`. -/
def parse (srv : Server) (x : SessionId) (buf : Bytes) : Ret × Server × Bytes :=
  match (srv.sessions x).readChunkStream buf with
  | .error f => (.fail, srv.crash f, buf)
  | .ok (ret, s, buf) => (ret, srv.set x s, buf)

/-- One round of `handle`'s loop. -/
def turn (env : Env) (x : SessionId) (srv : Server) (buf : Bytes) : Feed.Turn Server UInt8 :=
  match srv.parse x buf with
  | (.more, srv, buf) => .more srv buf
  | (.fail, srv, buf) => .halt srv buf
  | (.ok, srv, buf) =>
      if (srv.sessions x).current.ready then
        match srv.dispatch env x with
        | (.ok, srv) => .next srv buf
        | (.more, srv) => .more srv buf
        | (.fail, srv) => .halt srv buf
      else .next srv buf

/-- What bounds the rounds of the loop: each reads a byte or ends a header read before. -/
def loopSize (x : SessionId) (srv : Server) (buf : Bytes) : Nat :=
  buf.length + if (srv.sessions x).headerRead then 1 else 0

/-- The `INIT` and `HANDSHAKE_C2` branches of `handle`. The result of sending the reply is not
    looked at. -/
def shake (env : Env) (srv : Server) (x : SessionId) (buf : Bytes) : Ret × Server × Bytes :=
  let s := srv.sessions x
  if s.state = .init then
    let (ret, hs, buf) := s.hs.handleC0C1 env buf
    if ret ≠ .ok then (ret, srv.set x { s with hs }, buf)
    else
      let (_, hs, reply) := hs.sendS0S1S2 env
      (.ok, srv.set x { s with
        hs, state := .handshakeC2, written := s.written ++ reply.toList }, buf)
  else
    let (ret, hs, buf) := s.hs.handleC2 env buf
    if ret ≠ .ok then (ret, srv.set x { s with hs }, buf)
    else (.more, (srv.set x { s with hs, state := .connect }).emit (.handshakeDone x), buf)

end Server

namespace Host

def put (host : Host) (x : SessionId) (srv : Server) (buf : Bytes) : Host :=
  { server := srv, recvBuf := Function.update host.recvBuf x buf }

def close (host : Host) (x : SessionId) : Host := { host with server := host.server.close x }

/-- `handle`. An empty `recv_buf` leaves the loop with the initial `-1`. -/
def handle (env : Env) (host : Host) (x : SessionId) : Ret × Host :=
  let srv := host.server
  let buf := host.recvBuf x
  let state := (srv.sessions x).state
  if state = .init ∨ state = .handshakeC2 then
    let (ret, srv, buf) := srv.shake env x buf
    (ret, host.put x srv buf)
  else if state = .close ∨ buf.isEmpty then (.fail, host)
  else
    let d := Feed.drain (Server.turn env x) (srv.loopSize x buf + 1) srv buf
    (if d.halted then .fail else .more, host.put x d.state d.rest)

/-- `on_read`, with what `handle` returned. Unless that is negative the callback ends with the next
    `async_read` under way. -/
def onRead (env : Env) (host : Host) (x : SessionId) (data : Bytes) : Ret × Host :=
  let host := host.put x host.server (host.recvBuf x ++ data)
  let (ret, host) := host.handle env x
  (ret, if host.server.crashed = none ∧ ret = .fail then host.close x else host)

/-- Successive reads, until one of them fails. -/
def deliver (env : Env) (x : SessionId) : Host → List Bytes → Ret × Host
  | host, [] => (.more, host)
  | host, data :: pieces =>
      match host.onRead env x data with
      | (.fail, host) => (.fail, host)
      | (_, host) => deliver env x host pieces

end Host

/-- A single step of the process. -/
inductive Label where
  /-- A connection is accepted: `on_connect`. -/
  | accept (x : SessionId)
  /-- Bytes arrive in `recv_buf`. -/
  | receive (x : SessionId) (data : Bytes)
  /-- `handle` in one of the two handshake states. -/
  | shake (x : SessionId) (env : Env)
  /-- `read_chunk_stream`. -/
  | parse (x : SessionId)
  /-- The completed message is handled. -/
  | dispatch (x : SessionId) (env : Env)
  /-- The connection breaks: `on_error`. -/
  | close (x : SessionId)

namespace Host

/-- Session `x` holds a completed message that was not handled yet. -/
def Ready (host : Host) (x : SessionId) : Prop :=
  (host.server.sessions x).isOpen ∧ (host.server.sessions x).InChunkPhase ∧
    (host.server.sessions x).current.ready

instance (host : Host) (x : SessionId) : Decidable (host.Ready x) := by
  unfold Ready
  infer_instance

/-- Session `x` may read on. -/
def Parsing (host : Host) (x : SessionId) : Prop :=
  (host.server.sessions x).isOpen ∧ (host.server.sessions x).InChunkPhase ∧
    ¬ (host.server.sessions x).current.ready ∧ host.recvBuf x ≠ []

instance (host : Host) (x : SessionId) : Decidable (host.Parsing x) := by
  unfold Parsing
  infer_instance

/-- A step that is not enabled changes nothing. -/
def perform (host : Host) : Label → Host
  | .accept x =>
      let s := host.server.sessions x
      if !s.isOpen ∧ s.state = .init then
        { host with server := host.server.set x { s with isOpen := true } }
      else host
  | .receive x data =>
      if (host.server.sessions x).isOpen then
        host.put x host.server (host.recvBuf x ++ data)
      else host
  | .shake x env =>
      let s := host.server.sessions x
      if s.isOpen ∧ (s.state = .init ∨ s.state = .handshakeC2) then
        let (ret, srv, buf) := host.server.shake env x (host.recvBuf x)
        if ret = .fail then (host.put x srv buf).close x else host.put x srv buf
      else host
  | .parse x =>
      if host.Parsing x then
        let (ret, srv, buf) := host.server.parse x (host.recvBuf x)
        if srv.crashed = none ∧ ret = .fail then (host.put x srv buf).close x
        else host.put x srv buf
      else host
  | .dispatch x env =>
      if host.Ready x then { host with server := (host.server.dispatch env x).2 } else host
  | .close x => host.close x

/-- Nothing happens any more once the process has stopped. -/
def step (host : Host) (l : Label) : Host :=
  if host.server.crashed = none then host.perform l else host

end Host

/-- The process, started with nothing but its setting. -/
def machine (recordForce : Bool) : Machine Host Label where
  start := { server := { recordForce } }
  step := Host.step

end DroneServer
