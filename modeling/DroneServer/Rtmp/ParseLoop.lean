import DroneServer.Rtmp.Consuming
import DroneServer.Rtmp.Heard

/-! # The end of the parse loop

A round of `handle`'s loop may take nothing from the buffer: a repeated header with
no payload left, or a payload cut into pieces of no bytes. Such a round ends a
header that was read before, and the next one starts by taking a byte. How much of
a message is left never exceeds its length once a header of type 0 has been read,
whatever the memory of the chunk stream held before.
-/

namespace DroneServer

open Feed RtmpChunkStream

namespace Server

/-- `read_chunk_stream` of session `x`, with every access checked. -/
def parseIn (residue : Residue) (srv : Server) (x : SessionId) (buf : Bytes) :
    Ret × Server × Bytes :=
  match (srv.sessions x).readChunkStreamIn residue buf with
  | .error f => (.fail, srv.crash f, buf)
  | .ok (ret, s, buf) => (ret, srv.set x s, buf)

/-- One round of `handle`'s loop with this reader. -/
def turnIn (residue : Server → Bytes → Residue) (env : Env) (x : SessionId) (srv : Server)
    (buf : Bytes) : Turn Server UInt8 :=
  match srv.parseIn (residue srv buf) x buf with
  | (.more, srv, buf) => .more srv buf
  | (.fail, srv, buf) => .halt srv buf
  | (.ok, srv, buf) =>
      if (srv.sessions x).current.ready then
        match srv.dispatch env x with
        | (.ok, srv) => .next srv buf
        | (.more, srv) => .more srv buf
        | (.fail, srv) => .halt srv buf
      else .next srv buf

end Server

/-- For each chunk stream, whether a header of type 0 was read on it since it was made. -/
abbrev Opened := UInt16 → Bool

/-- No more of a message is left than its length. -/
def RtmpChunkStream.Within (cs : RtmpChunkStream) : Prop := ∃ rem, cs.rem = some rem ∧ rem ≤ cs.len

namespace RtmpSession

/-- The notes once a chunk is read. -/
def heed (s : RtmpSession) (opened : Opened) (buf : Bytes) : Opened :=
  let (s, buf) := s.readBasicHeader buf
  Function.update opened s.csid
    ((s.csIn s.csid).isSome && opened s.csid || decide (s.fmt = 0 ∧ s.current.Headed 0 buf))

/-- So it is on every chunk stream on which a header of type 0 was read. -/
def Bounded (s : RtmpSession) (opened : Opened) : Prop :=
  ∀ csid cs, s.csIn csid = some cs → opened csid = true → cs.Within

end RtmpSession

namespace Host

/-- A step, with what the fields of the chunk stream to be read happen to hold. -/
def stepIn (host : Host) : Label × Residue → Host
  | (.parse x, residue) =>
      if host.server.crashed = none ∧ host.Parsing x then
        let (ret, srv, buf) := host.server.parseIn residue x (host.recvBuf x)
        if srv.crashed = none ∧ ret = .fail then (host.put x srv buf).close x
        else host.put x srv buf
      else host
  | (l, _) => host.step l

/-- Only a chunk that is read is noted. -/
def heed (opened : SessionId → Opened) (host : Host) : Label × Residue → SessionId → Opened
  | (.parse x, _) =>
      if host.server.crashed = none ∧ host.Parsing x then
        Function.update opened x ((host.server.sessions x).heed (opened x) (host.recvBuf x))
      else opened
  | _ => opened

end Host

/-- The process, whatever its uninitialised fields hold, and the notes. -/
def heeding (recordForce : Bool) : Machine (Host × (SessionId → Opened)) (Label × Residue) :=
  ({ start := (machine recordForce).start, step := Host.stepIn } :
    Machine Host (Label × Residue)).noting (fun _ _ => false) Host.heed

namespace RtmpChunkStream

variable {cs cs' : RtmpChunkStream} {fmt : UInt8} {n : UInt32} {buf rest : Bytes} {ret : Ret}

/-- A header of type 0 sets what is left to the length, and no other takes it beyond. -/
theorem readHeader_within (read : cs.readHeader fmt buf = .ok (ret, cs', rest))
    (before : cs.Within ∨ fmt = 0 ∧ cs.Headed 0 buf) : cs'.Within := by
  have within : ¬ cs.Headed 0 buf → cs.Within := fun none =>
    before.resolve_right fun opens => none opens.2
  generalize same : (ret, cs', rest) = result at read
  cases readHeader_cases read with
  | past busy =>
      cases same
      exact within fun headed => busy headed.1.1
  | @full size assign idle format =>
      have kept : (readFull size assign cs buf).2.1.Within := by
        obtain ⟨_, time, ext, rest', done⟩ | ⟨short, ext, done⟩ :=
          readFull_cases size assign cs buf <;> rw [done]
        · cases format <;> exact ⟨_, rfl, UInt32.le_refl _⟩
        · refine before.resolve_right ?_
          rintro ⟨rfl, headed⟩
          cases format
          exact short headed.2
      cases same
      exact kept
  | @repeated again idle format done =>
      obtain ⟨ret', cs₁, rest'⟩ := again
      have within : cs.Within := before.resolve_right fun opens =>
        absurd (format.symm.trans opens.1) (by decide)
      cases same
      obtain ⟨_, rfl⟩ | ⟨_, rfl, _⟩ | ⟨_, _, time, rfl⟩ := readF3_cases done
      · exact within
      · exact within
      · exact ⟨_, rfl, UInt32.le_refl _⟩
  | unknown idle other =>
      cases same
      exact before.resolve_right fun opens => other.1 opens.1

theorem readPayload_within (read : cs.readPayload n buf = .ok (ret, cs', rest))
    (before : cs.Within) : cs'.Within := by
  obtain ⟨rem, left, within⟩ := before
  by_cases state : cs.state = .payload
  · rw [readPayload_eq state left] at read
    split at read <;> cases read
    · exact ⟨rem, left, within⟩
    · refine ⟨_, rfl, ?_⟩
      have size := asked_toNat rem n
      have less : (asked rem n).toNat ≤ rem.toNat := size ▸ Nat.min_le_right _ _
      rw [UInt32.le_iff_toNat_le] at within ⊢
      rw [UInt32.toNat_sub_of_le _ _ (UInt32.le_iff_toNat_le.mpr less)]
      exact (Nat.sub_le _ _).trans within
  · simp only [readPayload, ne_eq, state, not_false_eq_true, if_true] at read
    cases read
    exact ⟨rem, left, within⟩

theorem readOn_within (read : cs.readOn n fmt buf = .ok (ret, cs', rest))
    (before : cs.Within ∨ fmt = 0 ∧ cs.Headed 0 buf) : cs'.Within := by
  obtain ⟨⟨ret₁, cs₁, rest₁⟩, header, read⟩ := bind_ok.mp read
  have after := readHeader_within header before
  simp only at read
  split at read
  · cases read
    exact after
  · exact readPayload_within read after

theorem clear_within (within : cs.Within) : cs.clear.Within := within

end RtmpChunkStream

namespace RtmpSession

variable {s s' : RtmpSession} {opened : Opened} {residue : Residue} {buf rest : Bytes} {ret : Ret}

theorem readChunkStreamIn_memory (some : buf ≠ [])
    (read : s.readChunkStreamIn residue buf = .ok (ret, s', rest)) :
    ∃ cs, ((s.readBasicHeader buf).1.current.settled residue).readOn s.maxChunkSize
        (s.readBasicHeader buf).1.fmt (s.readBasicHeader buf).2 = .ok (ret, cs, rest) ∧
      s'.csIn = Function.update s.csIn (s.readBasicHeader buf).1.csid (Option.some cs) := by
  have kept : (s.readBasicHeader buf).1.csIn = s.csIn ∧
      (s.readBasicHeader buf).1.maxChunkSize = s.maxChunkSize := by
    unfold readBasicHeader
    split <;> exact ⟨rfl, rfl⟩
  rw [readChunkStreamIn_eq residue s some, readChunkStream_readOn _ some, settled_basic] at read
  generalize s.readBasicHeader buf = front at kept read ⊢
  obtain ⟨basic, buf⟩ := front
  rw [setCurrent_current, setCurrent_fmt, setCurrent_maxChunkSize] at read
  cases body : (basic.current.settled residue).readOn basic.maxChunkSize basic.fmt buf with
  | error f =>
      rw [body] at read
      cases read
  | ok result =>
      obtain ⟨ret₁, cs, rest₁⟩ := result
      rw [body] at read
      cases read
      refine ⟨cs, kept.2 ▸ body, ?_⟩
      simp only [setCurrent, Function.update_idem]
      exact congrArg (Function.update · basic.csid (Option.some cs)) kept.1

theorem readChunkStreamIn_bounded (some : buf ≠ []) (bounded : s.Bounded opened)
    (read : s.readChunkStreamIn residue buf = .ok (ret, s', rest)) :
    s'.Bounded (s.heed opened buf) := by
  obtain ⟨cs, body, memories⟩ := readChunkStreamIn_memory some read
  have kept := (s.readBasicHeader_read buf).2
  intro csid cs' found marked
  rw [memories] at found
  simp only [heed] at marked
  generalize s.readBasicHeader buf = front at body kept found marked
  obtain ⟨basic, buf⟩ := front
  by_cases here : csid = basic.csid
  · subst here
    rw [Function.update_self] at found marked
    cases found
    refine readOn_within body ?_
    rw [Bool.or_eq_true, Bool.and_eq_true, decide_eq_true_eq] at marked
    refine marked.imp_left fun ⟨there, before⟩ => ?_
    obtain ⟨old, there⟩ := Option.isSome_iff_exists.mp there
    obtain ⟨rem, left, within⟩ := bounded basic.csid old (kept ▸ there) before
    have current : basic.current = old := by rw [current, there, Option.getD_some]
    rw [current]
    exact ⟨rem, by simp only [RtmpChunkStream.settled, left, Option.getD_some], within⟩
  · rw [Function.update_of_ne here] at found marked
    exact bounded csid cs' found marked

end RtmpSession

namespace Server

variable {x : SessionId} {srv srv' : Server} {env : Env} {opened : Opened} {buf rest : Bytes}

theorem dispatch_bounded {y : SessionId} (bounded : (srv.sessions y).Bounded opened) :
    ((srv.dispatch env x).2.sessions y).Bounded opened := by
  intro csid cs found marked
  obtain ⟨old, there, rfl | rfl⟩ := dispatch_memories found
  · exact bounded csid _ there marked
  · exact clear_within (bounded csid _ there marked)

theorem parseIn_read (residue : Residue) (srv : Server) (x : SessionId) (buf : Bytes) :
    ∃ ret s rest, (srv.sessions x).readChunkStreamIn residue buf = .ok (ret, s, rest) ∧
      srv.parseIn residue x buf = (ret, srv.set x s, rest) := by
  obtain ⟨ret, s, rest, read, _⟩ := (srv.sessions x).readChunkStreamIn_inside residue buf
  exact ⟨ret, s, rest, read, by simp only [parseIn, read]⟩

theorem turnIn_bounded {residue : Server → Bytes → Residue}
    (some : buf ≠ []) (bounded : (srv.sessions x).Bounded opened) :
    ((srv.turnIn residue env x buf).state.sessions x).Bounded
      ((srv.sessions x).heed opened buf) := by
  obtain ⟨ret, s, rest, read, parsed⟩ := parseIn_read (residue srv buf) srv x buf
  have after : ((srv.set x s).sessions x).Bounded ((srv.sessions x).heed opened buf) := by
    rw [set_sessions]
    exact RtmpSession.readChunkStreamIn_bounded some bounded read
  unfold turnIn
  rw [parsed]
  cases ret with
  | more | fail => exact after
  | ok =>
      simp only
      split
      · have handled : (((srv.set x s).dispatch env x).2.sessions x).Bounded
            ((srv.sessions x).heed opened buf) := dispatch_bounded after
        generalize (srv.set x s).dispatch env x = result at handled
        obtain ⟨ret, srv'⟩ := result
        cases ret <;> exact handled
      · exact after

/-- Every further round has taken a byte of the buffer or ended a header read before. -/
theorem turnIn_progress {residue : Server → Bytes → Residue} (some : buf ≠ [])
    (turned : srv.turnIn residue env x buf = .next srv' rest) :
    srv'.loopSize x rest < srv.loopSize x buf := by
  obtain ⟨ret, s, after, read, parsed⟩ := parseIn_read (residue srv buf) srv x buf
  rw [RtmpSession.readChunkStreamIn_eq _ _ some] at read
  unfold turnIn at turned
  rw [parsed] at turned
  cases ret with
  | more | fail => cases turned
  | ok =>
      obtain ⟨between, shorter⟩ := RtmpSession.readChunkStream_progress some read
      have still : (srv'.sessions x).headerRead = false ∧ rest = after := by
        simp only at turned
        split at turned
        · have kept := dispatch_headerRead env (srv.set x s) x
          rw [set_sessions, between] at kept
          split at turned
          · next handled =>
              rw [handled] at kept
              cases turned
              exact ⟨kept, rfl⟩
          · cases turned
          · cases turned
        · cases turned
          rw [set_sessions]
          exact ⟨between, rfl⟩
      obtain ⟨still, rfl⟩ := still
      have same : ((srv.sessions x).settled (residue srv buf) buf).headerRead =
          (srv.sessions x).headerRead := rfl
      rw [same] at shorter
      simpa only [loopSize, still, Bool.false_eq_true, if_false, Nat.add_zero] using shorter

end Server

namespace Host

/-- No step takes what is left of a message beyond its length. -/
theorem stepIn_bounded {host : Host} {opened : SessionId → Opened}
    (bounded : ∀ y, (host.server.sessions y).Bounded (opened y)) (l : Label × Residue)
    (y : SessionId) :
    ((host.stepIn l).server.sessions y).Bounded (host.heed opened l y) := by
  obtain ⟨l, residue⟩ := l
  have others : (∀ x, l ≠ .parse x) → ((host.step l).server.sessions y).Bounded (opened y) := by
    intro other
    obtain view | ⟨x, _, _, _, parse, _⟩ | ⟨x, env, rfl, ready, done⟩ := host.step_view l
    · have same : ((host.step l).server.sessions y).csIn = (host.server.sessions y).csIn :=
        congrArg (fun v : View => (v.decoders y).csIn) view
      exact fun csid cs found => bounded y csid cs (same ▸ found)
    · exact absurd parse (other x)
    · rw [done]
      exact Server.dispatch_bounded (bounded y)
  cases l with
  | accept | receive | shake | dispatch | close => exact others (by simp)
  | parse x =>
      simp only [stepIn, heed]
      split
      · next enabled =>
          obtain ⟨ret, s, rest, read, parsed⟩ :=
            Server.parseIn_read residue host.server x (host.recvBuf x)
          have after := RtmpSession.readChunkStreamIn_bounded enabled.2.2.2.2 (bounded x) read
          have stored : ((host.server.set x s).sessions y).Bounded (Function.update opened x
              ((host.server.sessions x).heed (opened x) (host.recvBuf x)) y) := by
            by_cases own : y = x
            · subst own
              rwa [Server.set_sessions, Function.update_self]
            · rw [Server.set_other _ _ own, Function.update_of_ne own]
              exact bounded y
          rw [parsed]
          simp only
          split
          · have same : (((host.server.set x s).close x).sessions y).csIn =
                ((host.server.set x s).sessions y).csIn :=
              congrArg (fun v : View => (v.decoders y).csIn) (Server.close_view _ x)
            exact fun csid cs found => stored csid cs (same ▸ found)
          · exact stored
      · exact bounded y

end Host

theorem heeding_bounded {recordForce : Bool} {state : Host × (SessionId → Opened)}
    (reached : (heeding recordForce).Reachable state) (y : SessionId) :
    (state.1.server.sessions y).Bounded (state.2 y) := by
  have start : ∀ y, ((heeding recordForce).start.1.server.sessions y).Bounded
      ((heeding recordForce).start.2 y) := by
    intro y csid cs found
    cases found
  exact reached.invariant
    (P := fun state : Host × (SessionId → Opened) =>
      ∀ y, (state.1.server.sessions y).Bounded (state.2 y)) start
    (fun _ l bounded => Host.stepIn_bounded bounded l) y

/-- The notes of one session along the rounds of the loop. -/
def Server.heed (x : SessionId) (opened : Opened) (srv : Server) (buf : Bytes) : Opened :=
  (srv.sessions x).heed opened buf

/-- In every reachable state, for every chunk size and whatever is in the buffer and in the fields
    without initialiser: the loop of `handle` ends, having called `read_chunk_stream` at most once
    more than there were bytes; no call takes a byte that the buffer does not hold; and all along,
    no more of a message is left than its length on any chunk stream on which a header of type 0
    was read. -/
theorem parse_loop_ends (recordForce : Bool) (steps : List (Label × Residue)) (x : SessionId)
    (maxChunkSize : UInt32) (buf : Bytes) (env : Env) (residue : Server → Bytes → Residue) :
    let state := (heeding recordForce).run steps
    let srv := state.1.server.set x { state.1.server.sessions x with maxChunkSize }
    let round := noting (Server.turnIn residue env x) (Server.heed x)
    (∃ d, Drains round (srv, state.2 x) buf d ∧ (d.state.1.sessions x).Bounded d.state.2) ∧
      ∀ many, (turns round many (srv, state.2 x) buf).length ≤ buf.length + 1 ∧
        ∀ call ∈ turns round many (srv, state.2 x) buf,
          (call.1.1.sessions x).Bounded call.1.2 ∧
          ∃ ret s rest, (call.1.1.sessions x).readChunkStreamIn (residue call.1.1 call.2) call.2 =
            .ok (ret, s, rest) ∧ rest <:+ call.2 := by
  have reached := heeding_bounded (.run (heeding recordForce) steps) x
  generalize (heeding recordForce).run steps = state at reached
  intro _ srv round
  have start : (srv.sessions x).Bounded (state.2 x) := by
    intro csid cs found
    simp only [srv, Server.set_sessions] at found
    exact reached csid cs found
  have keeps : ∀ (s : Server × Opened) (buf : Bytes), (s.1.sessions x).Bounded s.2 → buf ≠ [] →
      ((round s buf).state.1.sessions x).Bounded (round s buf).state.2 := by
    intro s buf bounded some
    simp only [round, noting_state]
    exact Server.turnIn_bounded some bounded
  have progress : ∀ (s : Server × Opened) (buf : Bytes) (s' : Server × Opened) (rest : Bytes),
      buf ≠ [] → round s buf = .next s' rest → s'.1.loopSize x rest < s.1.loopSize x buf :=
    fun s buf s' rest some turned => Server.turnIn_progress some (noting_next turned)
  have positive : ∀ (s : Server × Opened) (buf : Bytes), buf ≠ [] → 0 < s.1.loopSize x buf :=
    fun s buf some => Nat.add_pos_left (List.length_pos_iff.mpr some) _
  have size : srv.loopSize x buf ≤ buf.length + 1 := by
    unfold Server.loopSize
    split
    · exact Nat.le_refl _
    · exact Nat.le_succ _
  constructor
  · have drains := drains_drain (fun s : Server × Opened => s.1.loopSize x) progress
      (srv.loopSize x buf + 1) (srv, state.2 x) buf (Nat.lt_succ_self _)
    exact ⟨_, drains, drains.keep keeps start⟩
  · intro many
    have few := turns_length (fun s : Server × Opened => s.1.loopSize x) progress positive many
      (srv, state.2 x) buf
    refine ⟨few.trans size, fun call taken => ⟨?_, ?_⟩⟩
    · exact turns_keep keeps start taken
    · exact (call.1.1.sessions x).readChunkStreamIn_inside _ _

end DroneServer
