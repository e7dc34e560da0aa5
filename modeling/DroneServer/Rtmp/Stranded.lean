import DroneServer.Rtmp.Framing

/-! # Input left in the buffer

What is a whole chunk is said from the bytes. There are two ways to be left with
one: `on_read` ends where the phase changes, without looking at what else it has,
C2 behind C0C1 or the first chunk behind C2; and the loop waits on a chunk of which
it wants more than there is to it.
-/

namespace DroneServer

open RtmpHandshake

namespace RtmpSession

theorem known_decoder {s s' : RtmpSession} (same : s'.decoder = s.decoder)
    (heard : UInt16 → Heard) : s'.known heard = s.known heard := by
  have csIn : s'.csIn = s.csIn := congrArg Decoder.csIn same
  have csid : s'.csid = s.csid := congrArg Decoder.csid same
  rw [known, known, csIn, csid]

theorem readBasicHeader_decoder {s s' : RtmpSession} (same : s'.decoder = s.decoder) (buf : Bytes) :
    (s'.readBasicHeader buf).1.decoder = (s.readBasicHeader buf).1.decoder ∧
      (s'.readBasicHeader buf).2 = (s.readBasicHeader buf).2 := by
  have headerRead : s'.headerRead = s.headerRead := congrArg Decoder.headerRead same
  have csIn : s'.csIn = s.csIn := congrArg Decoder.csIn same
  have maxChunkSize : s'.maxChunkSize = s.maxChunkSize := congrArg Decoder.maxChunkSize same
  unfold readBasicHeader
  rw [headerRead]
  split
  · exact ⟨same, rfl⟩
  · simp only [decoder, csIn, maxChunkSize, and_self]

theorem holdsChunk_decoder {s s' : RtmpSession} (same : s'.decoder = s.decoder) (framing : Framing)
    (announced : UInt32) (buf : Bytes) :
    s'.HoldsChunk framing announced buf ↔ s.HoldsChunk framing announced buf := by
  have headerRead : s'.headerRead = s.headerRead := congrArg Decoder.headerRead same
  obtain ⟨basic, rest⟩ := readBasicHeader_decoder same buf
  have fmt : (s'.readBasicHeader buf).1.fmt = (s.readBasicHeader buf).1.fmt :=
    congrArg Decoder.fmt basic
  simp only [HoldsChunk, begun, headerRead, rest, fmt, current_decoder basic, known_decoder basic]

theorem framed_decoder {s s' : RtmpSession} (same : s'.decoder = s.decoder) (framing : Framing) :
    s'.Framed framing ↔ s.Framed framing := by
  have headerRead : s'.headerRead = s.headerRead := congrArg Decoder.headerRead same
  have fmt : s'.fmt = s.fmt := congrArg Decoder.fmt same
  rw [Framed, Framed, headerRead, fmt, current_decoder same, known_decoder same]

/-- The buffer holds a complete unit of the phase the session is in. -/
def HoldsUnit (s : RtmpSession) (framing : Framing) (announced : UInt32) (buf : Bytes) : Prop :=
  match s.state with
  | .init => c0Size + c1Size ≤ buf.length
  | .handshakeC2 => c2Size ≤ buf.length
  | .close => False
  | .connect | .createStream | .publishPlay | .mediaTransfer => s.HoldsChunk framing announced buf

instance (s : RtmpSession) (framing : Framing) (announced : UInt32) (buf : Bytes) :
    Decidable (s.HoldsUnit framing announced buf) := by
  unfold HoldsUnit
  split <;> infer_instance

theorem holdsUnit_quiet {s s' : RtmpSession} (same : s'.quiet = s.quiet) (framing : Framing)
    (announced : UInt32) (buf : Bytes) :
    s'.HoldsUnit framing announced buf ↔ s.HoldsUnit framing announced buf := by
  have state : s'.state = s.state := (congrArg RtmpSession.state same :)
  have decoder : s'.decoder = s.decoder := (congrArg RtmpSession.decoder same :)
  unfold HoldsUnit
  rw [state]
  split <;> first | rfl | exact holdsChunk_decoder decoder framing announced buf

theorem holdsUnit_phase {s : RtmpSession} (phase : s.InChunkPhase) (framing : Framing)
    (announced : UInt32) (buf : Bytes) :
    s.HoldsUnit framing announced buf ↔ s.HoldsChunk framing announced buf := by
  obtain ⟨not_init, not_c2, not_close⟩ := phase
  unfold HoldsUnit
  split <;> first | rfl | contradiction

/-- The buffer ends the state of the handshake the session is in, with a complete unit of the next
    phase behind it. -/
def Spans (s : RtmpSession) (env : Env) (framing : Framing) (announced : UInt32) (buf : Bytes) :
    Prop :=
  s.state = .init ∧ c0Size + c1Size + c2Size ≤ buf.length ∧ ¬ RefusesC0C1 env buf ∨
    s.state = .handshakeC2 ∧ c2Size ≤ buf.length ∧ ¬ s.hs.RefusesC2 env buf ∧
      s.HoldsChunk framing announced (buf.drop c2Size)

theorem Spans.early {s : RtmpSession} {env : Env} {framing : Framing} {announced : UInt32}
    {buf : Bytes} (spans : s.Spans env framing announced buf) :
    s.state = .init ∨ s.state = .handshakeC2 :=
  spans.imp And.left And.left

end RtmpSession

theorem Host.Leads.announced {recordForce : Bool} {host host' : Host} {x y : SessionId}
    (other : y ≠ x) (leads : Host.Leads recordForce x host host') :
    host'.server.announced y = host.server.announced y := by
  refine leads.invariant
    (P := fun after => after.server.announced y = host.server.announced y) ?_ rfl
  rintro before l rfl same
  refine Eq.trans ?_ same
  rw [Server.announced, Server.announced, ← Server.view_heard, ← Server.view_heard]
  cases before.step_resized l y with
  | same _ _ heard | sent _ _ heard => exact heard
  | heard sets =>
      obtain ⟨_, rfl, _⟩ := sets
      exact absurd rfl other

namespace Loop

open Feed

/-- The notes about a session follow the rounds of its reads. -/
def frame (framings : SessionId → Framing) (loop : Loop) : Callback → SessionId → Framing
  | .read x env data =>
      let srv := loop.host.server
      let buf := loop.host.recvBuf x ++ data
      if srv.crashed = none ∧ loop.Reads x data ∧ (srv.sessions x).InChunkPhase then
        Function.update framings x
          (drain (Server.noted env x) (srv.loopSize x buf + 1) (srv, framings x) buf).state.2
      else framings
  | .connected _ | .failed _ => framings

end Loop

/-- The callbacks and the notes. -/
def framing (recordForce : Bool) : Machine (Loop × (SessionId → Framing)) Callback :=
  (callbacks recordForce).noting (fun _ => {}) Loop.frame

namespace Loop

open Feed

/-- The session is open and waits for a read, with a complete unit in its buffer. -/
def Stranded (state : Loop × (SessionId → Framing)) (x : SessionId) : Prop :=
  let (loop, framings) := state
  (loop.asked x).isSome = true ∧ (loop.host.server.sessions x).isOpen = true ∧
    (loop.host.server.sessions x).HoldsUnit (framings x) (loop.host.server.announced x)
      (loop.host.recvBuf x)

instance (state : Loop × (SessionId → Framing)) (x : SessionId) : Decidable (Stranded state x) :=
  inferInstanceAs (Decidable (_ ∧ _ ∧ RtmpSession.HoldsUnit ..))

/-- No session is. -/
def Unstranded (state : Loop × (SessionId → Framing)) : Prop := ∀ x, ¬ Stranded state x

/-- A read that ends a state of the handshake and has brought, behind what ends it, a complete unit
    of the next phase; or one in which the loop starves. -/
def Strands (state : Loop × (SessionId → Framing)) : Callback → Prop
  | .read x env data =>
      let (loop, framings) := state
      let srv := loop.host.server
      let buf := loop.host.recvBuf x ++ data
      srv.crashed = none ∧ loop.Reads x data ∧
        ((srv.sessions x).Spans env (framings x) (srv.announced x) buf ∨
          (srv.sessions x).InChunkPhase ∧ Server.Starves env x srv (framings x) buf)
  | .connected _ | .failed _ => False

variable {loop loop' : Loop} {framings framings' : SessionId → Framing} {x : SessionId}

theorem shake_stranded {env : Env} {data : Bytes}
    (early : (loop.host.server.sessions x).state = .init ∨
      (loop.host.server.sessions x).state = .handshakeC2)
    (isOpen : (loop.host.server.sessions x).isOpen = true)
    (running : loop.host.server.crashed = none)
    (framed : (loop.host.server.sessions x).Framed (framings x))
    (done : loop'.host = (loop.host.onRead env x data).2)
    (asked : loop'.asked x = nextRead (loop.host.onRead env x data).1)
    (notes : framings' x = framings x) :
    ((loop'.asked x).isSome = true → (loop'.host.server.sessions x).Framed (framings' x)) ∧
      (Stranded (loop', framings') x ↔ (loop.host.server.sessions x).Spans env (framings x)
        (loop.host.server.announced x) (loop.host.recvBuf x ++ data)) := by
  obtain ⟨ret, srv, rest, shaken, _, read⟩ := Host.onRead_shake env data early isOpen running
  rw [read] at done asked
  obtain ⟨stillOpen, decoder, _⟩ := shaken.keeps
  have opened : (srv.sessions x).isOpen = true := stillOpen.trans isOpen
  -- what the callback leaves, unless it closes the session
  have host : ret ≠ .fail → loop'.host = loop.host.put x srv rest := fun good => by
    rw [done, if_neg good]
  have left : ret ≠ .fail → (Stranded (loop', framings') x ↔
      (srv.sessions x).HoldsUnit (framings x) (srv.announced x) rest) := by
    intro good
    have asks : (nextRead ret).isSome = true := by cases ret <;> first | rfl | contradiction
    simp only [Stranded, asked, asks, host good, Host.put_recvBuf, Host.put_server, opened, notes,
      true_and]
  refine ⟨fun asks => ?_, ?_⟩
  · have good : ret ≠ .fail := by
      rintro rfl
      rw [asked] at asks
      cases asks
    rw [host good, notes, Host.put_server]
    exact (RtmpSession.framed_decoder decoder _).mpr framed
  generalize loop.host.recvBuf x ++ data = buf at shaken
  cases shaken with
  | waits short =>
      rw [left nofun]
      refine iff_of_false ?_ ?_
      · unfold Server.shakeSize at short
        unfold RtmpSession.HoldsUnit
        obtain init | shaking := early
        · rw [if_pos init] at short
          simpa only [init, Nat.not_le] using short
        · rw [if_neg (by rw [shaking]; decide)] at short
          simpa only [shaking, Nat.not_le] using short
      · unfold Server.shakeSize at short
        rintro (⟨init, long, _⟩ | ⟨shaking, long, _⟩)
        · rw [if_pos init] at short
          omega
        · rw [if_neg (by rw [shaking]; decide)] at short
          omega
  | refused long refuses =>
      refine iff_of_false (fun stranded => ?_) ?_
      · simp only [Stranded, asked] at stranded
        cases stranded.1
      · rintro (⟨init, _, accepts⟩ | ⟨shaking, _, accepts, _⟩)
        · rw [if_pos init] at refuses
          exact accepts refuses
        · rw [if_neg (by rw [shaking]; decide)] at refuses
          exact accepts refuses
  | greeted init long accepts =>
      rw [left nofun]
      simp only [RtmpSession.HoldsUnit, Server.set_sessions, RtmpSession.Spans, init, accepts,
        List.length_drop, reduceCtorEq, false_and, or_false, not_false_eq_true, and_true, true_and]
      omega
  | @shaken hs late long accepts =>
      have shaking := early.resolve_left late
      have announced : ((loop.host.server.set x { loop.host.server.sessions x with
          hs, state := .connect }).emit (.handshakeDone x)).announced x =
          loop.host.server.announced x := Event.lastSize_append _ _ _
      rw [left nofun, announced]
      simp only [RtmpSession.HoldsUnit, Server.emit, Server.set_sessions, RtmpSession.Spans,
        shaking, accepts, long, reduceCtorEq, false_and, false_or, not_false_eq_true, true_and]
      refine RtmpSession.holdsChunk_decoder ?_ _ _ _
      rfl

/-- A read in the chunk phase. -/
theorem drain_stranded {env : Env} {data : Bytes} (some : data ≠ [])
    (phase : (loop.host.server.sessions x).InChunkPhase)
    (awaiting : (loop.host.server.sessions x).Awaiting)
    (running : loop.host.server.crashed = none)
    (framed : (loop.host.server.sessions x).Framed (framings x))
    (done : loop'.host = (loop.host.onRead env x data).2)
    (asked : loop'.asked x = nextRead (loop.host.onRead env x data).1)
    (notes : framings' x = (drain (Server.noted env x)
      (loop.host.server.loopSize x (loop.host.recvBuf x ++ data) + 1)
      (loop.host.server, framings x) (loop.host.recvBuf x ++ data)).state.2) :
    ((loop'.asked x).isSome = true → (loop'.host.server.sessions x).Framed (framings' x)) ∧
      (Stranded (loop', framings') x ↔
        Server.Starves env x loop.host.server (framings x) (loop.host.recvBuf x ++ data)) := by
  have filled : loop.host.recvBuf x ++ data ≠ [] := List.append_ne_nil_of_right_ne_nil _ some
  have read : loop.host.onRead env x data = loop.host.finish x (feed (Server.turn env x)
      (Server.loopSize x) ⟨false, loop.host.server, loop.host.recvBuf x⟩ data) :=
    Host.onRead_drain phase some
  simp only [feed, Bool.false_eq_true, if_false] at read
  generalize loop.host.recvBuf x ++ data = buf at *
  obtain ⟨d, noted, drains, same⟩ := Server.noted_drains env x loop.host.server (framings x) buf
  have plain := Server.turn_drains env x loop.host.server buf
  rw [same] at read plain
  rw [noted] at notes
  obtain ⟨kept, starves⟩ := Server.drains_starves drains framed fun none => absurd none filled
  rw [read, Host.finish] at done asked
  cases halted : d.halted with
  | true =>
      simp only [halted, if_true] at done asked starves
      have closed : ¬ (loop'.asked x).isSome = true := by
        rw [asked]
        decide
      refine ⟨fun asks => absurd asks closed, iff_of_false (fun left => closed left.1) ?_⟩
      intro starved
      cases (starves.mp starved).1
  | false =>
      simp only [halted, Bool.false_eq_true, if_false] at done asked starves
      have isOpen : (d.state.1.sessions x).isOpen = true :=
        (Host.drains_awaiting plain phase awaiting running halted).1.isOpen
      have phase' := Server.drains_phase plain phase halted
      refine ⟨fun _ => ?_, ?_⟩
      · rw [done, notes]
        exact kept halted
      · simp only [Stranded, asked, done, notes, Host.put_server, Host.put_recvBuf, isOpen,
          nextRead, Option.isSome_some, true_and]
        rw [RtmpSession.holdsUnit_phase phase', starves]
        simp only [true_and]

theorem frame_read (env : Env) {data : Bytes} (reads : loop.Reads x data)
    (running : loop.host.server.crashed = none)
    (phase : (loop.host.server.sessions x).InChunkPhase) (framings : SessionId → Framing) :
    frame framings loop (.read x env data) x = (drain (Server.noted env x)
      (loop.host.server.loopSize x (loop.host.recvBuf x ++ data) + 1)
      (loop.host.server, framings x) (loop.host.recvBuf x ++ data)).state.2 := by
  simp only [frame, running, reads, phase, and_self, if_true]
  exact Function.update_self ..

theorem read_stranded {env : Env} {data : Bytes} (reads : loop.Reads x data)
    (awaiting : (loop.host.server.sessions x).Awaiting)
    (running : loop.host.server.crashed = none)
    (framed : (loop.host.server.sessions x).Framed (framings x)) :
    let state := (loop.perform (.read x env data), frame framings loop (.read x env data))
    ((state.1.asked x).isSome = true → (state.1.host.server.sessions x).Framed (state.2 x)) ∧
      (Stranded state x ↔ Strands (loop, framings) (.read x env data)) := by
  obtain ⟨loop', performed, done, asked⟩ : ∃ loop', loop.perform (.read x env data) = loop' ∧
      loop'.host = (loop.host.onRead env x data).2 ∧
      loop'.asked x = nextRead (loop.host.onRead env x data).1 :=
    ⟨_, if_pos reads, rfl, Function.update_self ..⟩
  rw [performed]
  by_cases early : (loop.host.server.sessions x).state = .init ∨
      (loop.host.server.sessions x).state = .handshakeC2
  · have outside : ¬ (loop.host.server.sessions x).InChunkPhase :=
      fun phase => early.elim phase.1 phase.2.1
    have notes : frame framings loop (.read x env data) x = framings x := by
      simp only [frame, outside, and_false, if_false]
    obtain ⟨kept, stranded⟩ :=
      shake_stranded early awaiting.isOpen running framed done asked notes
    refine ⟨kept, stranded.trans ?_⟩
    simp only [Strands, running, reads, outside, false_and, or_false, true_and]
  · have phase := awaiting.phase early
    have notes := frame_read env reads running phase framings
    obtain ⟨kept, stranded⟩ :=
      drain_stranded reads.1 phase awaiting running framed done asked notes
    have shaken : ¬ (loop.host.server.sessions x).Spans env (framings x)
        (loop.host.server.announced x) (loop.host.recvBuf x ++ data) :=
      fun spans => early spans.early
    refine ⟨kept, stranded.trans ?_⟩
    simp only [Strands, running, reads, phase, shaken, false_or, true_and]

theorem frame_other (framings : SessionId → Framing) (loop : Loop) {cb : Callback}
    (other : x ≠ cb.session) : frame framings loop cb x = framings x := by
  cases cb with
  | connected | failed => rfl
  | read =>
      simp only [frame]
      split
      · exact Function.update_of_ne other _ _
      · rfl

theorem perform_stranded_other (running : loop.host.server.crashed = none) {cb : Callback}
    (sane : loop.Sane cb.session) (other : x ≠ cb.session) :
    Stranded (loop.perform cb, frame framings loop cb) x ↔ Stranded (loop, framings) x := by
  have leads := perform_leads false running sane
  obtain ⟨session, buf⟩ := leads.other other
  have isOpen : ((loop.perform cb).host.server.sessions x).isOpen =
      (loop.host.server.sessions x).isOpen := (congrArg RtmpSession.isOpen session :)
  simp only [Stranded, loop.perform_asked other, isOpen, buf, frame_other framings loop other,
    leads.announced other, RtmpSession.holdsUnit_quiet session]

/-- The notes fit every session that is to read. -/
def Framed (state : Loop × (SessionId → Framing)) : Prop :=
  ∀ x, (state.1.asked x).isSome = true → (state.1.host.server.sessions x).Framed (state.2 x)

/-- The session a callback is about is stranded by a read that strands it, and by no other
    callback. -/
theorem perform_stranded_own (running : loop.host.server.crashed = none) {cb : Callback}
    (sane : loop.Sane cb.session) (framed : Framed (loop, framings))
    (unstranded : ¬ Stranded (loop, framings) cb.session) :
    (((loop.perform cb).asked cb.session).isSome = true →
        ((loop.perform cb).host.server.sessions cb.session).Framed
          (frame framings loop cb cb.session)) ∧
      (Stranded (loop.perform cb, frame framings loop cb) cb.session ↔
        Strands (loop, framings) cb) := by
  cases cb with
  | connected x =>
      simp only [perform]
      split
      · next opens =>
        have shut : ¬ (loop.host.server.sessions x).isOpen := by simpa using opens.1
        obtain ⟨fresh, empty⟩ := sane.fresh (sane.unasked shut) opens.2
        have none : loop.host.recvBuf x = [] := empty
        have between : (loop.host.server.sessions x).headerRead = false :=
          (congrArg RtmpSession.headerRead fresh :)
        refine ⟨fun _ read => ?_, iff_of_false ?_ id⟩
        · simp only [Host.step_accept running opens, Callback.session, Server.set_sessions] at read
          cases between.symm.trans read
        · rintro ⟨_, _, holds⟩
          simp only [Host.step_accept running opens, Callback.session, RtmpSession.HoldsUnit,
            Server.set_sessions, opens.2, none] at holds
          exact absurd holds (by decide)
      · exact ⟨framed x, iff_of_false unstranded id⟩
  | failed x =>
      have unasked : ¬ ((loop.perform (.failed x)).asked x).isSome = true := by
        simp only [perform, Function.update_self, Option.isSome_none, Bool.false_eq_true,
          not_false_eq_true]
      exact ⟨fun asks => absurd asks unasked, iff_of_false (fun left => unasked left.1) id⟩
  | read x env data =>
      by_cases reads : loop.Reads x data
      · obtain ⟨n, asked, _⟩ := reads.2
        have asks : (loop.asked x).isSome = true := Option.isSome_iff_exists.mpr ⟨n, asked⟩
        exact read_stranded reads (sane.awaiting asked) running (framed x asks)
      · have same : loop.perform (.read x env data) = loop := if_neg reads
        have notes : frame framings loop (.read x env data) = framings := by
          simp only [frame, reads, false_and, and_false, if_false]
        rw [same, notes]
        exact ⟨framed x, iff_of_false unstranded fun strands => reads strands.2.1⟩

theorem Strands.running {cb : Callback} (strands : Strands (loop, framings) cb) :
    loop.host.server.crashed = none := by
  cases cb with
  | read => exact strands.1
  | connected | failed => exact strands.elim

theorem step_stopped (stopped : loop.host.server.crashed ≠ none) (cb : Callback) :
    (loop.step cb, frame framings loop cb) = (loop, framings) := by
  have still : loop.step cb = loop := if_neg stopped
  have notes : frame framings loop cb = framings := by
    cases cb with
    | connected | failed => rfl
    | read => simp only [frame, stopped, false_and, if_false]
  rw [still, notes]

/-- What a run keeps up as long as no read strands a session. -/
structure Kept (state : Loop × (SessionId → Framing)) : Prop where
  orderly : state.1.Orderly
  framed : Framed state
  unstranded : Unstranded state

theorem Kept.step (kept : Kept (loop, framings)) {cb : Callback}
    (within : ¬ Strands (loop, framings) cb) : Kept (loop.step cb, frame framings loop cb) := by
  by_cases running : loop.host.server.crashed = none
  · have orderly := kept.orderly.step cb
    have stepped : loop.step cb = loop.perform cb := if_pos running
    have sane := kept.orderly running cb.session
    obtain ⟨framed, stranded⟩ :=
      perform_stranded_own running sane kept.framed (kept.unstranded cb.session)
    rw [stepped] at orderly ⊢
    refine ⟨orderly, fun x asks => ?_, fun x => ?_⟩
    · by_cases own : x = cb.session
      · subst own
        exact framed asks
      · have session := ((perform_leads false running sane).other own).1
        have before := loop.perform_asked own
        rw [before] at asks
        have decoder : ((loop.perform cb).host.server.sessions x).decoder =
            (loop.host.server.sessions x).decoder := (congrArg RtmpSession.decoder session :)
        have fits := (RtmpSession.framed_decoder decoder (framings x)).mpr (kept.framed x asks)
        simpa only [frame_other framings loop own] using fits
    · by_cases own : x = cb.session
      · subst own
        exact mt stranded.mp within
      · exact mt (perform_stranded_other running sane own).mp (kept.unstranded x)
  · rwa [step_stopped running]

end Loop

/-- In a run no session is ever left waiting with a complete unit of its phase in the buffer,
    exactly when no read brings the end of a state of the handshake and a complete unit behind it, and
    in no read the loop comes to a whole chunk of which it wants more. -/
theorem input_not_stranded (recordForce : Bool) (cbs : List Callback) :
    (framing recordForce).Always Loop.Unstranded cbs ↔
      (framing recordForce).Steps (fun state cb => ¬ Loop.Strands state cb) cbs := by
  refine Machine.always_iff (I := Loop.Kept) ?_ (fun _ kept => kept.unstranded) ?_ ?_
  · exact ⟨Loop.orderly_start recordForce, fun _ asks => absurd asks nofun,
      fun _ stranded => absurd stranded.1 nofun⟩
  · exact fun _ _ kept within => kept.step within
  · rintro ⟨loop, framings⟩ cb kept strands unstranded
    have strands := not_not.mp strands
    have running := strands.running
    have stepped : loop.step cb = loop.perform cb := if_pos running
    change Loop.Unstranded (loop.step cb, Loop.frame framings loop cb) at unstranded
    rw [stepped] at unstranded
    exact unstranded cb.session ((Loop.perform_stranded_own running (kept.orderly running _)
      kept.framed (kept.unstranded _)).2.mpr strands)

/-- A handshake without digests, as the server's peer says its part of it. -/
def shakingHands : List Callback :=
  let env : Env := .crypto (fun _ _ => List.replicate keyLen 0) (fun _ => 0) 0
  [.connected 1, .read 1 env (3 :: List.replicate 1536 0), .read 1 env (List.replicate 1460 0)]

/-- A `connect` sent right behind C2: the first 1460 bytes of C2 come in one read, the others with the
    `connect` in the next. -/
def eagerClient : List Callback :=
  let env : Env := .crypto (fun _ _ => List.replicate keyLen 0) (fun _ => 0) 0
  shakingHands ++ [.read 1 env (List.replicate 76 0 ++ Peer.connect "live")]

/-- The whole `connect` stays in the buffer, and the server waits for a client that waits for it. -/
theorem input_stranded_behind_C2 : ¬ (framing false).Always Loop.Unstranded eagerClient := by
  intro always
  exact always eagerClient (List.prefix_refl _) 1 (by decide +kernel)

/-- An acknowledgement with an extended time, then, on the same chunk stream, a message of 131 bytes
    with an ordinary one: its last three bytes are taken for the start of a time. -/
example :
    let env : Env := .crypto (fun _ _ => List.replicate keyLen 0) (fun _ => 0) 0
    ¬ (framing false).Always Loop.Unstranded (shakingHands ++
      [.read 1 env (List.replicate 76 0),
        .read 1 env (chunk 3 (.f0 0xffffff 4 3 0) [0, 0, 0, 0, 1, 2, 3, 4]),
        .read 1 env (chunk 3 (.f0 0 131 8 1) (List.replicate 128 0) ++ chunk 3 .f3 [1, 2, 3])]) := by
  intro _ always
  exact always _ (List.prefix_refl _) 1 (by decide +kernel)

end DroneServer
