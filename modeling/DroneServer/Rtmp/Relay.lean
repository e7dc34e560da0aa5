import DroneServer.Rtmp.Peer
import DroneServer.Rtmp.Registry

/-! # Whose media is relayed

Every packet that enters a cache or is written to a peer comes from the session
that joined that very stream as its publisher and has not left it since. The
registry does not show this by itself: an url can be renamed at any time, and a
stream can be released and made again under the same url. What carries it is
`History`, which ties the publisher of each registered stream to the log.
-/

namespace DroneServer

namespace Event

/-- A media message of `x` had an effect on the stream object `ref`. -/
def Relays (x : SessionId) (ref : Nat) : Event → Prop
  | .cached y r _ => y = x ∧ r = ref
  | .relayed y r _ _ => y = x ∧ r = ref
  | _ => False

/-- What a session has completed when it is in a state of the handshake or of the commands that
    lead to publishing and playing. -/
def completed (x : SessionId) : SessionState → List Event
  | .connect => [.handshakeDone x]
  | .createStream => [.handshakeDone x, .connected x]
  | .publishPlay => [.handshakeDone x, .connected x, .streamCreated x]
  | .init | .handshakeC2 | .mediaTransfer | .close => []

end Event

open Event

/-- By this log `x` is the accepted publisher of the stream object `ref`: after the handshake,
    `connect` and `createStream` its join as publisher returned 0 in a `publish` it completed, and
    it has not left since. -/
def Accepted (log : List Event) (x : SessionId) (ref : Nat) : Prop :=
  ∃ before after, log = before ++ .join x ref true .ok :: after ∧
    List.Sublist [.handshakeDone x, .connected x, .streamCreated x] before ∧
    .published x ∈ after ∧ .leave x ref ∉ after

theorem Accepted.append {log : List Event} {x : SessionId} {ref : Nat}
    (accepted : Accepted log x ref) {es : List Event} (stays : .leave x ref ∉ es) :
    Accepted (log ++ es) x ref := by
  obtain ⟨before, after, rfl, done, published, still⟩ := accepted
  refine ⟨before, after ++ es, by simp, done, List.mem_append_left es published, ?_⟩
  rw [List.mem_append]
  exact fun left => left.elim still stays

/-- Everything relayed so far came from an accepted publisher. -/
def Relayed (log : List Event) : Prop :=
  ∀ before e after x ref, log = before ++ e :: after → e.Relays x ref → Accepted before x ref

theorem Relayed.append {log es : List Event} (relayed : Relayed log)
    (new : ∀ before e after x ref, es = before ++ e :: after → e.Relays x ref →
      Accepted (log ++ before) x ref) : Relayed (log ++ es) := by
  intro before e after x ref split relays
  rcases List.append_eq_append_iff.mp split with ⟨mid, rfl, rest⟩ | ⟨mid, rfl, rest⟩
  · exact new mid e after x ref rest relays
  · cases mid with
    | nil =>
        rw [List.append_nil] at *
        have := new [] e after x ref (by simpa using rest.symm) relays
        simpa using this
    | cons e' mid =>
        obtain ⟨rfl, rfl⟩ := List.cons.inj rest
        exact relayed before e mid x ref rfl relays

theorem Relayed.silent {log es : List Event} (relayed : Relayed log)
    (silent : ∀ e ∈ es, ∀ x ref, ¬ e.Relays x ref) : Relayed (log ++ es) := by
  refine relayed.append fun before e after x ref split relays => ?_
  exact absurd relays (silent e (by simp [split]) x ref)

structure History (srv : Server) : Prop where
  progress : ∀ x, (completed x (srv.sessions x).state).Sublist srv.log
  hosts : ∀ {url st x}, srv.streams url = some st → st.publisher = some x →
    Accepted srv.log x st.ref
  relayed : Relayed srv.log

namespace History

open Server

variable {srv srv' : Server}

theorem same (history : History srv) {es : List Event} (log : srv'.log = srv.log ++ es)
    (states : ∀ y, (srv'.sessions y).state = (srv.sessions y).state ∨
      completed y (srv'.sessions y).state = [])
    (hosts : ∀ {url st y}, srv'.streams url = some st → st.publisher = some y →
      Accepted (srv.log ++ es) y st.ref)
    (relayed : Relayed (srv.log ++ es)) : History srv' where
  progress y := by
    rw [log]
    rcases states y with same | none
    · rw [same]
      exact (history.progress y).trans (List.sublist_append_left _ es)
    · rw [none]
      exact List.nil_sublist _
  hosts found host := log ▸ hosts found host
  relayed := log ▸ relayed

theorem hosts_append (history : History srv) {es : List Event}
    (stays : ∀ y ref, .leave y ref ∉ es) (streams : srv'.streams = srv.streams) {url : Bytes}
    {st : RtmpStream} {y : SessionId} (found : srv'.streams url = some st)
    (host : st.publisher = some y) : Accepted (srv.log ++ es) y st.ref :=
  (history.hosts (streams ▸ found) host).append (stays y st.ref)

private theorem set_states {x : SessionId} {s : RtmpSession}
    (state : s.state = (srv.sessions x).state ∨ completed x s.state = []) (y : SessionId) :
    ((srv.set x s).sessions y).state = (srv.sessions y).state ∨
      completed y ((srv.set x s).sessions y).state = [] := by
  by_cases self : y = x
  · subst self
    rwa [set_sessions]
  · rw [set_other _ _ self]
    exact .inl rfl

theorem left (history : History srv) (reg : Registry srv) {x : SessionId} {url : Bytes}
    {st : RtmpStream} (found : srv.streams url = some st) : History (srv.left url st x) := by
  have silent : ∀ e ∈ [Event.leave x st.ref], ∀ y ref, ¬ e.Relays y ref := by
    rintro e inside y ref
    rw [List.mem_singleton.mp inside]
    exact id
  refine history.same rfl (fun _ => .inl rfl) ?_ (history.relayed.silent silent)
  intro u st' y found' host
  simp only [Server.left] at found'
  by_cases same : u = url
  · subst same
    rw [Function.update_self] at found'
    split at found'
    · cases found'
    · cases found'
      obtain ⟨other, host⟩ := RtmpStream.leave_publisher.mp host
      refine (history.hosts found host).append ?_
      simp [other]
  · rw [Function.update_of_ne same] at found'
    refine (history.hosts found' host).append ?_
    have apart : st'.ref ≠ st.ref := fun same_ref => same (reg.distinct found' found same_ref)
    simp [apart]

private theorem progress_snoc (history : History srv) {es : List Event} {x : SessionId}
    (now : completed x (srv'.sessions x).state = completed x (srv.sessions x).state ++ es)
    (others : ∀ y, y ≠ x → (srv'.sessions y).state = (srv.sessions y).state)
    (log : srv'.log = srv.log ++ es) (y : SessionId) :
    (completed y (srv'.sessions y).state).Sublist srv'.log := by
  rw [log]
  by_cases self : y = x
  · subst self
    rw [now]
    exact (history.progress y).append (List.Sublist.refl es)
  · rw [others y self]
    exact (history.progress y).trans (List.sublist_append_left _ es)

theorem advanced (history : History srv) {x : SessionId} {s : RtmpSession} {es : List Event}
    (phase : Advance x (srv.sessions x).state s.state es) : History ((srv.set x s).emits es) := by
  have others : ∀ y, y ≠ x → (((srv.set x s).emits es).sessions y).state =
      (srv.sessions y).state := by
    intro y other
    simp only [emits, set_other _ _ other]
  have now : completed x s.state = completed x (srv.sessions x).state ++ es := by
    generalize (srv.sessions x).state = before at phase
    generalize s.state = after at phase
    cases phase <;> rfl
  have harmless : ∀ e ∈ es, ∀ y ref, ¬ e.Relays y ref ∧ e ≠ .leave y ref := by
    generalize (srv.sessions x).state = before at phase
    generalize s.state = after at phase
    cases phase <;> simp [Event.Relays]
  refine ⟨progress_snoc history ?_ others rfl, ?_, ?_⟩
  · rwa [emits, set_sessions]
  · intro url st y found host
    exact history.hosts_append (fun y ref inside => (harmless _ inside y ref).2 rfl) rfl found host
  · exact history.relayed.silent fun e inside y ref => (harmless e inside y ref).1

theorem joined (history : History srv) (reg : Registry srv) {x : SessionId} {url : Bytes}
    {st : RtmpStream} {srv₁ : Server} (found : srv.findStream url = .ok (st, srv₁))
    (publisher : Bool) (phase : (srv.sessions x).state = .publishPlay) :
    History (srv₁.joined x url st publisher) := by
  obtain ⟨_, _, _, _, streams, sessions, log⟩ := reg.findStream_sound found
  have logged : (srv₁.joined x url st publisher).log = srv.log ++
      [.join x st.ref publisher (st.join x publisher).1,
        if publisher then .published x else .played x] := by
    rw [← log]
    rfl
  have harmless : ∀ e ∈ [Event.join x st.ref publisher (st.join x publisher).1,
      if publisher then .published x else .played x],
      ∀ y ref, ¬ e.Relays y ref ∧ e ≠ .leave y ref := by
    cases publisher <;> simp [Event.Relays]
  have stays : ∀ y ref, .leave y ref ∉ [Event.join x st.ref publisher (st.join x publisher).1,
      if publisher then .published x else .played x] :=
    fun y ref inside => (harmless _ inside y ref).2 rfl
  have older : ∀ {y}, st.publisher = some y → Accepted srv.log y st.ref := by
    intro y host
    obtain ⟨old, rfl⟩ | ⟨_, _, _, nobody, _⟩ := findStream_ok found
    · exact history.hosts old host
    · rw [nobody] at host
      cases host
  refine history.same logged (fun y => ?_) ?_
    (history.relayed.silent fun e inside y ref => (harmless e inside y ref).1)
  · by_cases self : y = x
    · subst self
      simp only [Server.joined, emits, set_sessions]
      exact .inr rfl
    · refine .inl ?_
      simp only [Server.joined, emits, set_other _ _ self, setStream, sessions]
  · intro u st' y found' host
    rw [joined_streams streams] at found'
    by_cases same : u = url
    · subst same
      rw [Function.update_self] at found'
      cases found'
      rw [RtmpStream.join_ref]
      obtain ⟨refused, _⟩ | ⟨ret, _, entered⟩ := st.join_cases x publisher
      · rw [refused] at host
        exact (older host).append (stays y st.ref)
      · rw [entered] at host
        cases publisher with
        | false => exact (older host).append (stays y st.ref)
        | true =>
            cases host
            refine ⟨srv.log, [.published x], by rw [ret]; rfl, ?_, by simp, by simp⟩
            have progress := history.progress x
            rwa [phase] at progress
    · rw [Function.update_of_ne same] at found'
      exact (history.hosts found' host).append (stays y st'.ref)

theorem relaying (history : History srv) {x : SessionId} {st st' : RtmpStream}
    {media : MediaManager} {cs : RtmpChunkStream} {pkt : MediaPacket}
    {writes : List (SessionId × MediaPacket)} (found : srv.streams (srv.sessions x).url = some st)
    (accepted : st.send srv.media x cs = .ok (some (st', media, pkt, writes))) :
    History (srv.relaying x st st' media pkt writes) := by
  obtain ⟨host, demux, _, rfl, _⟩ := RtmpStream.send_ok accepted
  have now := history.hosts found host
  have kinds : ∀ e ∈ Event.cached x st.ref pkt :: relayEvents x st.ref writes,
      (∀ y ref, e.Relays y ref → y = x ∧ ref = st.ref) ∧ ∀ y ref, e ≠ .leave y ref := by
    intro e inside
    rcases List.mem_cons.mp inside with rfl | inside
    · exact ⟨fun y ref relays => ⟨relays.1.symm, relays.2.symm⟩, by simp⟩
    · obtain ⟨⟨peer, sent⟩, _, rfl⟩ := List.mem_map.mp inside
      exact ⟨fun y ref relays => ⟨relays.1.symm, relays.2.symm⟩, by simp⟩
  have stays : ∀ y ref, .leave y ref ∉ Event.cached x st.ref pkt :: relayEvents x st.ref writes :=
    fun y ref inside => (kinds _ inside).2 y ref rfl
  refine history.same rfl (fun _ => .inl rfl) ?_ (history.relayed.append ?_)
  · intro u other y found' host'
    simp only [Server.relaying, emits, setStream] at found'
    by_cases same : u = (srv.sessions x).url
    · rw [same, Function.update_self] at found'
      cases found'
      exact (history.hosts found host').append (stays y st.ref)
    · rw [Function.update_of_ne same] at found'
      exact (history.hosts found' host').append (stays y other.ref)
  · intro before e after y ref split relays
    obtain ⟨rfl, rfl⟩ := (kinds e (by simp [split])).1 y ref relays
    refine now.append fun inside => stays y st.ref ?_
    rw [split]
    exact List.mem_append_left _ inside

theorem act (history : History srv) (reg : Registry srv) {may : Grants} {x : SessionId}
    (act : Act may x srv srv') : History srv' := by
  have silent : Relayed (srv.log ++ []) := by
    rw [List.append_nil]
    exact history.relayed
  have nobody : ∀ y ref, .leave y ref ∉ ([] : List Event) := fun _ _ => List.not_mem_nil
  cases act with
  | wrote quiet =>
      have log : srv'.log = srv.log ++ [] := by rw [quiet_log quiet, List.append_nil]
      exact history.same log (fun y => .inl (quiet_state quiet y))
        (history.hosts_append nobody (quiet_streams quiet)) silent
  | @note e routine =>
      have harmless : ∀ y ref, ¬ e.Relays y ref ∧ e ≠ .leave y ref := by
        cases e <;> simp_all [Event.routine, Event.Relays]
      refine history.same rfl (fun _ => .inl rfl)
        (history.hosts_append (fun y ref inside => ?_) rfl) (history.relayed.silent ?_)
      · exact (harmless y ref).2 (List.mem_singleton.mp inside).symm
      · rintro e' inside y ref
        rw [List.mem_singleton.mp inside]
        exact (harmless y ref).1
  | @own s state =>
      have log : (srv.set x s).log = srv.log ++ [] := (List.append_nil _).symm
      exact history.same log (set_states (.inl state)) (history.hosts_append nobody rfl) silent
  | advanced phase => exact history.advanced phase
  | @released url =>
      have log : (srv.setStream url none).log = srv.log ++ [] := (List.append_nil _).symm
      refine history.same log (fun _ => .inl rfl) ?_ silent
      intro u st y found host
      rw [List.append_nil]
      simp only [setStream] at found
      by_cases same : u = url
      · rw [same, Function.update_self] at found
        cases found
      · rw [Function.update_of_ne same] at found
        exact history.hosts found host
  | departed found => exact history.left reg found
  | closed =>
      have log : (srv.set x { srv.sessions x with state := .close }).log = srv.log ++ [] :=
        (List.append_nil _).symm
      exact history.same log (set_states (.inr rfl)) (history.hosts_append nobody rfl) silent
  | entered publisher found phase => exact history.joined reg found publisher phase
  | relayed found _ accepted => exact history.relaying found accepted
  | crashed f =>
      have log : (srv.crash f).log = srv.log ++ [] := (List.append_nil _).symm
      exact history.same log (fun _ => .inl rfl) (history.hosts_append nobody rfl) silent

theorem empty {recordForce : Bool} : History { recordForce } where
  progress x := List.nil_sublist _
  hosts found := nomatch found
  relayed before e after x ref split := by
    have nothing : before ++ e :: after = [] := split.symm
    simp at nothing

theorem reachable {recordForce : Bool} {host : Host} (reached : (machine recordForce).Reachable host) :
    Registry host.server ∧ History host.server :=
  Reachable.of_acts (P := fun srv => Registry srv ∧ History srv) ⟨.empty, empty⟩
    (fun ⟨reg, history⟩ act => ⟨reg.act act, history.act reg act⟩) reached

end History

namespace Server

variable {may : Grants} {x : SessionId} {srv srv' : Server}

/-- No act takes a session back. -/
theorem Act.forward (act : Act may x srv srv') (y : SessionId) :
    (srv.sessions y).state.rank ≤ (srv'.sessions y).state.rank := by
  by_cases self : y = x
  · subst self
    have moves := act.moves
    generalize (srv.sessions y).state = before at moves
    generalize (srv'.sessions y).state = after at moves
    cases moves with
    | stay => exact le_refl _
    | advance phase => cases phase <;> decide
    | enter => decide
    | close => cases before <;> decide
  · have same : (srv'.sessions y).state = (srv.sessions y).state :=
      congrArg (·.state) (act.other self)
    rw [same]

theorem Acts.forward (acts : Acts may x srv srv') (y : SessionId) :
    (srv.sessions y).state.rank ≤ (srv'.sessions y).state.rank := by
  induction acts with
  | refl => exact le_refl _
  | tail _ act ih => exact ih.trans (act.forward y)

end Server

theorem Host.forward (recordForce : Bool) (host : Host) (labels : List Label) (y : SessionId) :
    (host.server.sessions y).state.rank ≤
      (((machine recordForce).exec host labels).server.sessions y).state.rank :=
  Machine.exec_related
    (R := fun before after =>
      (before.server.sessions y).state.rank ≤ (after.server.sessions y).state.rank)
    (fun _ => le_refl _) le_trans (fun host l => (host.step_acts_close l).forward y) host labels

theorem SessionState.rank_close {state : SessionState}
    (closed : SessionState.close.rank ≤ state.rank) : state = .close := by
  cases state with
  | close => rfl
  | init | handshakeC2 | connect | createStream | publishPlay | mediaTransfer =>
      exact absurd closed (by decide)

theorem SessionState.rank_init {state : SessionState} (first : state.rank ≤ SessionState.init.rank) :
    state = .init := by
  cases state with
  | init => rfl
  | handshakeC2 | connect | createStream | publishPlay | mediaTransfer | close =>
      exact absurd first (by decide)

/-- In every run, a packet enters a cache or goes to a peer only on behalf of the stream's accepted
    publisher, and every session's state only moves forward, never out of `CLOSE`. -/
theorem only_publisher_relayed (recordForce : Bool) (labels : List Label) :
    (∀ before e after x ref,
      ((machine recordForce).run labels).server.log = before ++ e :: after →
      e.Relays x ref → Accepted before x ref) ∧
    ∀ x more,
      (((machine recordForce).run labels).server.sessions x).state.rank ≤
        (((machine recordForce).run (labels ++ more)).server.sessions x).state.rank ∧
      ((((machine recordForce).run labels).server.sessions x).state = .close →
        (((machine recordForce).run (labels ++ more)).server.sessions x).state = .close) := by
  refine ⟨(History.reachable (Machine.Reachable.run _ labels)).2.relayed, fun x more => ?_⟩
  have forward : (((machine recordForce).run labels).server.sessions x).state.rank ≤
      (((machine recordForce).run (labels ++ more)).server.sessions x).state.rank := by
    have span := Host.forward recordForce ((machine recordForce).run labels) more x
    rwa [Machine.run, ← Machine.exec_append] at span
  refine ⟨forward, fun closed => ?_⟩
  rw [closed] at forward
  exact SessionState.rank_close forward

end DroneServer
