import DroneServer.Rtmp.Peer
import DroneServer.Rtmp.Registry
import DroneServer.Rtmp.View

/-! # Who is in a stream, and what other sessions can do about it

A session's place in a registered stream survives whatever other sessions do,
except a `releaseStream` that names the stream. A session that is closed leaves
the one stream its url names at that moment; it stays a peer of another stream
exactly when it has renamed its url since it joined.
-/

namespace DroneServer

namespace Server

/-- The session is a peer of the stream registered under `url`, and its publisher if so asked. -/
def Place (srv : Server) (t : SessionId) (url : Bytes) (publisher : Prop) : Prop :=
  ∃ st, srv.streams url = some st ∧ t ∈ st.peers ∧ (publisher → st.publisher = some t)

theorem Place.same {srv srv' : Server} {t : SessionId} {url : Bytes} {publisher : Prop}
    (place : srv.Place t url publisher) (streams : srv'.streams url = srv.streams url) :
    srv'.Place t url publisher := by
  obtain ⟨st, found, role⟩ := place
  exact ⟨st, streams.trans found, role⟩

theorem Place.put {srv srv' : Server} {t : SessionId} {url u : Bytes} {publisher : Prop}
    (place : srv.Place t url publisher) {st : RtmpStream}
    (streams : srv'.streams = Function.update srv.streams u (some st))
    (role : ∀ old, srv.streams u = some old → t ∈ old.peers → t ∈ st.peers ∧
      (old.publisher = some t → st.publisher = some t)) : srv'.Place t url publisher := by
  by_cases same : url = u
  · subst same
    obtain ⟨old, found, inside, host⟩ := place
    obtain ⟨still, kept⟩ := role old found inside
    exact ⟨st, by rw [streams, Function.update_self], still, fun asked => kept (host asked)⟩
  · exact place.same (by rw [streams, Function.update_of_ne same])

theorem Place.act {srv srv' : Server} {t x : SessionId} {url : Bytes} {publisher : Prop}
    {may : Grants} (other : t ≠ x) (spared : ¬ may.release url)
    (place : srv.Place t url publisher) (act : Act may x srv srv') :
    srv'.Place t url publisher := by
  cases act with
  | wrote quiet => exact place.same (by rw [quiet_streams quiet])
  | note | own | advanced | closed | crashed => exact place
  | @released u allowed =>
      have apart : url ≠ u := fun same => spared (same ▸ allowed)
      exact place.same (Function.update_of_ne apart ..)
  | @departed st found =>
      by_cases last : (st.leave x).count = 0
      · have apart : url ≠ (srv.sessions x).url := by
          rintro rfl
          obtain ⟨old, again, inside, _⟩ := place
          rw [found] at again
          cases again
          exact Table.count_eq_zero.mp last t (RtmpStream.mem_leave.mpr ⟨other, inside⟩)
        exact place.same (Function.update_of_ne apart ..)
      · refine place.put (u := (srv.sessions x).url) (by rw [left, if_neg last]) ?_
        intro old again inside
        rw [found] at again
        cases again
        exact ⟨RtmpStream.mem_leave.mpr ⟨other, inside⟩,
          fun host => RtmpStream.leave_publisher.mpr ⟨other, host⟩⟩
  | @entered srv₁ st asked found phase =>
      obtain ⟨found, rfl⟩ | ⟨absent, _, _, _, _, _, _, streams, _⟩ := findStream_ok found
      · refine place.put (u := (srv₁.sessions x).url) rfl ?_
        intro old again inside
        rw [found] at again
        cases again
        obtain ⟨same, _⟩ | ⟨_, free, same⟩ := st.join_cases x asked <;> rw [same]
        · exact ⟨inside, id⟩
        · refine ⟨Table.mem_insertNew.mpr (.inr inside), fun host => ?_⟩
          cases asked with
          | false => exact host
          | true =>
              rw [free rfl] at host
              cases host
      · have apart : url ≠ (srv.sessions x).url := by
          rintro rfl
          obtain ⟨old, again, _⟩ := place
          rw [absent] at again
          cases again
        refine place.same ((Function.update_of_ne apart ..).trans ?_)
        exact congrFun streams url
  | @relayed st st' media cs pkt writes found phase accepted =>
      obtain ⟨_, demux, _, rfl, _⟩ := RtmpStream.send_ok accepted
      refine place.put (u := (srv.sessions x).url) rfl ?_
      intro old again inside
      rw [found] at again
      cases again
      exact ⟨Table.mem_mapValues.mpr inside, id⟩

end Server

theorem Server.Place.acts {srv srv' : Server} {t x : SessionId} {url : Bytes} {publisher : Prop}
    {may : Grants} (other : t ≠ x) (spared : ¬ may.release url)
    (acts : Server.Acts may x srv srv') (place : srv.Place t url publisher) :
    srv'.Place t url publisher :=
  Server.Acts.invariant (P := fun srv => srv.Place t url publisher)
    (fun _ _ place act => Server.Place.act other spared place act) acts place

/-- Whatever a session does, no other session loses its place in a registered stream, except by a
    `releaseStream` that names the stream. -/
theorem place_kept (recordForce : Bool) (labels : List Label) (l : Label) (t : SessionId)
    (other : t ≠ l.session) (url : Bytes)
    (spared : ¬ (((machine recordForce).run labels).grants l).release url) :
    (∀ st, ((machine recordForce).run labels).server.streams url = some st → t ∈ st.peers →
      ∃ st', ((machine recordForce).run (labels ++ [l])).server.streams url = some st' ∧
        t ∈ st'.peers) ∧
    ∀ st, ((machine recordForce).run labels).server.streams url = some st →
      st.publisher = some t →
      ∃ st', ((machine recordForce).run (labels ++ [l])).server.streams url = some st' ∧
        st'.publisher = some t := by
  have reached := Machine.Reachable.run (machine recordForce) labels
  rw [Machine.run_snoc]
  generalize (machine recordForce).run labels = host at reached spared ⊢
  have allowed : ¬ (host.closingGrants l).release url := spared
  have kept : ∀ publisher, host.server.Place t url publisher →
      (host.step l).server.Place t url publisher := fun _ place =>
    Server.Place.acts other allowed (host.step_acts_close l) place
  constructor
  · intro st found inside
    obtain ⟨st', found', inside', _⟩ := kept False ⟨st, found, inside, False.elim⟩
    exact ⟨st', found', inside'⟩
  · intro st found host
    have inside := ((Registry.reachable reached).sound found).hosted t host
    obtain ⟨st', found', _, still⟩ := kept True ⟨st, found, inside, fun _ => host⟩
    exact ⟨st', found', still trivial⟩

/-- One session publishes `live/1`; another one only names that url. -/
def publishedAndNamed : List Label :=
  Peer.enter 1 "live" ++ Peer.deliver 1 (Peer.publish "1" "live") ++
    Peer.enter 2 "live" ++ Peer.deliver 2 (Peer.named "FCPublish" "1")

set_option maxRecDepth 4000 in
/-- Closing the second session leaves the publisher in place. -/
theorem place_kept_publishedAndNamed :
    ∃ st, ((machine false).run (publishedAndNamed ++ [.close 2])).server.streams
      (ascii "live/1") = some st ∧ st.publisher = some 1 := by
  have published : (((machine false).run publishedAndNamed).server.streams
      (ascii "live/1")).map (·.publisher) = some (some 1) := by decide +kernel
  obtain ⟨st, found, host⟩ := Option.map_eq_some_iff.mp published
  exact (place_kept false publishedAndNamed (.close 2) 1 (by decide) (ascii "live/1") id).2 st
    found host

set_option maxRecDepth 4000 in
/-- A session that has published nothing releases another session's stream: the stream is gone, and
    with it the publisher's place. -/
theorem place_lost_by_releaseStream :
    ¬ ∀ (labels : List Label) (l : Label) (t : SessionId), t ≠ l.session →
      ∀ url st, ((machine false).run labels).server.streams url = some st →
        st.publisher = some t →
        ∃ st', ((machine false).run (labels ++ [l])).server.streams url = some st' ∧
          st'.publisher = some t := by
  intro all
  obtain ⟨published, gone⟩ : (((machine false).run (publishedAndNamed ++
        [.receive 2 (Peer.named "releaseStream" "1"), .parse 2])).server.streams
          (ascii "live/1")).map (·.publisher) = some (some 1) ∧
      (((machine false).run (publishedAndNamed ++
        [.receive 2 (Peer.named "releaseStream" "1"), .parse 2] ++ [.dispatch 2 Peer.env])
          ).server.streams (ascii "live/1")).isNone := by
    decide +kernel
  have gone := Option.isNone_iff_eq_none.mp gone
  obtain ⟨st, found, host⟩ := Option.map_eq_some_iff.mp published
  obtain ⟨st', still, _⟩ := all _ (.dispatch 2 Peer.env) 1 (by decide) _ st found host
  rw [gone] at still
  cases still

namespace Server

/-- The session is in no registered stream. -/
def Gone (srv : Server) (x : SessionId) : Prop := ∀ url st, srv.streams url = some st → x ∉ st.peers

/-- The only registered stream the session may be in is the one its url names. -/
def Settled (srv : Server) (x : SessionId) : Prop :=
  ∀ url st, srv.streams url = some st → x ∈ st.peers → url = (srv.sessions x).url

/-- No closed session is in a registered stream. -/
def NoDead (srv : Server) : Prop := ∀ y, (srv.sessions y).state = .close → srv.Gone y

theorem Gone.fewer {srv srv' : Server} {y : SessionId} {url : Bytes} {new : Option RtmpStream}
    (gone : srv.Gone y) (streams : srv'.streams = Function.update srv.streams url new)
    (outside : ∀ st, new = some st → y ∉ st.peers) : srv'.Gone y := by
  intro u st found
  rw [streams] at found
  by_cases same : u = url
  · rw [same, Function.update_self] at found
    exact outside st found
  · rw [Function.update_of_ne same] at found
    exact gone u st found

theorem Gone.act {srv srv' : Server} {x y : SessionId} {may : Grants} (gone : srv.Gone y)
    (away : (srv.sessions y).state ≠ .publishPlay) (act : Act may x srv srv') : srv'.Gone y := by
  cases act with
  | wrote quiet =>
      intro url st found
      rw [quiet_streams quiet] at found
      exact gone url st found
  | note | own | advanced | closed | crashed => exact gone
  | released => exact gone.fewer rfl fun _ none => by cases none
  | @departed st found =>
      refine gone.fewer rfl fun st' stays => ?_
      split at stays
      · cases stays
      · cases stays
        exact fun inside => gone _ st found (RtmpStream.mem_leave.mp inside).2
  | @entered srv₁ st asked found phase =>
      have other : y ≠ x := by
        rintro rfl
        exact away phase
      have ⟨outside, streams⟩ : y ∉ st.peers ∧ srv₁.streams = srv.streams := by
        obtain ⟨found, rfl⟩ | ⟨_, _, _, _, empty, _, _, streams, _⟩ := findStream_ok found
        · exact ⟨gone _ st found, rfl⟩
        · exact ⟨empty ▸ Table.not_mem_empty y, streams⟩
      refine gone.fewer (joined_streams streams x _ st asked) fun st' joined inside => ?_
      cases joined
      exact (RtmpStream.mem_join inside).elim other outside
  | relayed found phase accepted =>
      obtain ⟨_, demux, _, rfl, _⟩ := RtmpStream.send_ok accepted
      refine gone.fewer rfl fun st' stays => ?_
      cases stays
      exact fun inside => gone _ _ found (Table.mem_mapValues.mp inside)

/-- An act other than closing lets no closed session into a stream, and closes none. -/
theorem NoDead.act {srv srv' : Server} {x : SessionId} {may : Grants} (may_not : ¬ may.close)
    (dead : srv.NoDead) (act : Act may x srv srv') : srv'.NoDead := by
  have before : ∀ y, (srv'.sessions y).state = .close → (srv.sessions y).state = .close := by
    intro y closed
    by_cases self : y = x
    · subst self
      have moves := act.moves
      rw [closed] at moves
      generalize (srv.sessions y).state = state at moves ⊢
      cases moves with
      | stay => rfl
      | advance phase => cases phase
      | close allowed => exact absurd allowed may_not
    · have same := congrArg RtmpSession.state (act.other self)
      exact same.symm.trans closed
  exact fun y closed => (dead y (before y closed)).act (by rw [before y closed]; decide) act

theorem NoDead.acts {srv srv' : Server} {x : SessionId} {may : Grants} (may_not : ¬ may.close)
    (acts : Acts may x srv srv') (dead : srv.NoDead) : srv'.NoDead :=
  Acts.invariant (P := NoDead) (fun _ _ dead act => NoDead.act may_not dead act) acts dead

/-- The registry once the session has left the stream its url names. -/
def streamsWithout (srv : Server) (x : SessionId) : Bytes → Option RtmpStream :=
  match srv.streams (srv.sessions x).url with
  | none => srv.streams
  | some st => Function.update srv.streams (srv.sessions x).url
      (if (st.leave x).count = 0 then none else some (st.leave x))

theorem streamsWithout_none {srv : Server} {x : SessionId}
    (absent : srv.streams (srv.sessions x).url = none) : srv.streamsWithout x = srv.streams := by
  rw [streamsWithout, absent]

theorem streamsWithout_some {srv : Server} {x : SessionId} {st : RtmpStream}
    (found : srv.streams (srv.sessions x).url = some st) :
    srv.streamsWithout x = Function.update srv.streams (srv.sessions x).url
      (if (st.leave x).count = 0 then none else some (st.leave x)) := by
  rw [streamsWithout, found]

theorem streamsWithout_other (srv : Server) {x : SessionId} {url : Bytes}
    (other : url ≠ (srv.sessions x).url) : srv.streamsWithout x url = srv.streams url := by
  cases found : srv.streams (srv.sessions x).url with
  | none => rw [streamsWithout_none found]
  | some st => rw [streamsWithout_some found, Function.update_of_ne other]

theorem streamsWithout_mem {srv : Server} {x y : SessionId} {url : Bytes} {st' : RtmpStream}
    (found : srv.streamsWithout x url = some st') (inside : y ∈ st'.peers) :
    (∃ st, srv.streams url = some st ∧ y ∈ st.peers) ∧ (y = x → url ≠ (srv.sessions x).url) := by
  by_cases same : url = (srv.sessions x).url
  · subst same
    cases present : srv.streams (srv.sessions x).url with
    | none =>
        rw [streamsWithout_none present, present] at found
        cases found
    | some st =>
        rw [streamsWithout_some present, Function.update_self] at found
        split at found
        · cases found
        · cases found
          obtain ⟨other, inside⟩ := RtmpStream.mem_leave.mp inside
          exact ⟨⟨st, rfl, inside⟩, fun self => absurd self other⟩
  · rw [streamsWithout_other srv same] at found
    exact ⟨⟨st', found, inside⟩, fun _ => same⟩

theorem close_cases {srv : Server} {x : SessionId} (opened : (srv.sessions x).isOpen) :
    ((srv.close x).crashed.isSome ∧ (srv.close x).streams = srv.streams ∧
      ∀ y, ((srv.close x).sessions y).state = (srv.sessions y).state) ∨
    ((srv.close x).streams = srv.streamsWithout x ∧
      ∀ y, y ≠ x → ((srv.close x).sessions y).state = (srv.sessions y).state) := by
  unfold close
  rw [if_pos opened]
  simp only
  generalize shut : srv.set x { srv.sessions x with isOpen := false } = srv₀
  have streams : srv₀.streams = srv.streams := by rw [← shut]; rfl
  have url : (srv₀.sessions x).url = (srv.sessions x).url := by
    rw [← shut, set_sessions]
  have states : ∀ y, (srv₀.sessions y).state = (srv.sessions y).state := by
    intro y
    rw [← shut]
    by_cases self : y = x
    · subst self
      rw [set_sessions]
    · rw [set_other _ _ self]
  split
  · next srv₁ closed =>
      obtain ⟨srv₂, leaving, closed⟩ := bind_ok.mp closed
      cases closed
      refine .inr ⟨?_, fun y other => ?_⟩
      · obtain ⟨absent, rfl⟩ | ⟨st, found, same⟩ := leaveStream_quiet leaving
        · rw [url, streams] at absent
          rw [streamsWithout_none absent]
          exact streams
        · rw [url, streams] at found
          rw [streamsWithout_some found]
          refine (quiet_streams same).trans ?_
          simp only [left, url, streams]
      · rw [set_other _ _ other, ← states y]
        obtain ⟨_, rfl⟩ | ⟨st, _, same⟩ := leaveStream_quiet leaving
        · rfl
        · exact quiet_state same y
  · exact .inl ⟨rfl, streams, states⟩

/-- Closing that returns takes a session out of every stream exactly when it was in none but the
    one its url names. -/
theorem close_gone {srv : Server} {x : SessionId} (opened : (srv.sessions x).isOpen)
    (returned : (srv.close x).crashed = none) : (srv.close x).Gone x ↔ srv.Settled x := by
  obtain ⟨crashed, _⟩ | ⟨streams, _⟩ := close_cases opened
  · rw [returned] at crashed
    cases crashed
  unfold Gone
  rw [streams]
  constructor
  · intro gone url st found inside
    by_contra other
    exact gone url st ((streamsWithout_other srv other).trans found) inside
  · intro settled url st' found inside
    obtain ⟨⟨st, present, before⟩, other⟩ := streamsWithout_mem found inside
    exact other rfl (settled url st present before)

theorem NoDead.close {srv : Server} {x : SessionId} (dead : srv.NoDead)
    (settled : (srv.sessions x).isOpen → srv.Settled x) : (srv.close x).NoDead := by
  by_cases opened : (srv.sessions x).isOpen
  · intro y closed url st' found inside
    obtain ⟨_, streams, states⟩ | ⟨streams, states⟩ := close_cases opened <;>
      rw [streams] at found
    · exact dead y (states y ▸ closed) url st' found inside
    · obtain ⟨⟨st, present, before⟩, other⟩ := streamsWithout_mem found inside
      by_cases self : y = x
      · subst self
        exact other rfl (settled opened url st present before)
      · exact dead y (states y self ▸ closed) url st present before
  · unfold Server.close
    rwa [if_neg opened]

end Server

namespace Host

/-- If the step closes its session, that session is in no stream but the one its url names. -/
def Settles (host : Host) : Label → Prop
  | .close x => (host.server.sessions x).isOpen → host.server.Settled x
  | .dispatch x _ => host.Ready x → host.server.Refused x → host.server.Settled x
  | _ => True

/-- A session that is in the stream its url names is in no other. -/
theorem settled_at_home {recordForce : Bool} {host : Host}
    (reached : (machine recordForce).Reachable host) {x : SessionId} {st : RtmpStream}
    (found : host.server.streams (host.server.sessions x).url = some st) (inside : x ∈ st.peers) :
    host.server.Settled x :=
  fun _ _ found' inside' => (Registry.reachable reached).single found' found inside' inside

/-- A step that refuses no message, and closes no session but at home. -/
def AtHome (host : Host) : Label → Prop
  | .close x => (host.server.streams (host.server.sessions x).url).any fun st => x ∈ st.peers
  | .dispatch x _ => ¬ host.server.Refused x
  | _ => True

instance (host : Host) (l : Label) : Decidable (host.AtHome l) :=
  match l with
  | .close _ => inferInstanceAs (Decidable (_ = true))
  | .dispatch _ _ => inferInstanceAs (Decidable (¬ _))
  | .accept _ | .receive _ _ | .shake _ _ | .parse _ => .isTrue trivial

theorem AtHome.settles {recordForce : Bool} (host : Host) (l : Label)
    (reached : (machine recordForce).Reachable host) (home : host.AtHome l) : host.Settles l := by
  cases l with
  | close x =>
      intro _
      obtain ⟨st, found, inside⟩ := Option.any_eq_true _ _ |>.mp home
      exact settled_at_home reached found (of_decide_eq_true inside)
  | dispatch x env => exact fun _ refused => absurd refused home
  | accept | receive | shake | parse => trivial

theorem NoDead.step {recordForce : Bool} {host : Host} (reached : (machine recordForce).Reachable host)
    {l : Label} (settles : host.Settles l) (dead : host.server.NoDead) :
    (host.step l).server.NoDead := by
  obtain ⟨srv, acts, done⟩ := host.step_acts l
  have may_not : ¬ (host.grants l).close := by
    cases l <;> exact id
  have still := Server.NoDead.acts may_not acts dead
  obtain done | ⟨done, closes⟩ := done <;> rw [done]
  · exact still
  cases closes with
  | broken x => exact dead.close settles
  | refused ready refused streams url =>
      refine still.close fun _ u st found inside => ?_
      rw [streams] at found
      exact (settles ready refused u st found inside).trans url.symm
  | @shaking x env srv state streams =>
      refine still.close fun _ u st found inside => ?_
      rw [streams] at found
      have entered := (Registry.reachable reached).entered found inside
      rcases state with state | state <;> rcases entered with entered | entered <;>
        exact absurd (state.symm.trans entered) (by decide)
  | @unreadable x s rest srv read =>
      exact absurd rfl (RtmpSession.readChunkStream_accepts (type_fits reached x) read).1

theorem NoDead.run {recordForce : Bool} {labels : List Label}
    (settles : (machine recordForce).Steps Settles labels) :
    ((machine recordForce).run labels).server.NoDead := by
  have start : (machine recordForce).start.server.NoDead := by
    intro y closed
    cases closed
  exact Machine.Steps.run (I := fun host => host.server.NoDead) start
    (fun _ _ reached dead settles => NoDead.step reached settles dead) settles

theorem nobody {recordForce : Bool} {host : Host} (reached : (machine recordForce).Reachable host)
    {y : SessionId} (gone : host.server.Gone y) {url : Bytes} {st : RtmpStream}
    (found : host.server.streams url = some st) : y ∉ st.peers ∧ st.publisher ≠ some y :=
  ⟨gone url st found, fun host' =>
    gone url st found (((Registry.reachable reached).sound found).hosted y host')⟩

end Host

/-- In a run in which every session that is closed is at that moment in no stream but the one its
    url names, no closed session is a peer or the publisher of a registered stream. And in any
    state, closing a session rids all streams of it exactly when it is so. -/
theorem no_dead_peers (recordForce : Bool) (labels : List Label) :
    ((machine recordForce).Steps Host.Settles labels →
      (machine recordForce).Always (fun host => ∀ y, (host.server.sessions y).state = .close →
        ∀ url st, host.server.streams url = some st →
          y ∉ st.peers ∧ st.publisher ≠ some y) labels) ∧
    ∀ x, (((machine recordForce).run labels).server.sessions x).isOpen →
      ((machine recordForce).run (labels ++ [.close x])).server.crashed = none →
      ((∀ url st, ((machine recordForce).run (labels ++ [.close x])).server.streams url = some st →
        x ∉ st.peers ∧ st.publisher ≠ some x) ↔
        ((machine recordForce).run labels).server.Settled x) := by
  constructor
  · intro settles done before y closed url st found
    have reached := Machine.Reachable.run (machine recordForce) done
    have steps : (machine recordForce).Steps Host.Settles done :=
      fun done' l inside => settles done' l (inside.trans before)
    exact Host.nobody reached (Host.NoDead.run steps y closed) found
  · intro x opened returned
    have reached := Machine.Reachable.run (machine recordForce) (labels ++ [.close x])
    rw [Machine.run_snoc] at returned reached ⊢
    generalize (machine recordForce).run labels = host at opened returned reached ⊢
    have running : host.server.crashed = none := by
      by_contra stopped
      have same : (machine recordForce).step host (.close x) = host := if_neg stopped
      rw [same] at returned
      exact stopped returned
    have closed : (machine recordForce).step host (.close x) = host.close x := if_pos running
    rw [closed] at returned reached ⊢
    refine Iff.trans ?_ (Server.close_gone opened returned)
    exact ⟨fun outside url st found => (outside url st found).1,
      fun gone url st found => Host.nobody reached gone found⟩

set_option maxRecDepth 4000 in
/-- A publisher that keeps its url and is closed leaves its name free. -/
theorem no_dead_peers_publisher :
    (machine false).Always (fun host => ∀ y, (host.server.sessions y).state = .close →
        ∀ url st, host.server.streams url = some st → y ∉ st.peers ∧ st.publisher ≠ some y)
      (Peer.enter 1 "live" ++ Peer.deliver 1 (Peer.publish "1" "live") ++ [.close 1]) ∧
    (((machine false).run (Peer.enter 1 "live" ++ Peer.deliver 1 (Peer.publish "1" "live") ++
      [.close 1])).server.sessions 1).state = .close := by
  obtain ⟨home, closed⟩ : (machine false).Checks Host.AtHome (machine false).start
        (Peer.enter 1 "live" ++ Peer.deliver 1 (Peer.publish "1" "live") ++ [.close 1]) ∧
      (((machine false).run (Peer.enter 1 "live" ++ Peer.deliver 1 (Peer.publish "1" "live") ++
        [.close 1])).server.sessions 1).state = .close := by
    decide +kernel
  have settles := (Machine.Checks.steps home).mono Host.AtHome.settles
  exact ⟨(no_dead_peers false _).1 settles, closed⟩

/-- A publisher names another stream by FCPublish, and its connection breaks. -/
def renamedAndClosed : List Label :=
  Peer.enter 1 "live" ++ Peer.deliver 1 (Peer.publish "1" "live") ++
    Peer.deliver 1 (Peer.named "FCPublish" "2") ++ [.close 1]

set_option maxRecDepth 4000 in
/-- It remains the publisher. -/
theorem dead_peer_after_FCPublish :
    ¬ ∀ (labels : List Label) (y : SessionId),
      (((machine false).run labels).server.sessions y).state = .close →
      ∀ url st, ((machine false).run labels).server.streams url = some st →
        y ∉ st.peers ∧ st.publisher ≠ some y := by
  intro all
  obtain ⟨closed, dead⟩ :
      (((machine false).run renamedAndClosed).server.sessions 1).state = .close ∧
        (((machine false).run renamedAndClosed).server.streams (ascii "live/1")).map (·.publisher) =
          some (some 1) := by
    decide +kernel
  obtain ⟨st, found, host⟩ := Option.map_eq_some_iff.mp dead
  exact (all _ 1 closed _ st found).2 host

end DroneServer
