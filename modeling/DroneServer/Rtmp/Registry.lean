import DroneServer.Rtmp.Act

/-! # The stream registry

`Registry` is what holds of `streams_` in every reachable state. It is kept by
every act: an act changes at most one entry, and the only one that adds a peer
belongs to a session that has just left the state in which it may join.
-/

namespace DroneServer

/-- A session that has joined a stream, or might have before it was closed. -/
def RtmpSession.Entered (s : RtmpSession) : Prop := s.state = .mediaTransfer ∨ s.state = .close

/-- What holds of a registered stream on its own. -/
structure RtmpStream.Sound (st : RtmpStream) (url : Bytes) : Prop where
  named : st.url = url
  inhabited : ∃ y, y ∈ st.peers
  hosted : ∀ y, st.publisher = some y → y ∈ st.peers

structure Registry (srv : Server) : Prop where
  sound : ∀ {url st}, srv.streams url = some st → st.Sound url
  entered : ∀ {url st y}, srv.streams url = some st → y ∈ st.peers → (srv.sessions y).Entered
  single : ∀ {url url' st st' y}, srv.streams url = some st → srv.streams url' = some st' →
    y ∈ st.peers → y ∈ st'.peers → url = url'
  fresh : ∀ {url st}, srv.streams url = some st → st.ref < srv.nextRef
  distinct : ∀ {url url' st st'}, srv.streams url = some st → srv.streams url' = some st' →
    st.ref = st'.ref → url = url'

namespace Registry

open Server

variable {srv srv' : Server}

theorem same (reg : Registry srv) (streams : srv'.streams = srv.streams)
    (nextRef : srv'.nextRef = srv.nextRef)
    (kept : ∀ y, (srv.sessions y).Entered → (srv'.sessions y).Entered) : Registry srv' where
  sound found := reg.sound (streams ▸ found)
  entered found inside := kept _ (reg.entered (streams ▸ found) inside)
  single left right := reg.single (streams ▸ left) (streams ▸ right)
  fresh found := nextRef ▸ reg.fresh (streams ▸ found)
  distinct left right := reg.distinct (streams ▸ left) (streams ▸ right)

theorem erase (reg : Registry srv) {url : Bytes}
    (streams : srv'.streams = Function.update srv.streams url none)
    (nextRef : srv'.nextRef = srv.nextRef)
    (kept : ∀ y, (srv.sessions y).Entered → (srv'.sessions y).Entered) : Registry srv' := by
  have old : ∀ {u st}, srv'.streams u = some st → srv.streams u = some st := by
    intro u st found
    rw [streams] at found
    by_cases same : u = url
    · rw [same, Function.update_self] at found
      cases found
    · rwa [Function.update_of_ne same] at found
  exact {
    sound := fun found => reg.sound (old found)
    entered := fun found inside => kept _ (reg.entered (old found) inside)
    single := fun left right => reg.single (old left) (old right)
    fresh := fun found => nextRef ▸ reg.fresh (old found)
    distinct := fun left right => reg.distinct (old left) (old right) }

theorem put (reg : Registry srv) {url : Bytes} {st : RtmpStream}
    (streams : srv'.streams = Function.update srv.streams url (some st)) (sound : st.Sound url)
    (members : ∀ y, y ∈ st.peers → (srv'.sessions y).Entered ∧
      ∀ u other, u ≠ url → srv.streams u = some other → y ∉ other.peers)
    (ref : st.ref < srv'.nextRef ∧
      ∀ u other, u ≠ url → srv.streams u = some other → other.ref ≠ st.ref)
    (later : srv.nextRef ≤ srv'.nextRef)
    (kept : ∀ y, (srv.sessions y).Entered → (srv'.sessions y).Entered) : Registry srv' := by
  have cases_of : ∀ {u other}, srv'.streams u = some other →
      (u = url ∧ other = st) ∨ (u ≠ url ∧ srv.streams u = some other) := by
    intro u other found
    rw [streams] at found
    by_cases same : u = url
    · rw [same, Function.update_self] at found
      exact .inl ⟨same, (Option.some.inj found).symm⟩
    · rw [Function.update_of_ne same] at found
      exact .inr ⟨same, found⟩
  constructor
  case sound =>
    intro u other found
    obtain ⟨rfl, rfl⟩ | ⟨_, old⟩ := cases_of found
    · exact sound
    · exact reg.sound old
  case entered =>
    intro u other y found inside
    obtain ⟨rfl, rfl⟩ | ⟨_, old⟩ := cases_of found
    · exact (members y inside).1
    · exact kept y (reg.entered old inside)
  case single =>
    intro u v left right y found found' inside inside'
    obtain ⟨rfl, rfl⟩ | ⟨apart, old⟩ := cases_of found
    · obtain ⟨rfl, _⟩ | ⟨apart, old'⟩ := cases_of found'
      · rfl
      · exact absurd inside' ((members y inside).2 v right apart old')
    · obtain ⟨rfl, rfl⟩ | ⟨_, old'⟩ := cases_of found'
      · exact absurd inside ((members y inside').2 u left apart old)
      · exact reg.single old old' inside inside'
  case fresh =>
    intro u other found
    obtain ⟨rfl, rfl⟩ | ⟨_, old⟩ := cases_of found
    · exact ref.1
    · exact (reg.fresh old).trans_le later
  case distinct =>
    intro u v left right found found' same
    obtain ⟨rfl, rfl⟩ | ⟨apart, old⟩ := cases_of found
    · obtain ⟨rfl, _⟩ | ⟨apart, old'⟩ := cases_of found'
      · rfl
      · exact absurd same.symm (ref.2 v right apart old')
    · obtain ⟨rfl, rfl⟩ | ⟨_, old'⟩ := cases_of found'
      · exact absurd same (ref.2 u left apart old)
      · exact reg.distinct old old' same

theorem replace (reg : Registry srv) {url : Bytes} {st st' : RtmpStream}
    (found : srv.streams url = some st)
    (streams : srv'.streams = Function.update srv.streams url (some st')) (sound : st'.Sound url)
    (fewer : ∀ y, y ∈ st'.peers → y ∈ st.peers) (ref : st'.ref = st.ref)
    (nextRef : srv'.nextRef = srv.nextRef)
    (kept : ∀ y, (srv.sessions y).Entered → (srv'.sessions y).Entered) : Registry srv' := by
  refine reg.put streams sound (fun y inside => ?_) ⟨?_, ?_⟩ (le_of_eq nextRef.symm) kept
  · have before := fewer y inside
    exact ⟨kept y (reg.entered found before),
      fun u other apart old again => apart (reg.single old found again before)⟩
  · rw [ref, nextRef]
    exact reg.fresh found
  · intro u other apart old same
    exact apart (reg.distinct old found (same.trans ref))

/-- What joining may rest on, whether the stream was registered or has just been made. -/
theorem findStream_sound (reg : Registry srv) {url : Bytes} {st : RtmpStream} {srv₁ : Server}
    (done : srv.findStream url = .ok (st, srv₁)) :
    (st.url = url ∧ (∀ y, st.publisher = some y → y ∈ st.peers)) ∧
      (∀ y, y ∈ st.peers → (srv.sessions y).Entered ∧
        ∀ u other, u ≠ url → srv.streams u = some other → y ∉ other.peers) ∧
      (st.ref < srv₁.nextRef ∧
        ∀ u other, u ≠ url → srv.streams u = some other → other.ref ≠ st.ref) ∧
      srv.nextRef ≤ srv₁.nextRef ∧ srv₁.streams = srv.streams ∧ srv₁.sessions = srv.sessions ∧
        srv₁.log = srv.log := by
  obtain ⟨found, rfl⟩ | ⟨_, named, ref, nobody, empty, _, next, streams, sessions, log⟩ :=
    findStream_ok done
  · have sound := reg.sound found
    refine ⟨⟨sound.named, sound.hosted⟩, fun y inside => ⟨reg.entered found inside, ?_⟩,
      ⟨reg.fresh found, ?_⟩, le_refl _, rfl, rfl, rfl⟩
    · exact fun u other apart old again => apart (reg.single old found again inside)
    · exact fun u other apart old same => apart (reg.distinct old found same)
  · refine ⟨⟨named, ?_⟩, ?_, ⟨?_, ?_⟩, ?_, streams, sessions, log⟩
    · rw [nobody]
      simp
    · rw [empty]
      exact fun y inside => absurd inside (Table.not_mem_empty y)
    · omega
    · intro u other _ old same
      have := reg.fresh old
      omega
    · omega

theorem joined (reg : Registry srv) {x : SessionId} {url : Bytes} {st : RtmpStream} {srv₁ : Server}
    (found : srv.findStream url = .ok (st, srv₁)) (publisher : Bool)
    (phase : (srv.sessions x).state = .publishPlay) :
    Registry (srv₁.joined x url st publisher) := by
  obtain ⟨⟨named, hosted⟩, members, ref, later, streams, sessions, _⟩ := reg.findStream_sound found
  have outside : ∀ u other, srv.streams u = some other → x ∉ other.peers := by
    intro u other old inside
    rcases reg.entered old inside with state | state <;> rw [phase] at state <;> cases state
  have now : ((srv₁.joined x url st publisher).sessions x).state = .mediaTransfer := by
    simp only [Server.joined, emits, set_sessions]
  have before : ∀ y, y ≠ x → (srv₁.joined x url st publisher).sessions y = srv.sessions y := by
    intro y other
    simp only [Server.joined, emits, set_other _ _ other, setStream, sessions]
  have kept : ∀ y, (srv.sessions y).Entered →
      ((srv₁.joined x url st publisher).sessions y).Entered := by
    intro y entered
    by_cases self : y = x
    · exact .inl (self ▸ now)
    · rwa [before y self]
  refine reg.put (joined_streams streams x url st publisher) ⟨?_, ?_, ?_⟩
    (fun y inside => ⟨?_, ?_⟩) ⟨?_, ?_⟩ later kept
  · rw [RtmpStream.join_url, named]
  · obtain ⟨same, _, taken⟩ | ⟨_, _, same⟩ := st.join_cases x publisher
    · obtain ⟨y, host⟩ := Option.isSome_iff_exists.mp taken
      exact ⟨y, by rw [same]; exact hosted y host⟩
    · exact ⟨x, by rw [same]; exact Table.mem_insertNew.mpr (.inl rfl)⟩
  · intro y host
    obtain ⟨same, _⟩ | ⟨_, _, same⟩ := st.join_cases x publisher <;> rw [same] at host ⊢
    · exact hosted y host
    · refine Table.mem_insertNew.mpr ?_
      split at host
      · exact .inl (Option.some.inj host).symm
      · exact .inr (hosted y host)
  · rcases RtmpStream.mem_join inside with rfl | inside
    · exact .inl now
    · exact kept y (members y inside).1
  · intro u other apart old
    rcases RtmpStream.mem_join inside with rfl | inside
    · exact outside u other old
    · exact (members y inside).2 u other apart old
  · rw [RtmpStream.join_ref]
    exact ref.1
  · rw [RtmpStream.join_ref]
    exact ref.2

theorem left (reg : Registry srv) {x : SessionId} {url : Bytes} {st : RtmpStream}
    (found : srv.streams url = some st) : Registry (srv.left url st x) := by
  by_cases last : (st.leave x).count = 0
  · have gone : (srv.left url st x).streams = Function.update srv.streams url none := by
      rw [Server.left, if_pos last]
    exact reg.erase gone rfl fun _ => id
  · have sound := reg.sound found
    have still : (st.leave x).Sound url := by
      refine ⟨sound.named, ?_, ?_⟩
      · by_contra nobody
        exact last (Table.count_eq_zero.mpr (not_exists.mp nobody))
      · intro y host
        obtain ⟨other, host⟩ := RtmpStream.leave_publisher.mp host
        exact RtmpStream.mem_leave.mpr ⟨other, sound.hosted y host⟩
    exact reg.replace found (by rw [Server.left, if_neg last]) still
      (fun y inside => (RtmpStream.mem_leave.mp inside).2) rfl rfl fun _ => id

/-- Every act keeps the registry. -/
theorem act (reg : Registry srv) {may : Grants} {x : SessionId} (act : Act may x srv srv') :
    Registry srv' := by
  cases act with
  | wrote quiet =>
      refine reg.same (quiet_streams quiet) (quiet_agree quiet nextRef fun _ => rfl) fun y => ?_
      rw [RtmpSession.Entered, RtmpSession.Entered, quiet_state quiet]
      exact id
  | note => exact reg.same rfl rfl fun _ => id
  | @own s state =>
      refine reg.same rfl rfl fun y entered => ?_
      by_cases self : y = x
      · subst self
        rwa [set_sessions, RtmpSession.Entered, state]
      · rwa [set_other _ _ self]
  | @advanced s es phase =>
      refine reg.same rfl rfl fun y entered => ?_
      have other : y ≠ x := by
        rintro rfl
        rcases entered with state | state <;> rw [state] at phase <;> cases phase
      simpa only [emits, set_other _ _ other] using entered
  | released => exact reg.erase rfl rfl fun _ => id
  | departed found => exact reg.left found
  | closed _ =>
      refine reg.same rfl rfl fun y entered => ?_
      by_cases self : y = x
      · subst self
        rw [set_sessions]
        exact .inr rfl
      · rwa [set_other _ _ self]
  | entered publisher found phase => exact reg.joined found publisher phase
  | relayed found phase accepted =>
      obtain ⟨_, demux, _, rfl, _⟩ := RtmpStream.send_ok accepted
      have sound := reg.sound found
      refine reg.replace found rfl ⟨sound.named, ?_, ?_⟩ (fun y => Table.mem_mapValues.mp) rfl rfl
        fun _ => id
      · obtain ⟨y, inside⟩ := sound.inhabited
        exact ⟨y, Table.mem_mapValues.mpr inside⟩
      · exact fun y host => Table.mem_mapValues.mpr (sound.hosted y host)
  | crashed => exact reg.same rfl rfl fun _ => id

theorem empty {recordForce : Bool} : Registry { recordForce } := by
  constructor <;> intros <;> contradiction

theorem reachable {recordForce : Bool} {host : Host} (reached : (machine recordForce).Reachable host) :
    Registry host.server :=
  Reachable.of_acts empty (fun reg => reg.act) reached

end Registry

/-- In every state of every run, each registered stream is stored under its own url, has a peer, has
    its publisher among its peers, and shares no peer with another one. -/
theorem registry_invariant (recordForce : Bool) (labels : List Label) :
    (∀ url st, ((machine recordForce).run labels).server.streams url = some st →
      st.url = url ∧ (∃ y, y ∈ st.peers) ∧ ∀ y, st.publisher = some y → y ∈ st.peers) ∧
    ∀ url url' st st' y, ((machine recordForce).run labels).server.streams url = some st →
      ((machine recordForce).run labels).server.streams url' = some st' →
      y ∈ st.peers → y ∈ st'.peers → url = url' := by
  have reg := Registry.reachable (Machine.Reachable.run (machine recordForce) labels)
  constructor
  · intro url st found
    have sound := reg.sound found
    exact ⟨sound.named, sound.inhabited, sound.hosted⟩
  · intro url url' st st' y
    exact reg.single

end DroneServer
