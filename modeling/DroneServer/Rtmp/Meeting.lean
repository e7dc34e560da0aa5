import DroneServer.Rtmp.Membership
import DroneServer.Rtmp.Outcome

/-! # Whether a publisher and a player meet

`connect` stores the app a session names, and `play` looks a stream up under it.
`publish` looks it up under the publishing type instead. So a publisher and a
player that named the same app and stream are in one stream exactly when the
publishing type is the app as well.
-/

namespace DroneServer

/-- The fields a stream is looked up by, with the state that says which commands are handled. -/
def RtmpSession.names (s : RtmpSession) : SessionState × Bytes × Bytes := (s.state, s.app, s.url)

namespace Server

/-- What a session does with its stream. -/
inductive Target where
  | publish (name type : Bytes)
  | play (name : Bytes)
  deriving DecidableEq

/-- What the code looks the stream up by, for a session connected to `app`. -/
def Target.url (app : Bytes) : Target → Bytes
  | .publish name type => urlOf type name
  | .play name => urlOf app name

def Target.publisher : Target → Bool
  | .publish _ _ => true
  | .play _ => false

/-- A command of a session that connects to `app`, creates a stream, and publishes or plays. -/
inductive Scripted (app : Bytes) (target : Target) (c : Command) : Prop where
  | connect (named : c.name = ascii "connect") (args : ConnectArgs c.args app)
  | createStream (named : c.name = ascii "createStream")
  | publish {name type : Bytes} (asked : target = .publish name type)
      (named : c.name = ascii "publish") (args : PublishArgs c.args name type)
  | play {name : Bytes} (asked : target = .play name) (named : c.name = ascii "play")
      (args : NameArgs c.args name)

/-- The characters of a value that is a string. -/
def stringValue : Option Amf0Data → Option Bytes
  | some (.string s) => some s
  | _ => none

theorem stringValue_eq {value : Option Amf0Data} {s : Bytes} :
    stringValue value = some s ↔ value = some (.string s) := by
  unfold stringValue
  split
  · simp
  · next other =>
      constructor
      · intro none
        cases none
      · exact fun found => absurd found (other s)

instance (sb : SimpleBuffer) (app : Bytes) : Decidable (ConnectArgs sb app) :=
  match read : Amf0Data.readObject (Amf0Data.readFuel sb) sb with
  | .ok (ret, co, rest) =>
      decidable_of_iff (stringValue (Amf0Properties.valueAt co (ascii "app")) = some app) <| by
        rw [stringValue_eq]
        constructor
        · exact fun named => ⟨ret, co, rest, read, named⟩
        · rintro ⟨_, _, _, again, named⟩
          cases read.symm.trans again
          exact named
  | .error _ => .isFalse <| by
      rintro ⟨_, _, _, again, _⟩
      cases read.symm.trans again

instance (sb : SimpleBuffer) (cid : Bytes) : Decidable (NameArgs sb cid) :=
  match read : readName sb with
  | .ok (name, rest) =>
      decidable_of_iff (name = cid) <| by
        constructor
        · rintro rfl
          exact ⟨rest, read⟩
        · rintro ⟨_, again⟩
          cases read.symm.trans again
          rfl
  | .error _ => .isFalse <| by
      rintro ⟨_, again⟩
      cases read.symm.trans again

instance (sb : SimpleBuffer) (cid app : Bytes) : Decidable (PublishArgs sb cid app) :=
  match read : readName sb with
  | .ok (name, rest) =>
      match typed : Amf0Data.readString rest with
      | .ok (type, left) =>
          decidable_of_iff (name = cid ∧ app = type.getD []) <| by
            constructor
            · rintro ⟨rfl, rfl⟩
              exact ⟨rest, type, left, read, typed, rfl⟩
            · rintro ⟨_, _, _, again, again', rfl⟩
              cases read.symm.trans again
              cases typed.symm.trans again'
              exact ⟨rfl, rfl⟩
      | .error _ => .isFalse <| by
          rintro ⟨_, _, _, again, again', _⟩
          cases read.symm.trans again
          cases typed.symm.trans again'
  | .error _ => .isFalse <| by
      rintro ⟨_, _, _, again, _⟩
      cases read.symm.trans again

/-- What is left of the script's arguments once the command has its name. -/
def Target.Args (target : Target) (c : Command) : Prop :=
  match target with
  | .publish name type => c.name = ascii "publish" ∧ PublishArgs c.args name type
  | .play name => c.name = ascii "play" ∧ NameArgs c.args name

instance (target : Target) (c : Command) : Decidable (target.Args c) :=
  match target with
  | .publish _ _ => inferInstanceAs (Decidable (_ ∧ _))
  | .play _ => inferInstanceAs (Decidable (_ ∧ _))

instance (app : Bytes) (target : Target) (c : Command) : Decidable (Scripted app target c) :=
  decidable_of_iff ((c.name = ascii "connect" ∧ ConnectArgs c.args app) ∨
      c.name = ascii "createStream" ∨ target.Args c) <| by
    constructor
    · rintro (⟨named, args⟩ | named | args)
      · exact .connect named args
      · exact .createStream named
      · cases target with
        | publish => exact .publish rfl args.1 args.2
        | play => exact .play rfl args.1 args.2
    · rintro (⟨named, args⟩ | ⟨named⟩ | ⟨asked, named, args⟩ | ⟨asked, named, args⟩)
      · exact .inl ⟨named, args⟩
      · exact .inr (.inl named)
      · subst asked
        exact .inr (.inr ⟨named, args⟩)
      · subst asked
        exact .inr (.inr ⟨named, args⟩)

/-- What a step of a session that follows its script may change of the names and the registry. -/
inductive Moved (srv : Server) (z : SessionId) (app url : Bytes) (publisher : Bool)
    (srv' : Server) : Prop where
  | still (streams : srv'.streams = srv.streams)
      (names : (srv'.sessions z).names = (srv.sessions z).names)
  | early (streams : srv'.streams = srv.streams)
      (state : (srv'.sessions z).state = .handshakeC2 ∨ (srv'.sessions z).state = .connect)
  | connected (streams : srv'.streams = srv.streams)
      (state : (srv'.sessions z).state = .createStream) (named : (srv'.sessions z).app = app)
  | created (streams : srv'.streams = srv.streams) (phase : (srv.sessions z).state = .createStream)
      (state : (srv'.sessions z).state = .publishPlay)
      (same : (srv'.sessions z).app = (srv.sessions z).app)
  | joined {st : RtmpStream} (phase : (srv.sessions z).state = .publishPlay)
      (found : srv.streams url = some st ∨
        srv.streams url = none ∧ st.publisher = none ∧ st.peers = .empty)
      (streams : srv'.streams = Function.update srv.streams url (some (st.join z publisher).2))
      (state : (srv'.sessions z).state = .mediaTransfer) (named : (srv'.sessions z).url = url)
  | relayed {st st' : RtmpStream} (found : srv.streams (srv.sessions z).url = some st)
      (streams : srv'.streams = Function.update srv.streams (srv.sessions z).url (some st'))
      (peers : ∀ y, y ∈ st'.peers ↔ y ∈ st.peers) (host : st'.publisher = st.publisher)
      (names : (srv'.sessions z).names = (srv.sessions z).names)
  | closed (streams : srv'.streams = srv.streamsWithout z)
      (state : (srv'.sessions z).state = .close)

variable {srv srv₁ srv' : Server} {z : SessionId} {app url : Bytes} {publisher : Bool}

theorem streamsWithout_congr (streams : srv₁.streams = srv.streams)
    (names : (srv₁.sessions z).names = (srv.sessions z).names) :
    srv₁.streamsWithout z = srv.streamsWithout z := by
  have named : (srv₁.sessions z).url = (srv.sessions z).url := congrArg (·.2.2) names
  rw [streamsWithout, streamsWithout, streams, named]

theorem Moved.after (moved : srv₁.Moved z app url publisher srv')
    (streams : srv₁.streams = srv.streams)
    (names : (srv₁.sessions z).names = (srv.sessions z).names) : srv.Moved z app url publisher srv' := by
  have state : (srv₁.sessions z).state = (srv.sessions z).state := congrArg (·.1) names
  have named : (srv₁.sessions z).app = (srv.sessions z).app := congrArg (·.2.1) names
  have looked : (srv₁.sessions z).url = (srv.sessions z).url := congrArg (·.2.2) names
  cases moved with
  | still streams' names' => exact .still (streams'.trans streams) (names'.trans names)
  | early streams' state' => exact .early (streams'.trans streams) state'
  | connected streams' state' named' => exact .connected (streams'.trans streams) state' named'
  | created streams' phase state' same =>
      exact .created (streams'.trans streams) (state ▸ phase) state' (same.trans named)
  | joined phase found streams' state' named' =>
      rw [streams] at found streams'
      exact .joined (state ▸ phase) found streams' state' named'
  | relayed found streams' peers host names' =>
      rw [streams, looked] at found streams'
      exact .relayed found streams' peers host (names'.trans names)
  | closed streams' state' => exact .closed (streams'.trans (streamsWithout_congr streams names)) state'

theorem Moved.before {srv₂ : Server} (moved : srv.Moved z app url publisher srv₂)
    (streams : srv'.streams = srv₂.streams)
    (names : (srv'.sessions z).names = (srv₂.sessions z).names) : srv.Moved z app url publisher srv' := by
  have state : (srv'.sessions z).state = (srv₂.sessions z).state := congrArg (·.1) names
  have named : (srv'.sessions z).app = (srv₂.sessions z).app := congrArg (·.2.1) names
  have looked : (srv'.sessions z).url = (srv₂.sessions z).url := congrArg (·.2.2) names
  cases moved with
  | still streams' names' => exact .still (streams.trans streams') (names.trans names')
  | early streams' state' => exact .early (streams.trans streams') (by rwa [state])
  | connected streams' state' named' =>
      exact .connected (streams.trans streams') (state.trans state') (named.trans named')
  | created streams' phase state' same =>
      exact .created (streams.trans streams') phase (state.trans state') (named.trans same)
  | joined phase found streams' state' named' =>
      exact .joined phase found (streams.trans streams') (state.trans state')
        (looked.trans named')
  | relayed found streams' peers host names' =>
      exact .relayed found (streams.trans streams') peers host (names.trans names')
  | closed streams' state' => exact .closed (streams.trans streams') (state.trans state')

theorem quiet_names (same : srv'.quiet = srv.quiet) :
    (srv'.sessions z).names = (srv.sessions z).names :=
  quiet_agree same (fun srv => (srv.sessions z).names) fun _ => rfl

/-- Closing a session takes it out of the stream it names, or changes nothing that matters here. -/
theorem close_moved (srv : Server) (z : SessionId) :
    srv.Moved z app url publisher (srv.close z) := by
  unfold close
  split
  · simp only
    generalize shut : srv.set z { srv.sessions z with isOpen := false } = srv₀
    have streams : srv₀.streams = srv.streams := by
      rw [← shut]
      rfl
    have names : (srv₀.sessions z).names = (srv.sessions z).names := by
      rw [← shut, set_sessions]
      rfl
    split
    · next srv₁ closed =>
        obtain ⟨srv₂, leaving, closed⟩ := bind_ok.mp closed
        cases closed
        refine .closed ?_ (by rw [set_sessions])
        rw [← streamsWithout_congr streams names]
        obtain ⟨absent, rfl⟩ | ⟨st, found, same⟩ := leaveStream_quiet leaving
        · exact (streamsWithout_none absent).symm
        · rw [streamsWithout_some found]
          have left := quiet_streams same
          exact left
    · exact .still streams names
  · exact .still rfl rfl

theorem ConnectArgs.unique {sb : SimpleBuffer} {app app' : Bytes} (args : ConnectArgs sb app)
    (again : ConnectArgs sb app') : app = app' := by
  obtain ⟨ret, co, rest, read, named⟩ := args
  obtain ⟨ret', co', rest', read', named'⟩ := again
  cases read.symm.trans read'
  cases named.symm.trans named'
  rfl

theorem NameArgs.unique {sb : SimpleBuffer} {cid cid' : Bytes} (args : NameArgs sb cid)
    (again : NameArgs sb cid') : cid = cid' := by
  obtain ⟨rest, read⟩ := args
  obtain ⟨rest', read'⟩ := again
  cases read.symm.trans read'
  rfl

theorem PublishArgs.unique {sb : SimpleBuffer} {cid cid' app app' : Bytes}
    (args : PublishArgs sb cid app) (again : PublishArgs sb cid' app') : cid = cid' ∧ app = app' := by
  obtain ⟨sb₁, type, rest, name, read, rfl⟩ := args
  obtain ⟨sb₁', type', rest', name', read', rfl⟩ := again
  cases name.symm.trans name'
  cases read.symm.trans read'
  exact ⟨rfl, rfl⟩

theorem findStream_found {st : RtmpStream} (done : srv.findStream url = .ok (st, srv₁)) :
    (srv.streams url = some st ∨
        srv.streams url = none ∧ st.publisher = none ∧ st.peers = .empty) ∧
      srv₁.streams = srv.streams ∧ srv₁.sessions = srv.sessions := by
  obtain ⟨found, rfl⟩ | ⟨absent, _, _, free, empty, _, _, streams, sessions, _⟩ := findStream_ok done
  · exact ⟨.inl found, rfl, rfl⟩
  · exact ⟨.inr ⟨absent, free, empty⟩, streams, sessions⟩

theorem joined_moved {s : RtmpSession} {st : RtmpStream}
    (phase : (srv.sessions z).state = .publishPlay) (looked : s.url = url)
    (done : (srv.set z s).findStream url = .ok (st, srv₁)) :
    srv.Moved z app url publisher (srv₁.joined z url st publisher) := by
  obtain ⟨found, streams, sessions⟩ := findStream_found done
  refine .joined phase found (joined_streams streams z url st publisher) ?_ ?_
  · simp only [joined, emits, set_sessions]
  · simp only [joined, emits, set_sessions, sessions, looked]

variable {target : Target}

theorem Ran.moved {c : Command} (script : Scripted app target c)
    (named : (srv.sessions z).state = .publishPlay → (srv.sessions z).app = app)
    (ran : srv.Ran z c srv') : srv.Moved z app (target.url app) target.publisher srv' := by
  have other : ∀ {name}, c.name = name → ascii "connect" ≠ name → ascii "createStream" ≠ name →
      ascii "publish" ≠ name → ascii "play" ≠ name → False := by
    intro name said connects creates publishes plays
    cases script with
    | connect named => exact connects (named.symm.trans said)
    | createStream named => exact creates (named.symm.trans said)
    | publish _ named => exact publishes (named.symm.trans said)
    | play _ named => exact plays (named.symm.trans said)
  cases ran with
  | connected said phase args =>
      cases script with
      | connect _ args' =>
          refine .connected rfl ?_ ?_
          · simp only [emits, set_sessions]
          · simp only [emits, set_sessions]
            exact args.unique args'
      | createStream named => exact absurd (named.symm.trans said) (by decide)
      | publish _ named => exact absurd (named.symm.trans said) (by decide)
      | play _ named => exact absurd (named.symm.trans said) (by decide)
  | created said phase =>
      refine .created rfl phase ?_ ?_ <;> simp only [emits, set_sessions]
  | released said => exact (other said (by decide) (by decide) (by decide) (by decide)).elim
  | renamed said => exact (other said (by decide) (by decide) (by decide) (by decide)).elim
  | unpublished said => exact (other said (by decide) (by decide) (by decide) (by decide)).elim
  | published said phase room args found =>
      cases script with
      | publish asked _ args' =>
          obtain ⟨rfl, rfl⟩ := args.unique args'
          subst asked
          exact joined_moved phase rfl found
      | connect named => exact absurd (named.symm.trans said) (by decide)
      | createStream named => exact absurd (named.symm.trans said) (by decide)
      | play _ named => exact absurd (named.symm.trans said) (by decide)
  | played said phase args found =>
      cases script with
      | play asked _ args' =>
          obtain rfl := args.unique args'
          have own := named phase
          subst asked own
          exact joined_moved phase rfl found
      | connect named => exact absurd (named.symm.trans said) (by decide)
      | createStream named => exact absurd (named.symm.trans said) (by decide)
      | publish _ named => exact absurd (named.symm.trans said) (by decide)
  | ignored => exact .still rfl rfl

theorem Outcome.moved {ret : Ret} (script : ∀ c, srv.Carries z c → Scripted app target c)
    (named : (srv.sessions z).state = .publishPlay → (srv.sessions z).app = app)
    (outcome : srv.Outcome z ret srv') : srv.Moved z app (target.url app) target.publisher srv' := by
  have names : ∀ {srv₁ : Server} {cs}, (srv₁.sessions z).names = (srv.sessions z).names →
      ((srv₁.cleared z cs).sessions z).names = (srv.sessions z).names := by
    intro srv₁ cs same
    rw [cleared, set_sessions]
    exact same
  cases outcome with
  | @control s _ done =>
      refine .still rfl ?_
      obtain ⟨_, _, _, _, _, rfl⟩ := RtmpSession.handleControlMessage_own done
      simp only [emits, set_sessions]
      rfl
  | relayed present found phase accepted =>
      obtain ⟨_, demux, _, rfl, _⟩ := RtmpStream.send_ok accepted
      exact .relayed found rfl (fun y => Table.mem_mapValues) rfl (names rfl)
  | unheard | unrouted => exact .still rfl (names rfl)
  | refused => exact .still rfl rfl
  | @command cs c _ present carries ran =>
      have named' : ((srv.cleared z cs).sessions z).state = .publishPlay →
          ((srv.cleared z cs).sessions z).app = app := by
        rw [cleared, set_sessions]
        exact named
      have moved := ran.moved (script c carries) named'
      exact moved.after rfl (names rfl)

theorem Outcome.failed (outcome : srv.Outcome z .fail srv') :
    srv'.streams = srv.streams ∧ (srv'.sessions z).names = (srv.sessions z).names := by
  cases outcome with
  | unrouted =>
      rw [cleared, set_sessions]
      exact ⟨rfl, rfl⟩
  | refused => exact ⟨rfl, rfl⟩

theorem Counted.names (counted : srv.Counted z srv₁) :
    (srv₁.sessions z).names = (srv.sessions z).names :=
  counted.agree RtmpSession.names (fun _ => rfl) fun _ _ _ => rfl

theorem dispatch_moved (env : Env)
    (script : ∀ c, srv.Carries z c → Scripted app target c)
    (named : (srv.sessions z).state = .publishPlay → (srv.sessions z).app = app) :
    srv.Moved z app (target.url app) target.publisher (srv.dispatch env z).2 := by
  obtain ⟨f, srv₁, done, begun⟩ | ⟨ret, srv₁, srv₂, srv₃, counted, outcome, _, same, done⟩ :=
    dispatch_outcome env srv z <;> rw [done]
  · obtain rfl | counted := begun
    · exact .still rfl rfl
    · exact .still counted.streams counted.names
  · have carries : ∀ c, srv₁.Carries z c → Scripted app target c := by
      intro c carries
      refine script c ?_
      rwa [Carries, RtmpSession.current_decoder counted.decoder] at carries
    have named₁ : (srv₁.sessions z).state = .publishPlay → (srv₁.sessions z).app = app := by
      have names := counted.names
      have state : (srv₁.sessions z).state = (srv.sessions z).state := congrArg (·.1) names
      have same : (srv₁.sessions z).app = (srv.sessions z).app := congrArg (·.2.1) names
      rwa [state, same]
    have moved := outcome.moved carries named₁
    have streams : srv₃.streams = srv₂.streams := by
      have kept := quiet_streams same
      exact kept
    have names : (srv₃.sessions z).names = (srv₂.sessions z).names := by
      have kept := quiet_names same (z := z)
      exact kept
    refine Moved.after ?_ counted.streams counted.names
    simp only
    split
    · next failed =>
        subst failed
        obtain ⟨streams', names'⟩ := outcome.failed
        exact (close_moved srv₃ z).after (streams.trans streams') (names.trans names')
    · exact moved.before streams names

theorem parse_moved (srv : Server) (z : SessionId) (buf : Bytes) :
    (srv.parse z buf).2.1.streams = srv.streams ∧
      ((srv.parse z buf).2.1.sessions z).names = (srv.sessions z).names := by
  unfold parse
  split
  · exact ⟨rfl, rfl⟩
  · next read =>
      obtain ⟨_, _, _, _, rfl⟩ := RtmpSession.readChunkStream_own read
      refine ⟨rfl, ?_⟩
      rw [set_sessions]
      rfl

theorem shake_moved {url : Bytes} {publisher : Bool} (env : Env) (srv : Server) (z : SessionId)
    (buf : Bytes) : srv.Moved z app url publisher (srv.shake env z buf).2.1 ∧
      ((srv.shake env z buf).1 = .fail →
        ((srv.shake env z buf).2.1.sessions z).names = (srv.sessions z).names) := by
  unfold shake
  simp only
  split
  · split
    · have names : ∀ hs, ((srv.set z { srv.sessions z with hs }).sessions z).names =
          (srv.sessions z).names := by
        intro hs
        rw [set_sessions]
        rfl
      exact ⟨.still rfl (names _), fun _ => names _⟩
    · refine ⟨.early rfl (.inl ?_), fun failed => by cases failed⟩
      rw [set_sessions]
  · split
    · have names : ∀ hs, ((srv.set z { srv.sessions z with hs }).sessions z).names =
          (srv.sessions z).names := by
        intro hs
        rw [set_sessions]
        rfl
      exact ⟨.still rfl (names _), fun _ => names _⟩
    · refine ⟨.early rfl (.inr ?_), fun failed => by cases failed⟩
      simp only [emit, set_sessions]

/-- What a session that follows its script has in its names. -/
structure Named (srv : Server) (z : SessionId) (app url : Bytes) : Prop where
  connected : (srv.sessions z).state = .createStream ∨ (srv.sessions z).state = .publishPlay →
    (srv.sessions z).app = app
  joined : (srv.sessions z).state = .mediaTransfer → (srv.sessions z).url = url

theorem Named.congr (named : srv.Named z app url)
    (names : (srv'.sessions z).names = (srv.sessions z).names) : srv'.Named z app url := by
  have state : (srv'.sessions z).state = (srv.sessions z).state := congrArg (·.1) names
  have own : (srv'.sessions z).app = (srv.sessions z).app := congrArg (·.2.1) names
  have looked : (srv'.sessions z).url = (srv.sessions z).url := congrArg (·.2.2) names
  constructor
  · rw [state, own]
    exact named.connected
  · rw [state, looked]
    exact named.joined

theorem Named.moved (named : srv.Named z app url) (moved : srv.Moved z app url publisher srv') :
    srv'.Named z app url := by
  cases moved with
  | still _ names | relayed _ _ _ _ names => exact named.congr names
  | early _ state => constructor <;> rcases state with state | state <;> simp [state]
  | connected _ state own => exact ⟨fun _ => own, fun later => by simp [state] at later⟩
  | created _ phase state same =>
      exact ⟨fun _ => same.trans (named.connected (.inl phase)),
        fun later => by simp [state] at later⟩
  | joined _ _ _ state looked => exact ⟨fun early => by simp [state] at early, fun _ => looked⟩
  | closed _ state => constructor <;> simp [state]

/-- Nobody but this session publishes the stream. -/
def OnlyPublisher (srv : Server) (x : SessionId) (url : Bytes) : Prop :=
  ∀ st, srv.streams url = some st → ∀ z, st.publisher = some z → z = x

theorem OnlyPublisher.same {x : SessionId} {u : Bytes} (only : srv.OnlyPublisher x u)
    (streams : srv'.streams u = srv.streams u) : srv'.OnlyPublisher x u :=
  fun st found => only st (streams ▸ found)

theorem OnlyPublisher.put {x : SessionId} {u v : Bytes} {new : Option RtmpStream}
    (only : srv.OnlyPublisher x u) (streams : srv'.streams = Function.update srv.streams v new)
    (host : ∀ st, u = v → new = some st → ∀ z, st.publisher = some z → z = x) :
    srv'.OnlyPublisher x u := by
  intro st found
  rw [streams] at found
  by_cases same : u = v
  · rw [same, Function.update_self] at found
    exact host st same found
  · rw [Function.update_of_ne same] at found
    exact only st found

theorem OnlyPublisher.moved {x : SessionId} {u : Bytes} (only : srv.OnlyPublisher x u)
    (own : publisher = true → z = x) (moved : srv.Moved z app url publisher srv') :
    srv'.OnlyPublisher x u := by
  cases moved with
  | still streams | early streams | connected streams | created streams =>
      exact only.same (congrFun streams u)
  | @joined st phase found streams =>
      refine only.put streams fun st' same again y host => ?_
      cases again
      have before : ∀ y, st.publisher = some y → y = x := by
        obtain found | ⟨_, free, _⟩ := found
        · exact only st (same ▸ found)
        · rw [free]
          exact fun _ none => by cases none
      obtain ⟨same, _⟩ | ⟨_, _, same⟩ := st.join_cases z publisher <;> rw [same] at host
      · exact before y host
      · split at host
        · next asked => exact (Option.some.inj host).symm.trans (own asked)
        · exact before y host
  | relayed found streams _ same =>
      refine only.put streams fun st' named again y host => ?_
      cases again
      exact only _ (named ▸ found) y (same ▸ host)
  | closed streams =>
      cases found : srv.streams (srv.sessions z).url with
      | none =>
          rw [streamsWithout_none found] at streams
          exact only.same (congrFun streams u)
      | some st =>
          rw [streamsWithout_some found] at streams
          refine only.put streams fun st' named again y host => ?_
          split at again
          · cases again
          · cases again
            exact only st (named ▸ found) y (RtmpStream.leave_publisher.mp host).2

/-- A session that follows its script has its place in the stream once it transfers media. -/
def Seated (srv : Server) (z : SessionId) (url : Bytes) (publisher : Bool) : Prop :=
  (srv.sessions z).state = .mediaTransfer → srv.Place z url (publisher = true)

theorem Seated.moved (seated : srv.Seated z url publisher)
    (free : publisher = true → (srv.sessions z).state = .publishPlay →
      ∀ st, srv.streams url = some st → st.publisher = none)
    (moved : srv.Moved z app url publisher srv') : srv'.Seated z url publisher := by
  intro now
  cases moved with
  | still streams names =>
      have state : (srv'.sessions z).state = (srv.sessions z).state := congrArg (·.1) names
      exact (seated (state ▸ now)).same (congrFun streams url)
  | early _ state => rcases state with state | state <;> rw [state] at now <;> cases now
  | connected _ state | created _ _ state | closed _ state =>
      rw [state] at now
      cases now
  | @joined st phase found streams =>
      refine ⟨(st.join z publisher).2, by rw [streams, Function.update_self], ?_⟩
      have vacant : publisher = true → st.publisher = none := by
        intro asked
        obtain found | ⟨_, none, _⟩ := found
        · exact free asked phase st found
        · exact none
      obtain ⟨_, asked, taken⟩ | ⟨_, _, same⟩ := st.join_cases z publisher
      · rw [vacant asked] at taken
        cases taken
      · rw [same]
        exact ⟨Table.mem_insertNew.mpr (.inl rfl), fun asked => if_pos asked⟩
  | @relayed st st' found streams peers host names =>
      have state : (srv'.sessions z).state = (srv.sessions z).state := congrArg (·.1) names
      have transfers : (srv.sessions z).state = .mediaTransfer := state ▸ now
      refine (seated transfers).put streams fun old again inside => ?_
      rw [found] at again
      cases again
      exact ⟨(peers z).mpr inside, fun before => host.trans before⟩

end Server

namespace Host

/-- The commands the session sends are of the script. -/
def Follows (host : Host) (z : SessionId) (app : Bytes) (target : Server.Target) : Label → Prop
  | .dispatch y _ => y = z → host.Ready z →
      ∀ c, host.server.Carries z c → Server.Scripted app target c
  | _ => True

instance (host : Host) (z : SessionId) (app : Bytes) (target : Server.Target) (l : Label) :
    Decidable (host.Follows z app target l) :=
  match l with
  | .dispatch y _ =>
      match read : Server.readCommand (host.server.sessions z).current.data with
      | .ok c =>
          decidable_of_iff (y = z → host.Ready z → (host.server.sessions z).current.type = 20 →
              Server.Scripted app target c) <| by
            constructor
            · intro script self ready c' ⟨command, again⟩
              cases read.symm.trans again
              exact script self ready command
            · exact fun follows self ready command => follows self ready c ⟨command, read⟩
      | .error _ => .isTrue <| by
          intro _ _ c ⟨_, again⟩
          cases read.symm.trans again
  | .accept _ | .receive _ _ | .shake _ _ | .parse _ | .close _ => .isTrue trivial

theorem step_moved (host : Host) {l : Label} {app : Bytes} {target : Server.Target}
    (follows : host.Follows l.session app target l)
    (named : (host.server.sessions l.session).state = .publishPlay →
      (host.server.sessions l.session).app = app) :
    host.server.Moved l.session app (target.url app) target.publisher (host.step l).server := by
  unfold step
  split
  · cases l with
    | accept x =>
        simp only [perform]
        split
        · refine .still rfl ?_
          rw [Label.session, Server.set_sessions]
          rfl
        · exact .still rfl rfl
    | receive x data =>
        simp only [perform]
        split <;> exact .still rfl rfl
    | shake x env =>
        obtain ⟨moved, failing⟩ : host.server.Moved x app (target.url app) target.publisher _ ∧ _ :=
          Server.shake_moved env host.server x (host.recvBuf x)
        simp only [perform]
        split
        · split
          · next failed =>
              exact (Server.close_moved _ x).after (Server.shake_streams env host.server x _)
                (failing failed)
          · exact moved
        · exact .still rfl rfl
    | parse x =>
        obtain ⟨streams, names⟩ := Server.parse_moved host.server x (host.recvBuf x)
        simp only [perform]
        split
        · split
          · exact (Server.close_moved _ x).after streams names
          · exact .still streams names
        · exact .still rfl rfl
    | dispatch x env =>
        simp only [perform]
        split
        · next ready => exact Server.dispatch_moved env (follows rfl ready) named
        · exact .still rfl rfl
    | close x => exact Server.close_moved host.server x
  · exact .still rfl rfl

variable {recordForce : Bool} {host : Host} {l : Label} {x y z : SessionId}

theorem step_names_other (host : Host) (other : z ≠ l.session) :
    ((host.step l).server.sessions z).names = (host.server.sessions z).names :=
  Server.Acts.invariant (P := fun srv => (srv.sessions z).names = (host.server.sessions z).names)
    (fun _ _ same act =>
      (congrArg RtmpSession.names (act.other other) : _ = _).trans same) (host.step_acts_close l) rfl

/-- A session that follows its script keeps its names, whoever takes the step. -/
theorem named_step {app : Bytes} {target : Server.Target}
    (named : host.server.Named z app (target.url app)) (follows : host.Follows z app target l) :
    (host.step l).server.Named z app (target.url app) := by
  by_cases own : z = l.session
  · subst own
    exact named.moved (host.step_moved follows fun state => named.connected (.inr state))
  · exact named.congr (step_names_other host own)

theorem Follows.spares {app : Bytes} {target : Server.Target}
    (follows : host.Follows l.session app target l) (url : Bytes) :
    host.step l = host ∨ ¬ (host.closingGrants l).release url := by
  cases l with
  | accept | receive | shake | parse | close => exact .inr id
  | dispatch w env =>
      by_cases ready : host.Ready w
      · refine .inr ?_
        rintro ⟨c, carries, said, _⟩
        have script := follows rfl ready c carries
        cases script with
        | connect named => exact absurd (named.symm.trans said) (by decide)
        | createStream named => exact absurd (named.symm.trans said) (by decide)
        | publish _ named => exact absurd (named.symm.trans said) (by decide)
        | play _ named => exact absurd (named.symm.trans said) (by decide)
      · refine .inl ?_
        unfold step
        split
        · exact if_neg ready
        · rfl

/-- A seat is kept when another session that follows its script takes the step. -/
theorem seated_other {app url : Bytes} {target : Server.Target} {publisher : Bool}
    (other : z ≠ l.session) (follows : host.Follows l.session app target l)
    (seated : host.server.Seated z url publisher) :
    (host.step l).server.Seated z url publisher := by
  intro now
  have names := step_names_other host other
  have state : ((host.step l).server.sessions z).state = (host.server.sessions z).state :=
    congrArg (·.1) names
  have place := seated (state ▸ now)
  obtain same | spared := follows.spares url
  · rwa [same]
  · exact Server.Place.acts other spared (host.step_acts_close l) place

/-- A step of neither session leaves what is registered under these urls. -/
def Undisturbed (host : Host) (x y : SessionId) (urls : List Bytes) (l : Label) : Prop :=
  l.session ≠ x → l.session ≠ y →
    ∀ url ∈ urls, (host.step l).server.streams url = host.server.streams url

/-- The publisher and the player of one url, and nobody else in the way. -/
structure Meeting (host : Host) (x y : SessionId) (app name : Bytes) : Prop where
  publisher : host.server.Named x app (Server.urlOf app name)
  player : host.server.Named y app (Server.urlOf app name)
  hosts : host.server.Seated x (Server.urlOf app name) true
  watches : host.server.Seated y (Server.urlOf app name) false
  only : host.server.OnlyPublisher x (Server.urlOf app name)

/-- A session that may publish finds a stream that only it publishes without a publisher. -/
theorem Meeting.free {app name : Bytes} (reached : (machine recordForce).Reachable host)
    (meeting : host.Meeting x y app name) (phase : (host.server.sessions x).state = .publishPlay)
    {st : RtmpStream} (found : host.server.streams (Server.urlOf app name) = some st) :
    st.publisher = none := by
  rw [Option.eq_none_iff_forall_ne_some]
  intro z publishes
  obtain rfl := meeting.only st found z publishes
  have reg := Registry.reachable reached
  have inside := (reg.sound found).hosted z publishes
  rcases reg.entered found inside with state | state <;> rw [phase] at state <;> cases state

theorem Meeting.step {app name : Bytes} (reached : (machine recordForce).Reachable host)
    (apart : x ≠ y) (publishes : host.Follows x app (.publish name app) l)
    (plays : host.Follows y app (.play name) l)
    (undisturbed : host.Undisturbed x y [Server.urlOf app name] l)
    (meeting : host.Meeting x y app name) : (host.step l).Meeting x y app name := by
  have publisher := named_step meeting.publisher publishes
  have player := named_step meeting.player plays
  by_cases first : l.session = x
  · subst first
    have moved := host.step_moved publishes fun state => meeting.publisher.connected (.inr state)
    exact ⟨publisher, player,
      meeting.hosts.moved (fun _ phase st found => meeting.free reached phase found) moved,
      seated_other apart.symm publishes meeting.watches, meeting.only.moved (fun _ => rfl) moved⟩
  by_cases second : l.session = y
  · subst second
    have moved := host.step_moved plays fun state => meeting.player.connected (.inr state)
    exact ⟨publisher, player, seated_other apart plays meeting.hosts,
      meeting.watches.moved (fun asked => by cases asked) moved,
      meeting.only.moved (fun asked => by cases asked) moved⟩
  · have streams := undisturbed first second _ List.mem_cons_self
    have still : ∀ {z publisher}, z ≠ l.session →
        host.server.Seated z (Server.urlOf app name) publisher →
        (host.step l).server.Seated z (Server.urlOf app name) publisher := by
      intro z publisher other seated now
      have state : ((host.step l).server.sessions z).state = (host.server.sessions z).state :=
        congrArg (·.1) (step_names_other host other)
      exact (seated (state ▸ now)).same streams
    exact ⟨publisher, player, still (Ne.symm first) meeting.hosts,
      still (Ne.symm second) meeting.watches, meeting.only.same streams⟩

end Host

/-- One session that connects, creates a stream and publishes, and one that does so and plays, both
    with the same app and stream name and undisturbed, look up one url and are in one stream, in
    whatever order they arrive, exactly when the publishing type is the app. -/
theorem publisher_meets_player (recordForce : Bool) (labels : List Label) (x y : SessionId)
    (app name type : Bytes) (apart : x ≠ y)
    (run : (machine recordForce).Steps (fun host l => host.Follows x app (.publish name type) l ∧
      host.Follows y app (.play name) l ∧
      host.Undisturbed x y [Server.urlOf type name, Server.urlOf app name] l) labels)
    (published : (((machine recordForce).run labels).server.sessions x).state = .mediaTransfer)
    (played : (((machine recordForce).run labels).server.sessions y).state = .mediaTransfer) :
    ((((machine recordForce).run labels).server.sessions x).url =
        (((machine recordForce).run labels).server.sessions y).url ∧
      ∃ st, ((machine recordForce).run labels).server.streams
          (((machine recordForce).run labels).server.sessions x).url = some st ∧
        st.publisher = some x ∧ y ∈ st.peers) ↔ type = app := by
  have start : ∀ z url, (machine recordForce).start.server.Named z app url := by
    intro z url
    constructor
    · intro early
      rcases early with early | early <;> cases early
    · intro late
      cases late
  constructor
  · rintro ⟨same, _⟩
    have named := Machine.Steps.run (I := fun host =>
      host.server.Named x app (Server.urlOf type name) ∧
        host.server.Named y app (Server.urlOf app name)) ⟨start x _, start y _⟩
      (fun _ _ _ ⟨first, second⟩ ⟨publishes, plays, _⟩ =>
        ⟨Host.named_step first publishes, Host.named_step second plays⟩) run
    rw [named.1.joined published, named.2.joined played] at same
    exact List.append_cancel_right same
  · rintro rfl
    have nobody : (machine recordForce).start.Meeting x y type name := by
      refine ⟨start x _, start y _, ?_, ?_, ?_⟩
      · intro late
        cases late
      · intro late
        cases late
      · intro _ found
        cases found
    have meeting := Machine.Steps.run (I := fun host => host.Meeting x y type name) nobody
      (fun _ _ reached meeting ⟨publishes, plays, undisturbed⟩ =>
        meeting.step reached apart publishes plays fun first second url inside =>
          undisturbed first second url (List.mem_cons_of_mem _ inside)) run
    obtain ⟨st, found, _, publishes⟩ := meeting.hosts published
    obtain ⟨st', found', inside, _⟩ := meeting.watches played
    rw [found] at found'
    cases found'
    rw [meeting.publisher.joined published, meeting.player.joined played]
    exact ⟨rfl, st, found, publishes rfl, inside⟩

/-- A player that connects to `live` and plays `1` while a publisher is on its way there. -/
def meetingRun (type : String) : List Label :=
  Peer.enter 1 "live" ++ Peer.enter 2 "live" ++ Peer.deliver 2 (Peer.named "play" "1") ++
    Peer.deliver 1 (Peer.publish "1" type)

set_option maxRecDepth 4000 in
/-- With the app as the publishing type they meet. -/
theorem publisher_meets_player_live :
    ∃ st, ((machine false).run (meetingRun "live")).server.streams
        (((machine false).run (meetingRun "live")).server.sessions 1).url = some st ∧
      st.publisher = some 1 ∧ 2 ∈ st.peers := by
  obtain ⟨follows, published, played⟩ : (machine false).Checks (fun host l =>
        host.Follows 1 (ascii "live") (.publish (ascii "1") (ascii "live")) l ∧
          host.Follows 2 (ascii "live") (.play (ascii "1")) l ∧ (l.session = 1 ∨ l.session = 2))
        (machine false).start (meetingRun "live") ∧
      (((machine false).run (meetingRun "live")).server.sessions 1).state = .mediaTransfer ∧
        (((machine false).run (meetingRun "live")).server.sessions 2).state = .mediaTransfer := by
    decide +kernel
  have run := (Machine.Checks.steps follows).mono (D := fun host l =>
    host.Follows 1 (ascii "live") (.publish (ascii "1") (ascii "live")) l ∧
      host.Follows 2 (ascii "live") (.play (ascii "1")) l ∧
      host.Undisturbed 1 2 [Server.urlOf (ascii "live") (ascii "1"),
        Server.urlOf (ascii "live") (ascii "1")] l)
    fun _ _ _ ⟨publishes, plays, own⟩ =>
      ⟨publishes, plays, fun first second => (own.elim first second).elim⟩
  exact ((publisher_meets_player false (meetingRun "live") 1 2 (ascii "live") (ascii "1")
    (ascii "live") (by decide) run published played).mpr rfl).2

set_option maxRecDepth 4000 in
/-- With another publishing type they do not, though each names what the other does. -/
theorem publisher_misses_player :
    ¬ ∀ (labels : List Label) (app name type : Bytes), (machine false).Steps (fun host l =>
        host.Follows 1 app (.publish name type) l ∧ host.Follows 2 app (.play name) l ∧
          host.Undisturbed 1 2 [Server.urlOf type name, Server.urlOf app name] l) labels →
      (((machine false).run labels).server.sessions 1).state = .mediaTransfer →
      (((machine false).run labels).server.sessions 2).state = .mediaTransfer →
      (((machine false).run labels).server.sessions 1).url =
        (((machine false).run labels).server.sessions 2).url := by
  intro all
  obtain ⟨follows, published, played, apart⟩ : (machine false).Checks (fun host l =>
        host.Follows 1 (ascii "live") (.publish (ascii "1") (ascii "record")) l ∧
          host.Follows 2 (ascii "live") (.play (ascii "1")) l ∧ (l.session = 1 ∨ l.session = 2))
        (machine false).start (meetingRun "record") ∧
      (((machine false).run (meetingRun "record")).server.sessions 1).state = .mediaTransfer ∧
        (((machine false).run (meetingRun "record")).server.sessions 2).state = .mediaTransfer ∧
        (((machine false).run (meetingRun "record")).server.sessions 1).url ≠
          (((machine false).run (meetingRun "record")).server.sessions 2).url := by
    decide +kernel
  refine apart (all (meetingRun "record") (ascii "live") (ascii "1") (ascii "record")
    ((Machine.Checks.steps follows).mono fun _ _ _ ⟨publishes, plays, own⟩ => ?_) published played)
  exact ⟨publishes, plays, fun first second => (own.elim first second).elim⟩

end DroneServer
