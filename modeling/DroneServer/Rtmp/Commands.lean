import DroneServer.Amf0.Walk
import DroneServer.Rtmp.Publication

/-! # What a command message comes to

`handle_command_message` ignores what every read of an AMF value returns. Here are
all its branches followed to their end, for any payload and in any state: what they
find in the payload, what they need, and how they end where it is missing. What a
reply comes to depends on the room for it only: `Sends`.
-/

namespace DroneServer

/-- The session writes a message: it returns if a byte fits in a chunk, and loops for ever if not. -/
structure RtmpSession.Sends (f : RtmpSession → Except Fault RtmpSession) : Prop where
  room : ∀ s, s.maxChunkSize ≠ 0 → ∃ s', f s = .ok s' ∧ s'.maxChunkSize = s.maxChunkSize
  stuck : ∀ s, s.maxChunkSize = 0 → f s = .error .diverges

theorem RtmpSession.sendControl_sends {typeId : UInt8} {msg : RtmpSession → Bytes}
    (some : ∀ s, msg s ≠ []) (short : ∀ s, (msg s).length < 2 ^ 32) :
    Sends fun s => s.sendControl typeId (msg s) where
  room s room := writeChunk_room room 2 0 0 typeId 0 (msg s) true
  stuck s none := writeChunk_stuck none 2 0 0 typeId 0 true (some s) (short s)

theorem RtmpSession.sendStreamEvent_sends (event : UInt8) (streamId : RtmpSession → UInt32) :
    Sends fun s => s.sendControl 4 ([0, event] ++ Endian.toBE32 (streamId s)) :=
  sendControl_sends (fun _ => List.cons_ne_nil _ _) fun s => by
    rw [List.length_append, Endian.toBE32_length]
    exact (by decide : 6 < 2 ^ 32)

namespace Server

/-- Whatever is sent, the streams and the chunk sizes stay. -/
structure Kept (srv srv' : Server) : Prop where
  streams : srv'.streams = srv.streams
  sizes : ∀ y, (srv'.sessions y).maxChunkSize = (srv.sessions y).maxChunkSize

theorem Kept.refl (srv : Server) : Kept srv srv := ⟨rfl, fun _ => rfl⟩

theorem Kept.trans {a b c : Server} (first : Kept a b) (second : Kept b c) : Kept a c :=
  ⟨second.streams.trans first.streams, fun y => (second.sizes y).trans (first.sizes y)⟩

theorem Kept.set {srv : Server} {x : SessionId} {s : RtmpSession}
    (size : s.maxChunkSize = (srv.sessions x).maxChunkSize) : Kept srv (srv.set x s) where
  streams := rfl
  sizes y := by
    by_cases self : y = x
    · subst self
      rw [set_sessions, size]
    · rw [set_other _ _ self]

theorem Kept.room {srv srv' : Server} {y : SessionId} (kept : Kept srv srv')
    (room : (srv.sessions y).maxChunkSize ≠ 0) : (srv'.sessions y).maxChunkSize ≠ 0 := by
  rw [kept.sizes y]
  exact room

/-- A part of a handler that sends to `x` only. -/
def Replies (x : SessionId) (part : Server → Except Fault Server) : Prop :=
  ∀ srv, (srv.sessions x).maxChunkSize ≠ 0 → ∃ srv', part srv = .ok srv' ∧ Kept srv srv'

variable {x : SessionId} {f : RtmpSession → Except Fault RtmpSession}

theorem within_run {srv : Server} {s : RtmpSession} (ran : f (srv.sessions x) = .ok s) :
    srv.within x f = .ok (srv.set x s) := by
  rw [within, ran]
  rfl

theorem within_replies (sends : RtmpSession.Sends f) : Replies x (·.within x f) := by
  intro srv room
  obtain ⟨s', ran, size⟩ := sends.room _ room
  exact ⟨srv.set x s', within_run ran, .set size⟩

theorem within_stuck (sends : RtmpSession.Sends f) {srv : Server}
    (none : (srv.sessions x).maxChunkSize = 0) : srv.within x f = .error .diverges :=
  bind_error (sends.stuck _ none) _

theorem Replies.bind {part next : Server → Except Fault Server} (first : Replies x part)
    (second : Replies x next) : Replies x fun srv => part srv >>= next := by
  intro srv room
  obtain ⟨srv₁, ran, kept⟩ := first srv room
  obtain ⟨srv₂, again, kept'⟩ := second srv₁ (kept.room room)
  exact ⟨srv₂, bind_ok.mpr ⟨srv₁, ran, again⟩, kept.trans kept'⟩

theorem moved_replies (state : SessionState) (e : Event) :
    Replies x fun srv => pure ((srv.set x { srv.sessions x with state }).emit e) :=
  fun srv _ => ⟨_, rfl, rfl, (Kept.set (s := { srv.sessions x with state }) rfl).sizes⟩

theorem writeChunk_replies (csid : RtmpSession → UInt16) (msg : Bytes) :
    Replies x (·.within x fun s => s.writeChunk (csid s) 0 0 20 0 msg false) := by
  intro srv room
  obtain ⟨s', ran, size⟩ :=
    RtmpSession.writeChunk_room room (csid (srv.sessions x)) 0 0 20 0 msg false
  exact ⟨srv.set x s', within_run ran, .set size⟩

theorem sendOnStatus_replies (level code desc : String) :
    Replies x (·.sendOnStatus x level code desc) := by
  obtain ⟨buf, encoded⟩ : ∃ buf, encode [str "onStatus", num0, .null, .object [(ascii "level", str level),
      (ascii "code", str code), (ascii "description", str desc)]] = .ok buf := ⟨_, rfl⟩
  intro srv room
  obtain ⟨srv', replied, kept⟩ := writeChunk_replies (x := x) (fun _ => 3) buf srv room
  exact ⟨srv', bind_ok.mpr ⟨buf, encoded, replied⟩, kept⟩

/-- A `connect` that names its app is answered: it makes room for the replies itself. -/
theorem commandConnect_answers {srv : Server} {sb : SimpleBuffer} {app : Bytes}
    (args : ConnectArgs sb app) :
    ∃ srv', srv.commandConnect x sb = .ok srv' ∧ srv'.streams = srv.streams := by
  obtain ⟨ret, co, rest, read, named⟩ := args
  generalize stored : srv.set x { srv.sessions x with app, maxChunkSize := 4096 } = srv₀
  have room : (srv₀.sessions x).maxChunkSize ≠ 0 := by
    rw [← stored, set_sessions]
    exact (by decide : (4096 : UInt32) ≠ 0)
  have streams : srv₀.streams = srv.streams := by
    rw [← stored]
    rfl
  have sizes : RtmpSession.Sends (·.sendSetChunkSize) :=
    RtmpSession.sendControl_sends (fun _ => List.cons_ne_nil _ _)
      fun s => by rw [Endian.toBE32_length]; decide
  have announces : Replies x (·.sendSetChunkSize x) := fun srv room => by
    obtain ⟨srv', sent, kept⟩ := within_replies (x := x) sizes srv room
    exact ⟨_, bind_ok.mpr ⟨srv', sent, rfl⟩, kept.streams, kept.sizes⟩
  have windows : Replies x (·.within x (·.sendWindowAck)) :=
    within_replies (RtmpSession.sendControl_sends (fun _ => List.cons_ne_nil _ _)
      fun s => by rw [Endian.toBE32_length]; decide)
  have bandwidths : Replies x (·.within x (·.sendSetPeerBandwidth)) :=
    within_replies (RtmpSession.sendControl_sends (fun _ => List.cons_ne_nil _ _)
      fun s => by rw [List.length_append, Endian.toBE32_length]; exact (by decide : 5 < 2 ^ 32))
  obtain ⟨buf, encoded⟩ : ∃ buf, encode [str "_result", num1, connectProps, connectInfo] = .ok buf :=
    ⟨_, rfl⟩
  obtain ⟨srv₁, announced, kept₁⟩ := announces srv₀ room
  obtain ⟨srv₂, windowed, kept₂⟩ := windows srv₁ (kept₁.room room)
  obtain ⟨srv₃, bandwidth, kept₃⟩ := bandwidths srv₂ ((kept₁.trans kept₂).room room)
  obtain ⟨srv₄, replied, kept₄⟩ := writeChunk_replies (x := x) (·.csid) buf srv₃
    (((kept₁.trans kept₂).trans kept₃).room room)
  have done : srv.commandConnect x sb = .ok
      ((srv₄.set x { srv₄.sessions x with state := .createStream }).emit (.connected x)) := by
    refine bind_ok.mpr ⟨_, read, ?_⟩
    simp only [named, stored]
    exact bind_ok.mpr ⟨_, announced, bind_ok.mpr ⟨_, windowed, bind_ok.mpr ⟨_, bandwidth,
      bind_ok.mpr ⟨_, encoded, bind_ok.mpr ⟨_, replied, rfl⟩⟩⟩⟩⟩
  refine ⟨_, done, ?_⟩
  exact (((kept₁.trans kept₂).trans kept₃).trans kept₄).streams.trans streams

theorem commandCreateStream_answers {srv : Server} (marker : UInt8) (tid : UInt64)
    (room : (srv.sessions x).maxChunkSize ≠ 0) :
    ∃ srv', srv.commandCreateStream x marker tid = .ok srv' ∧ srv'.streams = srv.streams := by
  obtain ⟨buf, encoded⟩ : ∃ buf, createStreamReply marker tid = .ok buf := ⟨_, rfl⟩
  obtain ⟨srv₁, replied, kept⟩ := writeChunk_replies (x := x) (fun _ => 3) buf srv room
  exact ⟨_, bind_ok.mpr ⟨_, encoded, bind_ok.mpr ⟨_, replied, rfl⟩⟩, kept.streams⟩

theorem commandCreateStream_stuck {srv : Server} (marker : UInt8) (tid : UInt64)
    (none : (srv.sessions x).maxChunkSize = 0) :
    srv.commandCreateStream x marker tid = .error .diverges := by
  obtain ⟨buf, encoded, some, short⟩ : ∃ buf, createStreamReply marker tid = .ok buf ∧
      buf ≠ [] ∧ buf.length < 2 ^ 32 :=
    ⟨_, rfl, List.cons_ne_nil _ _, (by decide : 29 < 2 ^ 32)⟩
  have stuck := RtmpSession.writeChunk_stuck none 3 0 0 20 0 false some short
  rw [commandCreateStream, encoded]
  exact bind_error (bind_error stuck _) _

/-- The stream under this url is registered, or can be made: the id in the url is below 2^64. -/
def Enterable (srv : Server) (url : Bytes) : Prop :=
  srv.streams url ≠ none ∨ hexValue 0 (RtmpStream.nameOf url) < 2 ^ 64

/-- What joining the stream `url` and telling the session so comes to. -/
structure Admits (srv : Server) (x : SessionId) (url : Bytes) (done : Except Fault Server) :
    Prop where
  answered : srv.Enterable url → (srv.sessions x).maxChunkSize ≠ 0 →
    ∃ srv', done = .ok srv' ∧ srv'.streams url ≠ none ∧
      ∀ other, other ≠ url → srv'.streams other = srv.streams other
  stuck : srv.Enterable url → (srv.sessions x).maxChunkSize = 0 → done = .error .diverges
  refused : ¬ srv.Enterable url → done = .error .outOfRange

theorem findStream_enterable {srv : Server} {url : Bytes} (enterable : srv.Enterable url) :
    ∃ st srv₁, srv.findStream url = .ok (st, srv₁) := by
  unfold findStream
  split
  · exact ⟨_, _, rfl⟩
  · next absent =>
      have small := enterable.resolve_left (not_not.mpr absent)
      simp only [RtmpStream.create, cidFromHex, if_pos small]
      exact ⟨_, _, rfl⟩

theorem findStream_refused {srv : Server} {url : Bytes} (refused : ¬ srv.Enterable url) :
    srv.findStream url = .error .outOfRange := by
  obtain ⟨absent, large⟩ := not_or.mp refused
  simp only [findStream, not_not.mp absent, RtmpStream.create, cidFromHex, if_neg large]
  rfl

theorem joinStream_admits (srv : Server) (publisher : Bool) (streamId : RtmpSession → UInt32)
    {next : Server → Except Fault Server} (replies : Replies x next) :
    Admits srv x (srv.sessions x).url (do
      let srv ← srv.joinStream x publisher
      let srv ← srv.within x fun s => s.sendStreamBegin (streamId s)
      next srv) := by
  have sends : RtmpSession.Sends fun s => s.sendStreamBegin (streamId s) :=
    RtmpSession.sendStreamEvent_sends 0 streamId
  have joins : srv.Enterable (srv.sessions x).url → ∃ srv₁, srv.joinStream x publisher = .ok srv₁ ∧
      srv₁.sessions = srv.sessions ∧ srv₁.streams (srv.sessions x).url ≠ none ∧
      ∀ other, other ≠ (srv.sessions x).url → srv₁.streams other = srv.streams other := by
    intro enterable
    obtain ⟨st, srv₁, found⟩ := findStream_enterable enterable
    have kept : srv₁.sessions = srv.sessions ∧ srv₁.streams = srv.streams := by
      obtain ⟨_, rfl⟩ | ⟨_, _, _, _, _, _, _, streams, sessions, _⟩ := findStream_ok found
      · exact ⟨rfl, rfl⟩
      · exact ⟨sessions, streams⟩
    refine ⟨_, bind_ok.mpr ⟨_, found, rfl⟩, kept.1, ?_, fun other different => ?_⟩
    · simp only [emit, setStream, Function.update_self]
      exact Option.some_ne_none _
    · simp only [emit, setStream, Function.update_of_ne different, kept.2]
  constructor
  · intro enterable room
    obtain ⟨srv₁, joined, sessions, entered, others⟩ := joins enterable
    rw [← sessions] at room
    obtain ⟨srv₂, begun, kept⟩ := within_replies sends srv₁ room
    obtain ⟨srv₃, told, kept'⟩ := replies srv₂ (kept.room room)
    have streams := (kept.trans kept').streams
    refine ⟨srv₃, bind_ok.mpr ⟨_, joined, bind_ok.mpr ⟨_, begun, told⟩⟩, ?_, fun other different => ?_⟩
    · rwa [streams]
    · rw [streams, others other different]
  · intro enterable none
    obtain ⟨srv₁, joined, sessions, _⟩ := joins enterable
    rw [← sessions] at none
    rw [joined]
    exact bind_error (within_stuck sends none) _
  · intro refused
    exact bind_error (bind_error (findStream_refused refused) _) _

/-- Every peer that is told of the end of the stream, when `x` leaves it by its url, has room for it. -/
def LeavesRoom (srv : Server) (x : SessionId) : Prop :=
  ∀ st, srv.streams (srv.sessions x).url = some st → st.publisher = some x →
    ∀ peer ∈ (st.leave x).peers.entries, (srv.sessions peer.1).maxChunkSize ≠ 0

theorem tell_ends (srv : Server) (peers : List (SessionId × Bool)) :
    ((∀ peer ∈ peers, (srv.sessions peer.1).maxChunkSize ≠ 0) → ∃ srv',
      peers.foldlM (fun srv peer => srv.within peer.1 (·.sendStreamEof mediaStreamId)) srv = .ok srv' ∧
        Kept srv srv') ∧
    ((∃ peer ∈ peers, (srv.sessions peer.1).maxChunkSize = 0) →
      peers.foldlM (fun srv peer => srv.within peer.1 (·.sendStreamEof mediaStreamId)) srv =
        .error .diverges) := by
  have sends : RtmpSession.Sends (·.sendStreamEof mediaStreamId) :=
    RtmpSession.sendStreamEvent_sends 1 fun _ => mediaStreamId
  induction peers generalizing srv with
  | nil => exact ⟨fun _ => ⟨srv, rfl, .refl srv⟩, fun ⟨_, inside, _⟩ => absurd inside List.not_mem_nil⟩
  | cons peer peers ih =>
      by_cases first : (srv.sessions peer.1).maxChunkSize = 0
      · refine ⟨fun all => absurd first (all peer List.mem_cons_self), fun _ => ?_⟩
        exact bind_error (within_stuck sends first) _
      · obtain ⟨srv₁, told, kept⟩ := within_replies (x := peer.1) sends srv first
        obtain ⟨rest, stuck⟩ := ih srv₁
        simp only at told
        simp only [kept.sizes] at rest stuck
        constructor
        · intro all
          obtain ⟨srv₂, done, kept'⟩ := rest (List.forall_mem_cons.mp all).2
          exact ⟨srv₂, bind_ok.mpr ⟨srv₁, told, done⟩, kept.trans kept'⟩
        · rintro ⟨other, inside, none⟩
          rcases List.mem_cons.mp inside with rfl | inside
          · exact absurd none first
          · rw [List.foldlM_cons, told]
            exact stuck ⟨other, inside, none⟩

theorem setStream_none_absent {srv : Server} {url : Bytes} (absent : srv.streams url = none)
    (gone : Bytes) : (srv.setStream gone none).streams url = none := by
  simp only [setStream, Function.update_apply]
  split
  · rfl
  · exact absent

/-- Leaving returns if the peers that are told have room, and registers nothing. -/
theorem leaveStream_ends (srv : Server) (x : SessionId) :
    (srv.LeavesRoom x → ∃ srv', srv.leaveStream x = .ok srv' ∧
      ∀ url, srv.streams url = none → srv'.streams url = none) ∧
    (¬ srv.LeavesRoom x → srv.leaveStream x = .error .diverges) := by
  unfold leaveStream LeavesRoom
  simp only
  split
  · next absent =>
      refine ⟨fun _ => ⟨srv, rfl, fun _ => id⟩, fun stuck => ?_⟩
      refine absurd (fun st found => ?_) stuck
      rw [absent] at found
      cases found
  next st found =>
  generalize noted : ((srv.setStream (srv.sessions x).url (some (st.leave x))).emit _) = srv₁
  have sessions : srv₁.sessions = srv.sessions := by
    rw [← noted]
    rfl
  have fresh : ∀ url, srv.streams url = none → srv₁.streams url = none := by
    intro url absent
    have other : url ≠ (srv.sessions x).url := by
      rintro rfl
      rw [absent] at found
      cases found
    rw [← noted]
    simp only [emit, setStream, Function.update_of_ne other, absent]
  have dropped : ∀ srv₂ : Server, (∀ url, srv.streams url = none → srv₂.streams url = none) →
      ∀ url, srv.streams url = none →
        (if (st.leave x).count = 0 then srv₂.setStream (srv.sessions x).url none
          else srv₂).streams url = none := by
    intro srv₂ fresh url absent
    split
    · exact setStream_none_absent (fresh url absent) _
    · exact fresh url absent
  by_cases publishes : st.publisher = some x
  · obtain ⟨ends, stuck⟩ := tell_ends { srv₁ with media := srv₁.media.erase st.cid }
      (st.leave x).peers.entries
    simp only [publishes, if_true]
    constructor
    · intro all
      obtain ⟨srv₂, told, kept⟩ := ends fun peer inside => by
        simp only [sessions]
        exact all st found publishes peer inside
      refine ⟨_, bind_ok.mpr ⟨srv₂, told, rfl⟩, dropped srv₂ fun url absent => ?_⟩
      rw [kept.streams]
      exact fresh url absent
    · intro some
      refine bind_error (stuck ?_) _
      by_contra none
      refine some fun st' found' _ => ?_
      rw [found] at found'
      cases found'
      exact fun peer inside zero => none ⟨peer, inside, by simpa only [sessions] using zero⟩
  · simp only [publishes, if_false]
    constructor
    · exact fun _ => ⟨_, rfl, dropped srv₁ fresh⟩
    · intro some
      refine absurd (fun st' found' publishes' => ?_) some
      rw [found] at found'
      cases found'
      exact absurd publishes' publishes

end Server

/-- The branches of `handle_command_message`. -/
inductive Branch where
  | connect
  | createStream
  | releaseStream
  | deleteStream
  | fcPublish
  | fcUnpublish
  | getStreamLength
  | publish
  | play
  | unimplemented
  deriving DecidableEq

namespace Server

variable {x : SessionId}

/-- The branch that a command takes in a state. -/
def Command.branch (c : Command) (state : SessionState) : Branch :=
  if c.name = ascii "connect" ∧ state = .connect then .connect
  else if c.name = ascii "createStream" ∧ state = .createStream then .createStream
  else if c.name = ascii "releaseStream" then .releaseStream
  else if c.name = ascii "deleteStream" then .deleteStream
  else if c.name = ascii "FCPublish" then .fcPublish
  else if c.name = ascii "FCUnpublish" then .fcUnpublish
  else if c.name = ascii "getStreamLength" then .getStreamLength
  else if c.name = ascii "publish" ∧ state = .publishPlay then .publish
  else if c.name = ascii "play" ∧ state = .publishPlay then .play
  else .unimplemented

/-- What the branch does. -/
def runBranch (env : Env) (srv : Server) (x : SessionId) (c : Command) : Branch → Except Fault Server
  | .connect => srv.commandConnect x c.args
  | .createStream => srv.commandCreateStream x c.marker (c.tid.getD env.indeterminate)
  | .releaseStream => srv.commandReleaseStream x c.args
  | .deleteStream => do
      let (_, sb) ← Amf0Data.readNull c.args
      let _ ← Amf0Data.readNumber sb
      pure srv
  | .fcPublish => srv.commandFCPublish x c.args
  | .fcUnpublish => srv.commandFCUnpublish x c.args
  | .getStreamLength | .unimplemented => pure srv
  | .publish => srv.commandPublish x c.args
  | .play => srv.commandPlay x c.args

theorem runCommand_branch (env : Env) (srv : Server) (x : SessionId) (c : Command) :
    srv.runCommand env x c = srv.runBranch env x c (c.branch (srv.sessions x).state) := by
  simp only [runCommand, Command.branch, apply_ite (srv.runBranch env x c)]
  rfl

/-! ## The branches -/

/-- A string stands behind a null, as the name in every stream command should. -/
def HasName (sb : SimpleBuffer) : Prop :=
  ∃ found sb' name rest, Amf0Data.readNull sb = .ok (found, sb') ∧
    Amf0Data.readString sb' = .ok (some name, rest)

/-- Two strings do: the name and the publishing type. -/
def HasNameAndType (sb : SimpleBuffer) : Prop :=
  ∃ found sb₁ name sb₂ type rest, Amf0Data.readNull sb = .ok (found, sb₁) ∧
    Amf0Data.readString sb₁ = .ok (some name, sb₂) ∧ Amf0Data.readString sb₂ = .ok (some type, rest)

/-- The command has every field that its branch uses. -/
def Command.Complete (c : Command) : Branch → Prop
  | .connect => ∃ app, ConnectArgs c.args app
  | .createStream => c.tid ≠ none
  | .publish => HasNameAndType c.args
  | .releaseStream | .fcPublish | .fcUnpublish | .play => HasName c.args
  | .deleteStream | .getStreamLength | .unimplemented => True

/-- The url of the stream that the command names. -/
def Names (srv : Server) (x : SessionId) (c : Command) (url : Bytes) : Branch → Prop
  | .publish => ∃ cid app, PublishArgs c.args cid app ∧ url = urlOf app cid
  | .releaseStream | .fcPublish | .fcUnpublish | .play =>
      ∃ cid, NameArgs c.args cid ∧ url = urlOf (srv.sessions x).app cid
  | .connect | .createStream | .deleteStream | .getStreamLength | .unimplemented => False

/-- A hexadecimal number. -/
def IsHex (id : Bytes) : Prop := id ≠ [] ∧ ∀ c ∈ id, (hexDigit c).isSome

/-- The command is complete, and the id of the stream it names is hex. -/
def WellFormed (srv : Server) (x : SessionId) (c : Command) (b : Branch) : Prop :=
  c.Complete b ∧ ∀ url, srv.Names x c url b → IsHex (RtmpStream.nameOf url)

/-- No null value is dereferenced and no exception escapes. -/
def Contained {α : Type} (done : Except Fault α) : Prop :=
  done ≠ .error .nullDereference ∧ done ≠ .error .outOfRange

instance {α : Type} (done : Except Fault α) : Decidable (Contained done) :=
  match done with
  | .ok _ => .isTrue ⟨nofun, nofun⟩
  | .error f => decidable_of_iff (f ≠ .nullDereference ∧ f ≠ .outOfRange) (by simp [Contained])

/-- It returns, and there is no new entry in `streams_`. -/
def Registers (srv : Server) (done : Except Fault Server) : Prop :=
  ∃ srv', done = .ok srv' ∧ ∀ url, srv.streams url = none → srv'.streams url = none

/-- Entering the stream `url` is as it should be: if the command is well-formed, the id is below 2^64
    or the stream is there; if not, the stream is there, and there is room to say so. -/
def EntersWell (srv : Server) (x : SessionId) (url : Bytes) (formed : Prop) : Prop :=
  (formed → srv.Enterable url) ∧
    (¬ formed → srv.streams url ≠ none ∧ (srv.sessions x).maxChunkSize ≠ 0)

/-- What a branch needs. -/
def Fits (srv : Server) (x : SessionId) (c : Command) (b : Branch) : Prop :=
  match b with
  | .connect => ∃ app, ConnectArgs c.args app
  | .createStream => c.tid ≠ none ∨ (srv.sessions x).maxChunkSize ≠ 0
  | .releaseStream | .fcPublish => ∃ cid, NameArgs c.args cid
  | .fcUnpublish => ∃ cid, NameArgs c.args cid ∧
      (srv.WellFormed x c b ∨ (srv.sessions x).cid ≠ cid ∨ srv.LeavesRoom x)
  | .publish => ∃ cid app, PublishArgs c.args cid app ∧
      srv.EntersWell x (urlOf app cid) (srv.WellFormed x c b)
  | .play => ∃ cid, NameArgs c.args cid ∧
      srv.EntersWell x (urlOf (srv.sessions x).app cid) (srv.WellFormed x c b)
  | .deleteStream | .getStreamLength | .unimplemented => True

/-- The branch is contained, and registers nothing if the command is not well-formed. -/
def BranchSafe (srv : Server) (x : SessionId) (c : Command) (b : Branch)
    (done : Except Fault Server) : Prop :=
  Contained done ∧ (¬ srv.WellFormed x c b → srv.Registers done)

variable {srv : Server} {c : Command} {env : Env} {done : Except Fault Server}

theorem Contained.ok {α : Type} (value : α) : Contained (.ok value : Except Fault α) := ⟨nofun, nofun⟩

theorem Contained.diverges {α : Type} : Contained (.error .diverges : Except Fault α) := ⟨nofun, nofun⟩

theorem BranchSafe.returns {b : Branch} {srv' : Server} (ran : done = .ok srv')
    (kept : ∀ url, srv.streams url = none → srv'.streams url = none) : srv.BranchSafe x c b done := by
  subst ran
  exact ⟨.ok srv', fun _ => ⟨srv', rfl, kept⟩⟩

theorem BranchSafe.has {b : Branch} {P : Prop} (safe : srv.BranchSafe x c b done)
    (complete : c.Complete b → P) (returned : ∀ srv', done = .ok srv' → P) : P := by
  by_contra none
  obtain ⟨srv', ran, _⟩ := safe.2 fun formed => none (complete formed.1)
  exact none (returned srv' ran)

theorem Admits.safe_iff {url : Bytes} {b : Branch} (admits : Admits srv x url done) :
    srv.BranchSafe x c b done ↔ srv.EntersWell x url (srv.WellFormed x c b) := by
  by_cases enterable : srv.Enterable url
  · by_cases room : (srv.sessions x).maxChunkSize = 0
    · rw [admits.stuck enterable room]
      constructor
      · rintro ⟨_, registers⟩
        refine ⟨fun _ => enterable, fun malformed => ?_⟩
        obtain ⟨_, ran, _⟩ := registers malformed
        cases ran
      · rintro ⟨_, registered⟩
        exact ⟨.diverges, fun malformed => absurd room (registered malformed).2⟩
    · obtain ⟨srv', ran, entered, others⟩ := admits.answered enterable room
      constructor
      · rintro ⟨_, registers⟩
        refine ⟨fun _ => enterable, fun malformed => ⟨fun absent => ?_, room⟩⟩
        obtain ⟨_, again, kept⟩ := registers malformed
        cases ran.symm.trans again
        exact entered (kept url absent)
      · rintro ⟨_, registered⟩
        rw [ran]
        refine ⟨.ok srv', fun malformed => ⟨srv', rfl, fun other absent => ?_⟩⟩
        have different : other ≠ url := by
          rintro rfl
          exact (registered malformed).1 absent
        rw [others other different, absent]
  · rw [admits.refused enterable]
    constructor
    · exact fun ⟨contained, _⟩ => absurd rfl contained.2
    · rintro ⟨formed, malformed⟩
      by_cases well : srv.WellFormed x c b
      · exact absurd (formed well) enterable
      · exact absurd (.inl (malformed well).1) enterable

theorem readMarker_ends (marker : UInt8) (sb : SimpleBuffer) :
    ∃ result, Amf0Data.readMarker marker sb = .ok result := by
  obtain ⟨front, rest⟩ := sb
  cases rest with
  | nil => exact ⟨_, rfl⟩
  | cons m b => exact ⟨_, Amf0Data.readMarker_any front marker m⟩

theorem readNumber_ends (sb : SimpleBuffer) : ∃ result, Amf0Data.readNumber sb = .ok result := by
  obtain ⟨⟨found, front, rest⟩, marked⟩ := readMarker_ends Amf0Marker.number sb
  rw [Amf0Data.readNumber, marked]
  cases found with
  | false => exact ⟨_, rfl⟩
  | true =>
      rcases Nat.lt_or_ge rest.length 8 with short | enough
      · have missing := Amf0Data.require_short front short
        change SimpleBuffer.require _ 8 = _ at missing
        exact ⟨(none, ⟨front, rest⟩), by simp [missing, bind, Except.bind, pure, Except.pure]⟩
      · have there := Amf0Data.require_enough front enough
        have taken := SimpleBuffer.take_enough front enough
        change SimpleBuffer.require _ 8 = _ at there
        exact ⟨_, by simp [there, SimpleBuffer.read8bytes, taken, bind, Except.bind, pure,
          Except.pure]; rfl⟩

theorem HasName.args {sb : SimpleBuffer} (named : HasName sb) : ∃ cid, NameArgs sb cid := by
  obtain ⟨_, _, name, rest, null, string⟩ := named
  exact ⟨name, rest, bind_ok.mpr ⟨_, null, bind_ok.mpr ⟨_, string, rfl⟩⟩⟩

theorem HasNameAndType.args {sb : SimpleBuffer} (named : HasNameAndType sb) :
    ∃ cid app, PublishArgs sb cid app := by
  obtain ⟨_, _, name, _, type, rest, null, string, again⟩ := named
  exact ⟨name, type, _, _, rest, bind_ok.mpr ⟨_, null, bind_ok.mpr ⟨_, string, rfl⟩⟩, again, rfl⟩

theorem Admits.of_kept {srv₀ : Server} {url : Bytes} (kept : Kept srv srv₀)
    (admits : Admits srv₀ x url done) : Admits srv x url done := by
  have enterable : srv.Enterable url ↔ srv₀.Enterable url := by
    unfold Enterable
    rw [kept.streams]
  constructor
  · rw [enterable, ← kept.sizes x, ← kept.streams]
    exact admits.answered
  · rw [enterable, ← kept.sizes x]
    exact admits.stuck
  · rw [enterable]
    exact admits.refused

theorem commandPublish_admits {sb : SimpleBuffer} {cid app : Bytes} (args : PublishArgs sb cid app) :
    Admits srv x (urlOf app cid) (srv.commandPublish x sb) := by
  obtain ⟨sb', type, rest, name, read, rfl⟩ := args
  have replies : Replies x (fun srv => do
      let srv ← srv.sendOnStatus x "status" "NetStream.Publish.Start" "Start publishing"
      pure ((srv.set x { srv.sessions x with state := .mediaTransfer }).emit (.published x))) :=
    (sendOnStatus_replies _ _ _).bind (moved_replies _ _)
  generalize stored : srv.set x
    { srv.sessions x with app := type.getD [], cid, url := urlOf (type.getD []) cid } = srv₀
  have kept : Kept srv srv₀ := stored ▸ Kept.set rfl
  have url : (srv₀.sessions x).url = urlOf (type.getD []) cid := by
    rw [← stored, set_sessions]
  have admits := joinStream_admits srv₀ true (·.current.streamId) replies
  rw [url] at admits
  rw [commandPublish, name]
  change Admits srv x _ (Amf0Data.readString sb' >>= _)
  rw [read]
  simp only [bind, Except.bind] at admits ⊢
  rw [stored]
  exact admits.of_kept kept

theorem commandPlay_admits {sb : SimpleBuffer} {cid : Bytes} (args : NameArgs sb cid) :
    Admits srv x (urlOf (srv.sessions x).app cid) (srv.commandPlay x sb) := by
  obtain ⟨rest, name⟩ := args
  have replies : Replies x (fun srv => do
      let srv ← srv.sendOnStatus x "status" "NetStream.Play.Reset" "Reset play"
      let srv ← srv.sendOnStatus x "status" "NetStream.Play.Start" "Start play"
      pure ((srv.set x { srv.sessions x with state := .mediaTransfer }).emit (.played x))) :=
    (sendOnStatus_replies _ _ _).bind ((sendOnStatus_replies _ _ _).bind (moved_replies _ _))
  generalize stored : srv.set x
    { srv.sessions x with cid, url := urlOf (srv.sessions x).app cid } = srv₀
  have kept : Kept srv srv₀ := stored ▸ Kept.set rfl
  have url : (srv₀.sessions x).url = urlOf (srv.sessions x).app cid := by
    rw [← stored, set_sessions]
  have admits := joinStream_admits srv₀ false (·.current.streamId) replies
  rw [url] at admits
  rw [commandPlay, name]
  simp only [bind, Except.bind] at admits ⊢
  rw [stored]
  exact admits.of_kept kept

theorem BranchSafe.named {b : Branch} {next : Bytes × SimpleBuffer → Except Fault Server}
    (safe : srv.BranchSafe x c b (readName c.args >>= next)) (complete : c.Complete b → HasName c.args) :
    ∃ cid, NameArgs c.args cid := by
  refine safe.has (fun all => (complete all).args) fun srv' ran => ?_
  obtain ⟨⟨cid, rest⟩, name, _⟩ := bind_ok.mp ran
  exact ⟨cid, rest, name⟩

theorem connect_safe_iff : srv.BranchSafe x c .connect (srv.commandConnect x c.args) ↔
    srv.Fits x c .connect := by
  constructor
  · intro safe
    refine safe.has id fun srv' ran => ?_
    obtain ⟨app, _, _, args, _⟩ := commandConnect_ok ran
    exact ⟨app, args⟩
  · rintro ⟨app, args⟩
    obtain ⟨srv', ran, streams⟩ := commandConnect_answers args
    exact .returns ran fun url absent => by rw [streams, absent]

theorem createStream_safe_iff : srv.BranchSafe x c .createStream
    (srv.commandCreateStream x c.marker (c.tid.getD env.indeterminate)) ↔
      srv.Fits x c .createStream := by
  constructor
  · intro safe
    by_contra neither
    obtain ⟨none, stuck⟩ := not_or.mp neither
    obtain ⟨_, ran, _⟩ := safe.2 fun formed => none formed.1
    have endless : srv.commandCreateStream x c.marker (c.tid.getD env.indeterminate) = _ :=
      commandCreateStream_stuck _ _ (not_not.mp stuck)
    cases endless.symm.trans ran
  · intro fits
    by_cases room : (srv.sessions x).maxChunkSize = 0
    · have given := fits.resolve_right (not_not.mpr room)
      refine ⟨?_, fun malformed => absurd ⟨given, fun _ none => none.elim⟩ malformed⟩
      rw [commandCreateStream_stuck _ _ room]
      exact .diverges
    · obtain ⟨srv', ran, streams⟩ :=
        commandCreateStream_answers c.marker (c.tid.getD env.indeterminate) room
      exact .returns ran fun url absent => by rw [streams, absent]

theorem releaseStream_safe_iff : srv.BranchSafe x c .releaseStream (srv.commandReleaseStream x c.args) ↔
    srv.Fits x c .releaseStream := by
  constructor
  · exact fun safe => safe.named id
  · rintro ⟨cid, rest, name⟩
    exact .returns (bind_ok.mpr ⟨_, name, rfl⟩) fun url absent => setStream_none_absent absent _

/-- Leaving is the one branch that may run into another session's chunk size. -/
theorem fcUnpublish_safe_iff : srv.BranchSafe x c .fcUnpublish (srv.commandFCUnpublish x c.args) ↔
    srv.Fits x c .fcUnpublish := by
  obtain ⟨leaves, stuck⟩ := leaveStream_ends srv x
  constructor
  · intro safe
    obtain ⟨cid, rest, name⟩ := safe.named id
    refine ⟨cid, ⟨rest, name⟩, ?_⟩
    by_contra none
    obtain ⟨malformed, none⟩ := not_or.mp none
    obtain ⟨own, full⟩ := not_or.mp none
    obtain ⟨_, ran, _⟩ := safe.2 malformed
    obtain ⟨_, again, left⟩ := bind_ok.mp ran
    cases name.symm.trans again
    simp only [not_not.mp own, if_true, stuck full] at left
    cases left
  · rintro ⟨cid, ⟨rest, name⟩, fits⟩
    by_cases own : (srv.sessions x).cid = cid
    · have runs : srv.commandFCUnpublish x c.args = srv.leaveStream x := by
        rw [commandFCUnpublish, name]
        exact if_pos own
      rw [runs]
      by_cases room : srv.LeavesRoom x
      · obtain ⟨srv', ran, kept⟩ := leaves room
        exact .returns ran kept
      · rw [stuck room]
        have formed := fits.resolve_right (not_or.mpr ⟨not_not.mpr own, room⟩)
        exact ⟨.diverges, fun malformed => absurd formed malformed⟩
    · exact .returns (bind_ok.mpr ⟨_, name, if_neg own⟩) fun _ => id

/-- A branch is safe exactly when it finds what it needs. -/
theorem branchSafe_iff (env : Env) (srv : Server) (x : SessionId) (c : Command) (b : Branch) :
    srv.BranchSafe x c b (srv.runBranch env x c b) ↔ srv.Fits x c b := by
  cases b with
  | connect => exact connect_safe_iff
  | createStream => exact createStream_safe_iff
  | releaseStream => exact releaseStream_safe_iff
  | deleteStream =>
      refine iff_of_true ?_ trivial
      obtain ⟨⟨_, sb⟩, null⟩ := readMarker_ends Amf0Marker.null c.args
      obtain ⟨_, number⟩ := readNumber_ends sb
      exact .returns (bind_ok.mpr ⟨_, null, bind_ok.mpr ⟨_, number, rfl⟩⟩) fun _ => id
  | fcPublish =>
      constructor
      · exact fun safe => safe.named id
      · rintro ⟨cid, rest, name⟩
        exact .returns (bind_ok.mpr ⟨_, name, rfl⟩) fun _ => id
  | fcUnpublish => exact fcUnpublish_safe_iff
  | getStreamLength | unimplemented => exact iff_of_true (.returns rfl fun _ => id) trivial
  | publish =>
      constructor
      · intro safe
        obtain ⟨cid, app, args⟩ : ∃ cid app, PublishArgs c.args cid app := by
          refine safe.has HasNameAndType.args fun srv' ran => ?_
          obtain ⟨cid, app, _, _, args, _⟩ := commandPublish_ran ran
          exact ⟨cid, app, args⟩
        exact ⟨cid, app, args, (commandPublish_admits args).safe_iff.mp safe⟩
      · rintro ⟨cid, app, args, well⟩
        exact (commandPublish_admits args).safe_iff.mpr well
  | play =>
      constructor
      · intro safe
        obtain ⟨cid, args⟩ := safe.named id
        exact ⟨cid, args, (commandPlay_admits args).safe_iff.mp safe⟩
      · rintro ⟨cid, args, well⟩
        exact (commandPlay_admits args).safe_iff.mpr well

/-! ## The whole handler -/

/-- The message `x` holds is a command that takes a branch for which this holds. -/
def Reads (srv : Server) (x : SessionId) (P : Command → Branch → Prop) : Prop :=
  ∃ c, readCommand (srv.sessions x).current.data = .ok c ∧ P c (c.branch (srv.sessions x).state)

/-- `handle_command_message` is contained; and if the message cannot be read, lacks a field or names a
    stream by an id that is not hex, it returns a code and there is no new entry in `streams_`. -/
def CommandSafe (env : Env) (srv : Server) (x : SessionId) : Prop :=
  Contained (srv.handleCommandMessage env x) ∧
    (¬ srv.Reads x (srv.WellFormed x) → ∃ ret srv', srv.handleCommandMessage env x = .ok (ret, srv') ∧
      ∀ url, srv.streams url = none → srv'.streams url = none)

section Cleared

variable {cs : RtmpChunkStream} {b : Branch}

theorem cleared_kept : Kept srv (srv.cleared x cs) := .set rfl

theorem wellFormed_cleared : (srv.cleared x cs).WellFormed x c b ↔ srv.WellFormed x c b := by
  unfold WellFormed Names
  rw [cleared, set_sessions]
  rfl

theorem leavesRoom_cleared : (srv.cleared x cs).LeavesRoom x ↔ srv.LeavesRoom x := by
  have kept : Kept srv (srv.cleared x cs) := cleared_kept
  have sizes := kept.sizes
  have url : ((srv.cleared x cs).sessions x).url = (srv.sessions x).url := by
    rw [cleared, set_sessions]
    rfl
  simp only [LeavesRoom, sizes, url]
  rfl

theorem entersWell_cleared {url : Bytes} {formed : Prop} :
    (srv.cleared x cs).EntersWell x url formed ↔ srv.EntersWell x url formed := by
  simp only [EntersWell, Enterable, cleared_kept.sizes, cleared_kept.streams]

theorem fits_cleared : (srv.cleared x cs).Fits x c b ↔ srv.Fits x c b := by
  have app : ((srv.cleared x cs).sessions x).app = (srv.sessions x).app := by
    rw [cleared, set_sessions]
    rfl
  have cid : ((srv.cleared x cs).sessions x).cid = (srv.sessions x).cid := by
    rw [cleared, set_sessions]
    rfl
  cases b with
  | connect | releaseStream | deleteStream | fcPublish | getStreamLength | unimplemented =>
      exact Iff.rfl
  | createStream => simp only [Fits, cleared_kept.sizes]
  | fcUnpublish => simp only [Fits, wellFormed_cleared, leavesRoom_cleared, cid]
  | publish => simp only [Fits, wellFormed_cleared, entersWell_cleared]
  | play => simp only [Fits, wellFormed_cleared, entersWell_cleared, app]

end Cleared

end Server

open Server

/-- In any state of the server, a command message with any payload is handled safely exactly when it
    can be read and its branch finds what it needs. -/
theorem command_safe_iff (env : Env) (srv : Server) (x : SessionId)
    (command : (srv.sessions x).current.type = 20) :
    srv.CommandSafe env x ↔ srv.Reads x (srv.Fits x) := by
  -- a message of type 20 is in an entry of `cs_in`: a missing one reads as type 0
  obtain ⟨cs, present⟩ : ∃ cs, (srv.sessions x).csIn (srv.sessions x).csid = some cs := by
    rw [← Option.ne_none_iff_exists']
    intro absent
    rw [RtmpSession.current, absent] at command
    cases command
  have cleared : srv.within x (·.clearCurrent) = .ok (srv.cleared x cs) :=
    within_run (by rw [RtmpSession.clearCurrent, present])
  have state : ((srv.cleared x cs).sessions x).state = (srv.sessions x).state := by
    rw [Server.cleared, set_sessions]
    rfl
  unfold CommandSafe Reads handleCommandMessage
  simp only [cleared]
  cases read : readCommand (srv.sessions x).current.data with
  | error f =>
      refine iff_of_false ?_ ?_
      · rintro ⟨_, returns⟩
        obtain ⟨_, _, ran, _⟩ := returns (by rintro ⟨c, again, _⟩; cases again)
        cases ran
      · rintro ⟨c, again, _⟩
        cases again
  | ok c =>
      have branch := branchSafe_iff env (srv.cleared x cs) x c (c.branch (srv.sessions x).state)
      rw [fits_cleared] at branch
      have runs := runCommand_branch env (srv.cleared x cs) x c
      rw [state] at runs
      have one : ∀ {P : Command → Branch → Prop}, (∃ c', (.ok c : Except Fault Command) = .ok c' ∧
          P c' (c'.branch (srv.sessions x).state)) ↔ P c (c.branch (srv.sessions x).state) := by
        intro P
        constructor
        · rintro ⟨_, same, holds⟩
          cases same
          exact holds
        · exact fun holds => ⟨c, rfl, holds⟩
      rw [one, one, ← branch, BranchSafe, wellFormed_cleared]
      simp only [bind, Except.bind, runs, pure, Except.pure]
      generalize runBranch env (srv.cleared x cs) x c _ = done
      have streams : (srv.cleared x cs).streams = srv.streams := rfl
      cases done <;> simp [Contained, Registers, streams]

/-- A session that has come this far and is to handle this message. -/
def commanded (before : List Label) (message : Bytes) : Server :=
  ((machine false).run (before ++ [.receive 1 message, .parse 1])).server

set_option maxRecDepth 4000 in
theorem command_safe_iff_getStreamLength :
    (commanded (Peer.enter 1 "live") (Peer.named "getStreamLength" "1")).CommandSafe Peer.env 1 := by
  obtain ⟨command, state, c, read, branch⟩ :
      ((commanded (Peer.enter 1 "live")
        (Peer.named "getStreamLength" "1")).sessions 1).current.type = 20 ∧
      ((commanded (Peer.enter 1 "live") (Peer.named "getStreamLength" "1")).sessions 1).state =
        .publishPlay ∧
      ∃ c, readCommand ((commanded (Peer.enter 1 "live")
        (Peer.named "getStreamLength" "1")).sessions 1).current.data = .ok c ∧
        c.branch .publishPlay = .getStreamLength := by
    decide +kernel
  refine (command_safe_iff _ _ _ command).mpr ⟨c, read, ?_⟩
  rw [state, branch]
  trivial

set_option maxRecDepth 4000 in
/-- A `connect` without an object dereferences a null pointer, and a `publish` of an id of 17
    hexadecimal digits ends in an exception. -/
theorem commands_unsafe :
    ¬ (commanded (Peer.greet 1) (Peer.command [str "connect", num1])).CommandSafe Peer.env 1 ∧
      ¬ (commanded (Peer.enter 1 "live")
        (Peer.publish "fffffffffffffffff" "live")).CommandSafe Peer.env 1 := by
  constructor
  · rintro ⟨contained, _⟩
    revert contained
    decide +kernel
  · rintro ⟨contained, _⟩
    revert contained
    decide +kernel

end DroneServer
