import DroneServer.Rtmp.OneStream
import DroneServer.Rtmp.View

/-! # What was heard of a chunk stream

The process with a note, for every chunk stream since it was made, of what its
headers of type 0, 1 and 2 have said. The notes are not part of the program, and
nothing depends on them. What relates notes and memories along a whole run comes
down to the reading of one chunk: `Hears.step`.
-/

namespace DroneServer

namespace RtmpChunkStream

/-- A header of type 0, 1 or 2 is to be read next. -/
def AtHeader (cs : RtmpChunkStream) (fmt : UInt8) : Prop :=
  cs.state = .header ∧ (fmt = 0 ∨ fmt = 1 ∨ fmt = 2)

/-- It is read to its end. -/
def Headed (cs : RtmpChunkStream) (fmt : UInt8) (buf : Bytes) : Prop :=
  cs.AtHeader fmt ∧ HeaderComplete (headerSize fmt) buf

/-- Its time field is there, and is the mark of an extended time. -/
def Sees (cs : RtmpChunkStream) (fmt : UInt8) (buf : Bytes) : Prop :=
  cs.AtHeader fmt ∧ headerSize fmt ≤ buf.length ∧
    timeField (buf.take (headerSize fmt)) = 0xffffff

instance (cs : RtmpChunkStream) (fmt : UInt8) : Decidable (cs.AtHeader fmt) :=
  inferInstanceAs (Decidable (_ ∧ _))

instance (cs : RtmpChunkStream) (fmt : UInt8) (buf : Bytes) : Decidable (cs.Headed fmt buf) :=
  inferInstanceAs (Decidable (_ ∧ _))

instance (cs : RtmpChunkStream) (fmt : UInt8) (buf : Bytes) : Decidable (cs.Sees fmt buf) :=
  inferInstanceAs (Decidable (_ ∧ _ ∧ _))

theorem FullFormat.sized {fmt : UInt8} {size : Nat}
    {assign : Bytes → UInt32 → RtmpChunkStream → RtmpChunkStream}
    (format : FullFormat fmt size assign) : headerSize fmt = size := by
  cases format <;> rfl

theorem FullFormat.types {fmt : UInt8} {size : Nat}
    {assign : Bytes → UInt32 → RtmpChunkStream → RtmpChunkStream}
    (format : FullFormat fmt size assign) : fmt = 0 ∨ fmt = 1 ∨ fmt = 2 := by
  cases format
  · exact .inl rfl
  · exact .inr (.inl rfl)
  · exact .inr (.inr rfl)

end RtmpChunkStream

/-- What the headers of type 0, 1 and 2 said: whether the last one was marked for an extended time,
    and the fields of a message as far as one of them told. -/
structure Heard where
  mark : Option Bool := none
  type : Option UInt8 := none
  len : Option UInt32 := none
  streamId : Option UInt32 := none
  deriving DecidableEq

/-- What is heard with the chunk that follows. -/
def Heard.note (h : Heard) (cs : RtmpChunkStream) (fmt : UInt8) (buf : Bytes) : Heard :=
  if cs.Headed fmt buf then
    let mh := buf.take (RtmpChunkStream.headerSize fmt)
    { mark := some (RtmpChunkStream.timeField mh = 0xffffff)
      type := if fmt = 2 then h.type else some (RtmpChunkStream.headerType mh)
      len := if fmt = 2 then h.len else some (RtmpChunkStream.headerLen mh)
      streamId := if fmt = 0 then some (RtmpChunkStream.headerStream mh) else h.streamId }
  else h

theorem Heard.note_same (h : Heard) {cs : RtmpChunkStream} {fmt : UInt8} {buf : Bytes}
    (unheaded : ¬ cs.Headed fmt buf) : h.note cs fmt buf = h := if_neg unheaded

namespace RtmpSession

/-- What was heard of the current chunk stream; nothing, if the next chunk makes it. -/
def known (s : RtmpSession) (heard : UInt16 → Heard) : Heard :=
  if (s.csIn s.csid).isNone then {} else heard s.csid

/-- The notes once a chunk is read. -/
def hear (s : RtmpSession) (heard : UInt16 → Heard) (buf : Bytes) : UInt16 → Heard :=
  let (s, buf) := s.readBasicHeader buf
  Function.update heard s.csid ((s.known heard).note s.current s.fmt buf)

theorem readChunkStream_readOn (s : RtmpSession) {buf : Bytes} (some : buf ≠ []) :
    s.readChunkStream buf =
      ((s.readBasicHeader buf).1.current.readOn (s.readBasicHeader buf).1.maxChunkSize
        (s.readBasicHeader buf).1.fmt (s.readBasicHeader buf).2).map
          (s.readBasicHeader buf).1.afterPayload := by
  rw [readChunkStream_body s some, readBody_readOn]

end RtmpSession

/-- The notes of all sessions. -/
abbrev Hearing := SessionId → UInt16 → Heard

namespace Host

/-- Only a chunk that is read is noted. -/
def hear (heard : Hearing) (host : Host) : Label → Hearing
  | .parse x =>
      if host.server.crashed = none ∧ host.Parsing x then
        match (host.server.sessions x).readChunkStream (host.recvBuf x) with
        | .ok _ => Function.update heard x
            ((host.server.sessions x).hear (heard x) (host.recvBuf x))
        | .error _ => heard
      else heard
  | .accept _ | .receive _ _ | .shake _ _ | .dispatch _ _ | .close _ => heard

end Host

/-- The process and the notes. -/
def hearing (recordForce : Bool) : Machine (Host × Hearing) Label :=
  (machine recordForce).noting (fun _ _ => {}) Host.hear

/-- A relation holds between what was heard of every chunk stream and its memory. -/
def Hears (R : Heard → RtmpChunkStream → Prop) (state : Host × Hearing) : Prop :=
  ∀ x csid cs, (state.1.server.sessions x).csIn csid = some cs → R (state.2 x csid) cs

/-- The condition holds of the chunk that the step reads, if it reads one: of what was heard of its
    chunk stream, the memory, and the type and bytes of the chunk. -/
def Reading (Q : Heard → RtmpChunkStream → UInt8 → Bytes → Prop) (state : Host × Hearing) :
    Label → Prop
  | .parse x => state.1.server.crashed = none → state.1.Parsing x →
      let (s, buf) := (state.1.server.sessions x).readBasicHeader (state.1.recvBuf x)
      Q (s.known (state.2 x)) s.current s.fmt buf
  | .accept _ | .receive _ _ | .shake _ _ | .dispatch _ _ | .close _ => True

section Relation

variable {R : Heard → RtmpChunkStream → Prop}

theorem known_related {s : RtmpSession} {heard : UInt16 → Heard}
    (fresh : ∀ csid, R {} { csid }) (all : ∀ csid cs, s.csIn csid = some cs → R (heard csid) cs) :
    R (s.known heard) s.current := by
  unfold RtmpSession.known RtmpSession.current
  cases found : s.csIn s.csid with
  | none => exact fresh s.csid
  | some cs => exact all s.csid cs found

theorem Hears.basic {state : Host × Hearing} (fresh : ∀ csid, R {} { csid }) (hears : Hears R state)
    (x : SessionId) (buf : Bytes) :
    R (((state.1.server.sessions x).readBasicHeader buf).1.known (state.2 x))
      ((state.1.server.sessions x).readBasicHeader buf).1.current := by
  refine known_related fresh fun csid cs found => ?_
  rw [((state.1.server.sessions x).readBasicHeader_read buf).2] at found
  exact hears x csid cs found

theorem Host.hear_same {host : Host} {heard : Hearing} {l : Label}
    (unread : ∀ x ret s rest, l = .parse x → host.server.crashed = none → host.Parsing x →
      (host.server.sessions x).readChunkStream (host.recvBuf x) ≠ .ok (ret, s, rest)) :
    Host.hear heard host l = heard := by
  cases l with
  | parse x =>
      by_cases enabled : host.server.crashed = none ∧ host.Parsing x
      · simp only [hear, enabled, and_self, if_true]
        split
        · next read => exact absurd read (unread x _ _ _ rfl enabled.1 enabled.2)
        · rfl
      · simp only [hear, enabled, if_false]
  | accept | receive | shake | dispatch | close => rfl

/-- Reading a chunk: the memory of its chunk stream and the note about it, and nothing else. -/
theorem Host.step_parse_read {host : Host} {x : SessionId} {ret : Ret} {s : RtmpSession}
    {rest : Bytes} (running : host.server.crashed = none) (parsing : host.Parsing x)
    (read : (host.server.sessions x).readChunkStream (host.recvBuf x) = .ok (ret, s, rest)) :
    ∃ basic buf cs, (host.server.sessions x).readBasicHeader (host.recvBuf x) = (basic, buf) ∧
      basic.current.readOn basic.maxChunkSize basic.fmt buf = .ok (ret, cs, rest) ∧
      (∀ y, ((host.step (.parse x)).server.sessions y).csIn =
        if y = x then Function.update (host.server.sessions x).csIn basic.csid (some cs)
        else (host.server.sessions y).csIn) ∧
      ∀ heard, Host.hear heard host (.parse x) =
        Function.update heard x (Function.update (heard x) basic.csid
          ((basic.known (heard x)).note basic.current basic.fmt buf)) := by
  have heads := (host.server.sessions x).readBasicHeader_read (host.recvBuf x)
  have through := (host.server.sessions x).readChunkStream_readOn parsing.2.2.2
  have view := host.parse_view running parsing read
  generalize split : (host.server.sessions x).readBasicHeader (host.recvBuf x) = front at *
  obtain ⟨basic, buf⟩ := front
  cases body : basic.current.readOn basic.maxChunkSize basic.fmt buf with
  | error f =>
      simp only [body, Except.map] at through
      cases through.symm.trans read
  | ok result =>
      obtain ⟨ret', cs, rest'⟩ := result
      simp only [body, Except.map] at through
      cases through.symm.trans read
      refine ⟨basic, buf, cs, rfl, body, fun y => ?_, fun heard => ?_⟩
      · have decoder : ((host.step (.parse x)).server.sessions y).csIn =
            ((host.server.viewWith x _ []).decoders y).csIn :=
          congrArg (fun v : View => (v.decoders y).csIn) view
        rw [decoder]
        by_cases self : y = x
        · subst self
          rw [if_pos rfl, Server.viewWith, ← heads.2]
          simp only [Function.update_self]
          rfl
        · rw [if_neg self, Server.viewWith]
          simp only [Function.update_of_ne self]
          rfl
      · simp only [Host.hear, running, parsing, and_self, if_true, read, RtmpSession.hear, split]

theorem Server.dispatch_memories {srv : Server} {env : Env} {x y : SessionId} {csid : UInt16}
    {cs' : RtmpChunkStream} (found : ((srv.dispatch env x).2.sessions y).csIn csid = some cs') :
    ∃ cs, (srv.sessions y).csIn csid = some cs ∧ (cs' = cs ∨ cs' = cs.clear) := by
  change ((srv.dispatch env x).2.view.decoders y).csIn csid = some cs' at found
  by_cases self : y = x
  · subst self
    have kept : (srv.sessions y).decoder.csIn csid = some cs' →
        ∃ cs, (srv.sessions y).csIn csid = some cs ∧ (cs' = cs ∨ cs' = cs.clear) :=
      fun old => ⟨cs', old, .inl rfl⟩
    have cleared : ∀ {cs} {d : UInt16 → Option RtmpChunkStream},
        (srv.sessions y).csIn (srv.sessions y).csid = some cs →
        (∀ cs', d csid = some cs' → (srv.sessions y).csIn csid = some cs') →
        Function.update d (srv.sessions y).csid (some cs.clear) csid = some cs' →
        ∃ cs, (srv.sessions y).csIn csid = some cs ∧ (cs' = cs ∨ cs' = cs.clear) := by
      intro cs d present within found
      by_cases here : csid = (srv.sessions y).csid
      · subst here
        rw [Function.update_self] at found
        exact ⟨cs, present, .inr (Option.some.inj found).symm⟩
      · rw [Function.update_of_ne here] at found
        exact ⟨cs', within cs' found, .inl rfl⟩
    obtain ⟨d, es, handled, view⟩ | ⟨_, _, es, _, view⟩ := srv.dispatch_view env y <;>
      rw [view] at found <;>
      simp only [viewWith, Function.update_self] at found
    · generalize (srv.dispatch env y).1 = ret at handled
      cases handled with
      | sized _ _ _ present | cleared _ _ present | connected _ present =>
          exact cleared present (fun _ old => old) found
      | @aborted _ id _ _ _ _ present =>
          refine cleared present (fun cs' old => ?_) found
          simp only [RtmpSession.Decoder.drop] at old
          by_cases erased : csid = id.toUInt16
          · subst erased
            rw [Function.update_self] at old
            cases old
          · rwa [Function.update_of_ne erased] at old
      | kept => exact kept found
    · exact kept found
  · obtain ⟨d, es, _, view⟩ | ⟨_, _, es, _, view⟩ := srv.dispatch_view env x <;>
      rw [view] at found <;>
      simp only [viewWith, Function.update_of_ne self] at found <;>
      exact ⟨cs', found, .inl rfl⟩

/-- A relation that a fresh memory and a cleared one keep holds after a step if it holds of the chunk
    that the step reads. -/
theorem Hears.step {state : Host × Hearing} (fresh : ∀ csid, R {} { csid })
    (clears : ∀ {h cs}, R h cs → R h cs.clear) (hears : Hears R state) (recordForce : Bool)
    {l : Label}
    (reads : Reading (fun h cs fmt buf => ∀ n ret cs' rest, R h cs →
      cs.readOn n fmt buf = .ok (ret, cs', rest) → R (h.note cs fmt buf) cs') state l) :
    Hears R ((hearing recordForce).step state l) := by
  obtain ⟨host, heard⟩ := state
  change Hears R (host.step l, Host.hear heard host l)
  by_cases read : ∃ x ret s rest, l = .parse x ∧ host.server.crashed = none ∧ host.Parsing x ∧
      (host.server.sessions x).readChunkStream (host.recvBuf x) = .ok (ret, s, rest)
  · obtain ⟨x, ret, s, rest, rfl, running, parsing, read⟩ := read
    obtain ⟨basic, buf, cs, split, body, memories, notes⟩ :=
      host.step_parse_read running parsing read
    have before := hears.basic fresh x (host.recvBuf x)
    have reads := reads running parsing
    simp only [split] at before reads
    have after := reads basic.maxChunkSize ret cs rest before body
    intro y csid cs' found
    simp only [memories, notes] at found ⊢
    by_cases self : y = x
    · subst self
      rw [if_pos rfl] at found
      rw [Function.update_self]
      by_cases here : csid = basic.csid
      · subst here
        rw [Function.update_self] at found ⊢
        cases found
        exact after
      · rw [Function.update_of_ne here] at found ⊢
        exact hears y csid cs' found
    · rw [if_neg self] at found
      rw [Function.update_of_ne self]
      exact hears y csid cs' found
  · rw [Host.hear_same fun x ret s rest parse running parsing done =>
      read ⟨x, ret, s, rest, parse, running, parsing, done⟩]
    intro y csid cs' found
    obtain view | ⟨x, ret, s, rest, parse, running, parsing, done⟩ | ⟨x, env, rfl, ready, done⟩ :=
      host.step_view l
    · have same : ((host.step l).server.sessions y).csIn = (host.server.sessions y).csIn :=
        congrArg (fun v : View => (v.decoders y).csIn) view
      rw [same] at found
      exact hears y csid cs' found
    · exact absurd ⟨x, ret, s, rest, parse, running, parsing, done⟩ read
    · rw [done] at found
      obtain ⟨cs, old, rfl | rfl⟩ := Server.dispatch_memories found
      · exact hears y csid _ old
      · exact clears (hears y csid _ old)

end Relation

end DroneServer
