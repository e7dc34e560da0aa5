import DroneServer.Rtmp.Membership
import DroneServer.Rtmp.Steady

/-! # Sessions that are in no stream

The handlers write to the session they run for and to the peers of the stream it
names, and touch no other. So a session that is in no registered stream, in
particular one that is still in the handshake, is exactly as it was after any
step of another session.
-/

namespace DroneServer

namespace Server

variable {srv srv' : Server} {x y : SessionId}

/-- A session that is in no stream stays as it is, and in none. -/
def Spares (y : SessionId) (srv srv' : Server) : Prop :=
  srv.Gone y → srv'.Gone y ∧ srv'.sessions y = srv.sessions y

section Handlers

variable (other : y ≠ x)
include other

theorem spares_frame : Frame x (Spares y) where
  refl _ gone := ⟨gone, rfl⟩
  trans first second gone :=
    have ⟨between, before⟩ := first gone
    have ⟨after, same⟩ := second between
    ⟨after, same.trans before⟩
  set := by
    intro srv z s placed _ gone
    refine ⟨gone, set_other srv s ?_⟩
    rintro rfl
    obtain self | ⟨url, st, found, inside⟩ := placed
    · exact other self
    · exact gone url st found inside
  rest := by
    intro srv srv' sessions placed gone
    refine ⟨fun url st found inside => ?_, congrFun sessions y⟩
    obtain self | ⟨url', st', found', inside'⟩ := placed y ⟨url, st, found, inside⟩
    · exact other self
    · exact gone url' st' found' inside'

theorem close_other (gone : srv.Gone y) : (srv.close x).sessions y = srv.sessions y := by
  have shut : (srv.set x { srv.sessions x with isOpen := false }).Gone y := gone
  exact ((spares_frame other).close srv shut).2.trans (set_other srv _ other)

theorem dispatch_other (env : Env) (gone : srv.Gone y) :
    (srv.dispatch env x).2.sessions y = srv.sessions y := by
  unfold dispatch
  split
  · rfl
  · next srv₁ counted =>
      obtain ⟨s, _, rfl⟩ := within_ok counted
      have before := set_other srv s other
      simp only
      split
      · exact before
      · next ret srv₂ handled =>
          obtain ⟨still, same⟩ := (spares_frame other).handleChunkStream handled gone
          split
          · have emitted : (srv₂.emit (.result x ret)).Gone y := still
            exact (close_other other emitted).trans (same.trans before)
          · exact same.trans before

theorem parse_other (buf : Bytes) : (srv.parse x buf).2.1.sessions y = srv.sessions y := by
  unfold parse
  split
  · rfl
  · exact set_other srv _ other

omit other in
theorem parse_streams (srv : Server) (x : SessionId) (buf : Bytes) :
    (srv.parse x buf).2.1.streams = srv.streams := by
  unfold parse
  split <;> rfl

theorem shake_other (env : Env) (buf : Bytes) :
    (srv.shake env x buf).2.1.sessions y = srv.sessions y := by
  unfold shake
  simp only
  split <;> split <;> exact set_other srv _ other

end Handlers

end Server

namespace Host

theorem gone {recordForce : Bool} {host : Host} (reached : (machine recordForce).Reachable host)
    {y : SessionId} (early : ¬ (host.server.sessions y).Entered) : host.server.Gone y :=
  fun _ _ found inside => early ((Registry.reachable reached).entered found inside)

theorem step_recvBuf (host : Host) {l : Label} {y : SessionId} (other : y ≠ l.session) :
    (host.step l).recvBuf y = host.recvBuf y := by
  unfold step
  split
  · cases l with
    | accept | dispatch =>
        simp only [perform]
        split <;> rfl
    | receive x data =>
        simp only [perform]
        split
        · exact Function.update_of_ne other _ _
        · rfl
    | shake x | parse x =>
        simp only [perform]
        split
        · split <;> exact Function.update_of_ne other _ _
        · rfl
    | close x => rfl
  · rfl

/-- A step leaves a session it is not about exactly as it was, if that is in no stream. -/
theorem step_other (host : Host) {l : Label} {y : SessionId} (other : y ≠ l.session)
    (gone : host.server.Gone y) :
    (host.step l).server.sessions y = host.server.sessions y ∧
      (host.step l).recvBuf y = host.recvBuf y := by
  refine ⟨?_, host.step_recvBuf other⟩
  unfold step
  split
  · cases l with
    | accept x =>
        simp only [perform]
        split
        · exact Server.set_other _ _ other
        · rfl
    | receive x data =>
        simp only [perform]
        split <;> rfl
    | shake x env =>
        have same : (host.server.shake env x (host.recvBuf x)).2.1.sessions y = _ :=
          Server.shake_other other env (host.recvBuf x)
        simp only [perform]
        split
        · split
          · refine (Server.close_other other ?_).trans same
            intro url st found
            exact gone url st (Server.shake_streams env host.server x _ ▸ found)
          · exact same
        · rfl
    | parse x =>
        have same : (host.server.parse x (host.recvBuf x)).2.1.sessions y = _ :=
          Server.parse_other other (host.recvBuf x)
        simp only [perform]
        split
        · split
          · refine (Server.close_other other ?_).trans same
            intro url st found
            exact gone url st (Server.parse_streams host.server x _ ▸ found)
          · exact same
        · rfl
    | dispatch x env =>
        simp only [perform]
        split
        · exact Server.dispatch_other other env gone
        · rfl
    | close x => exact Server.close_other other gone
  · rfl

end Host

end DroneServer
