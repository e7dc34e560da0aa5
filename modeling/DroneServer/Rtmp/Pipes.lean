import DroneServer.Rtmp.Isolation
import DroneServer.Rtmp.Outcome

/-! # Who stays on a drone's pipe

A pipe goes with all its writers when the publisher of a stream of its drone leaves
that stream, whoever added them. Nothing else takes a writer off a pipe on the
streaming side: looking a pipe up makes it at most, and recording adds to it.
-/

namespace DroneServer

namespace MediaManager

/-- The writers of the pipe that `pipe(cid)` returns. -/
def writers (mm : MediaManager) (cid : ClientId) : List WriterId := (mm.pipe cid).1.writers

/-- Every writer of the drone's pipe is still on it. -/
def Retains (mm mm' : MediaManager) (cid : ClientId) : Prop :=
  ∀ w ∈ mm.writers cid, w ∈ mm'.writers cid

variable {mm mm' mm'' : MediaManager} {cid c : ClientId} {v w : WriterId}

theorem writers_eq (mm : MediaManager) (cid : ClientId) :
    mm.writers cid = ((mm.recs cid).map (·.writers)).getD [] := by
  unfold writers pipe
  split <;> simp [*]

theorem writers_congr (same : mm'.recs cid = mm.recs cid) : mm'.writers cid = mm.writers cid := by
  rw [writers_eq, same, ← writers_eq]

theorem writers_pipe (mm : MediaManager) (c cid : ClientId) :
    (mm.pipe c).2.writers cid = mm.writers cid := by
  by_cases other : cid = c
  · subst other
    rw [writers_eq, writers_eq]
    unfold pipe
    split
    · rfl
    · next none =>
        simp only [Function.update_self, none]
        rfl
  · exact writers_congr (pipe_other mm other)

theorem writers_update (recs : ClientId → Option MediaCopypipe) (c cid : ClientId)
    (p : MediaCopypipe) :
    (MediaManager.mk (Function.update recs c (some p))).writers cid =
      if cid = c then p.writers else (MediaManager.mk recs).writers cid := by
  rw [writers_eq, writers_eq]
  by_cases same : cid = c
  · subst same
    simp only [Function.update_self, if_true]
    rfl
  · simp only [Function.update_of_ne same, if_neg same]

theorem mem_addWriter :
    v ∈ (mm.addWriter c w).writers cid ↔ cid = c ∧ v = w ∨ v ∈ mm.writers cid := by
  have added : (mm.addWriter c w).writers cid =
      if cid = c then ((mm.pipe c).1.addWriter w).writers else (mm.pipe c).2.writers cid :=
    writers_update (mm.pipe c).2.recs c cid _
  rw [added, writers_pipe]
  split
  · next same =>
      subst same
      change v ∈ ((mm.pipe cid).1.addWriter w).writers ↔ _ ∨ v ∈ (mm.pipe cid).1.writers
      unfold MediaCopypipe.addWriter
      split
      · next present =>
          refine ⟨.inr, ?_⟩
          rintro (⟨_, rfl⟩ | inside)
          · exact present
          · exact inside
      · rw [List.mem_append, List.mem_singleton, or_comm]
        simp only [true_and]
  · next other => exact ⟨.inr, fun inside => inside.resolve_left fun here => other here.1⟩

theorem mem_delWriter :
    v ∈ (mm.delWriter c w).writers cid ↔ v ∈ mm.writers cid ∧ (cid = c → v ≠ w) := by
  have deleted : (mm.delWriter c w).writers cid =
      if cid = c then ((mm.pipe c).1.delWriter w).writers else (mm.pipe c).2.writers cid :=
    writers_update (mm.pipe c).2.recs c cid _
  rw [deleted, writers_pipe]
  split
  · next same =>
      subst same
      simp only [MediaCopypipe.delWriter, List.mem_filter, decide_eq_true_eq, true_implies]
      exact .rfl
  · next other => exact ⟨fun inside => ⟨inside, fun here => absurd here other⟩, fun both => both.1⟩

theorem Retains.refl (mm : MediaManager) (cid : ClientId) : mm.Retains mm cid :=
  fun _ inside => inside

theorem Retains.trans (first : mm.Retains mm' cid) (second : mm'.Retains mm'' cid) :
    mm.Retains mm'' cid := fun w inside => second w (first w inside)

theorem retains_addWriter (mm : MediaManager) (c cid : ClientId) (w : WriterId) :
    mm.Retains (mm.addWriter c w) cid := fun _ inside => mem_addWriter.mpr (.inr inside)

theorem retains_pipe (mm : MediaManager) (c cid : ClientId) : mm.Retains (mm.pipe c).2 cid := by
  intro w inside
  rwa [writers_pipe]

theorem retains_erase (other : cid ≠ c) : mm.Retains (mm.erase c) cid := by
  intro w inside
  rwa [writers_congr (erase_other mm other)]

end MediaManager

namespace RtmpSession

/-- What the session has received is no chunk. -/
def Unreadable (s : RtmpSession) (buf : Bytes) : Prop :=
  ∃ r, s.readChunkStream buf = .ok r ∧ r.1 = .fail

instance (s : RtmpSession) (buf : Bytes) : Decidable (s.Unreadable buf) := by
  unfold Unreadable
  infer_instance

end RtmpSession

namespace Server

/-- The drone of the stream the session publishes under its url. -/
def hosted (srv : Server) (x : SessionId) : Option ClientId :=
  match srv.streams (srv.sessions x).url with
  | some st => if st.publisher = some x then some st.cid else none
  | none => none

/-- The message to be handled is an `FCUnpublish` that names the session's own stream. -/
def Unpublishes (srv : Server) (x : SessionId) : Prop :=
  (srv.sessions x).current.type = 20 ∧
    ∃ c, readCommand (srv.sessions x).current.data = .ok c ∧ c.name = ascii "FCUnpublish" ∧
      ∃ r, readName c.args = .ok r ∧ r.1 = (srv.sessions x).cid

instance (srv : Server) (x : SessionId) : Decidable (srv.Unpublishes x) := by
  unfold Unpublishes
  infer_instance

variable {srv srv' srv₁ : Server} {x : SessionId} {cid : ClientId}

theorem hosted_of (found : srv.streams (srv.sessions x).url = some st)
    (publisher : st.publisher = some x) : srv.hosted x = some st.cid := by
  rw [hosted, found]
  exact if_pos publisher

theorem hosted_congr (streams : srv'.streams = srv.streams)
    (url : (srv'.sessions x).url = (srv.sessions x).url) : srv'.hosted x = srv.hosted x := by
  rw [hosted, hosted, streams, url]

theorem hosted_set {s : RtmpSession} (url : s.url = (srv.sessions x).url) :
    (srv.set x s).hosted x = srv.hosted x :=
  hosted_congr rfl (by rw [set_sessions, url])

theorem cleared_hosted (cs : RtmpChunkStream) : (srv.cleared x cs).hosted x = srv.hosted x :=
  hosted_set rfl

/-- Leaving a stream takes the pipe of no other drone. -/
theorem left_retains {st : RtmpStream} (found : srv.streams (srv.sessions x).url = some st)
    (stays : srv.hosted x ≠ some cid) :
    srv.media.Retains (srv.left (srv.sessions x).url st x).media cid := by
  unfold left mediaWithout
  simp only
  split
  · next publisher =>
      refine MediaManager.retains_erase ?_
      rintro rfl
      exact stays (hosted_of found publisher)
  · exact .refl _ _

theorem quiet_media (same : srv'.quiet = srv.quiet) : srv'.media = srv.media :=
  quiet_agree same media fun _ => rfl

theorem leaveStream_retains (stays : srv.hosted x ≠ some cid)
    (done : srv.leaveStream x = .ok srv') : srv.media.Retains srv'.media cid := by
  obtain ⟨_, rfl⟩ | ⟨st, found, same⟩ := leaveStream_quiet done
  · exact .refl _ _
  · rw [quiet_media same]
    exact left_retains found stays

theorem close_retains (stays : (srv.sessions x).isOpen → srv.hosted x ≠ some cid) :
    srv.media.Retains (srv.close x).media cid := by
  unfold close
  split
  · next isOpen =>
      have same : (srv.set x { srv.sessions x with isOpen := false }).hosted x = srv.hosted x :=
        hosted_set rfl
      have shut := same.trans_ne (stays isOpen)
      simp only
      split
      · next closed =>
          obtain ⟨srv₁, leaving, rest⟩ := bind_ok.mp closed
          cases rest
          have kept := leaveStream_retains shut leaving
          exact kept
      · exact .refl _ _
  · exact .refl _ _

/-- A stream that is made when recording is forced gets a recorder of its own. -/
theorem findStream_media {url : Bytes} {st : RtmpStream}
    (done : srv.findStream url = .ok (st, srv')) (cid : ClientId) :
    srv.media.Retains srv'.media cid ∧ srv.nextWriter ≤ srv'.nextWriter := by
  unfold findStream at done
  split at done
  · cases done
    exact ⟨.refl _ _, le_refl _⟩
  · obtain ⟨made, _, rest⟩ := bind_ok.mp done
    cases rest
    split
    · exact ⟨MediaManager.retains_addWriter _ _ _ _, Nat.le_succ _⟩
    · exact ⟨.refl _ _, le_refl _⟩

theorem Act.nextWriter {may : Grants} (act : Act may x srv srv') :
    srv.nextWriter ≤ srv'.nextWriter := by
  cases act with
  | wrote same => exact (quiet_agree same Server.nextWriter fun _ => rfl).ge
  | entered publisher found => exact (findStream_media found 0).2
  | note | own | advanced | released | departed | closed | relayed | crashed => exact le_refl _

theorem Ran.retains {c : Command} (ran : srv.Ran x c srv')
    (stays : c.name = ascii "FCUnpublish" → NameArgs c.args (srv.sessions x).cid →
      srv.hosted x ≠ some cid) : srv.media.Retains srv'.media cid := by
  cases ran with
  | unpublished named args found => exact left_retains found (stays named args)
  | published _ _ _ _ found | played _ _ _ found => exact (findStream_media found cid).1
  | connected | created | released | renamed | ignored => exact .refl _ _

theorem Outcome.retains {ret : Ret} (fed : srv.Fed) (outcome : srv.Outcome x ret srv')
    (stays : srv.Unpublishes x → srv.hosted x ≠ some cid) : srv.media.Retains srv'.media cid := by
  cases outcome with
  | relayed present found phase accepted =>
      obtain ⟨_, _, rfl | rfl⟩ := RtmpStream.send_fed (fed _ _ found) accepted
      · exact .refl _ _
      · exact MediaManager.retains_pipe _ _ _
  | command present carries ran =>
      refine ran.retains fun named ⟨rest, read⟩ => ?_
      rw [cleared, set_sessions] at read
      exact (cleared_hosted _).trans_ne (stays ⟨carries.1, _, carries.2, named, _, read, rfl⟩)
  | control | unheard | unrouted | refused => exact .refl _ _

theorem Outcome.hosted (outcome : srv.Outcome x .fail srv') : srv'.hosted x = srv.hosted x := by
  cases outcome with
  | unrouted => exact cleared_hosted _
  | refused => rfl

section Counted

theorem Counted.media (counted : srv.Counted x srv₁) : srv₁.media = srv.media := by
  obtain ⟨_, _, same⟩ := counted
  have media := quiet_media same
  exact media

theorem Counted.hosted (counted : srv.Counted x srv₁) : srv₁.hosted x = srv.hosted x :=
  hosted_congr counted.streams counted.url

theorem Counted.fed (counted : srv.Counted x srv₁) (fed : srv.Fed) : srv₁.Fed := by
  intro url st found
  rw [counted.streams] at found
  exact fed url st found

theorem Counted.unpublishes (counted : srv.Counted x srv₁) (unpublishes : srv₁.Unpublishes x) :
    srv.Unpublishes x := by
  have named : (srv₁.sessions x).cid = (srv.sessions x).cid :=
    counted.agree RtmpSession.cid (fun _ => rfl) fun _ _ _ => rfl
  unfold Unpublishes at unpublishes ⊢
  rwa [RtmpSession.current_decoder counted.decoder, named] at unpublishes

end Counted

/-- Handling a message takes the pipe of the session's own drone at most, and only when the session is
    closed for it or unpublishes. -/
theorem dispatch_retains (env : Env) (fed : srv.Fed)
    (stays : srv.Refused x ∨ srv.Unpublishes x → srv.hosted x ≠ some cid) :
    srv.media.Retains (srv.dispatch env x).2.media cid := by
  obtain ⟨f, srv₁, done, begun⟩ | ⟨ret, srv₁, srv₂, srv₃, counted, outcome, refused, same, done⟩ :=
    dispatch_outcome env srv x <;> rw [done]
  · obtain rfl | counted := begun
    · exact .refl _ _
    · have media := counted.media
      simp only [crash, media]
      exact .refl _ _
  · have handled : srv.media.Retains srv₃.media cid := by
      have media : srv₃.media = srv₂.media := quiet_agree same Server.media fun _ => rfl
      rw [media, ← counted.media]
      exact outcome.retains (counted.fed fed) fun unpublishes =>
        counted.hosted.trans_ne (stays (.inr (counted.unpublishes unpublishes)))
    simp only
    split
    · next failed =>
        subst failed
        refine handled.trans (close_retains fun _ => ?_)
        have streams : srv₃.streams = srv₂.streams := quiet_agree same Server.streams fun _ => rfl
        have url : (srv₃.sessions x).url = (srv₂.sessions x).url :=
          quiet_agree same (fun srv => (srv.sessions x).url) fun _ => rfl
        have own := ((hosted_congr streams url).trans outcome.hosted).trans counted.hosted
        exact own.trans_ne (stays (.inl (refused rfl)))
    · exact handled

theorem shake_hosted (env : Env) (srv : Server) (x : SessionId) (buf : Bytes) :
    (srv.shake env x buf).2.1.media = srv.media ∧
      (srv.shake env x buf).2.1.hosted x = srv.hosted x := by
  unfold shake
  simp only
  split <;> split <;> exact ⟨rfl, hosted_set rfl⟩

end Server

namespace Host

/-- The session stops publishing with this step. -/
def Quits (host : Host) : Label → Prop
  | .close x => (host.server.sessions x).isOpen
  | .parse x => host.Parsing x ∧ (host.server.sessions x).Unreadable (host.recvBuf x)
  | .dispatch x _ => host.Ready x ∧ (host.server.Refused x ∨ host.server.Unpublishes x)
  | _ => False

instance (host : Host) (l : Label) : Decidable (host.Quits l) := by
  unfold Quits
  split <;> infer_instance

/-- The drone whose pipe a step takes away. -/
def withdraws (host : Host) (l : Label) : Option ClientId :=
  if host.server.crashed = none ∧ host.Quits l then host.server.hosted l.session else none

variable {host : Host} {l : Label} {cid : ClientId}

theorem hosted_early (reg : Registry host.server) {x : SessionId}
    (early : (host.server.sessions x).state = .init ∨
      (host.server.sessions x).state = .handshakeC2) : host.server.hosted x = none := by
  unfold Server.hosted
  split
  · next st found =>
      refine if_neg fun publisher => ?_
      have entered := reg.entered found ((reg.sound found).hosted x publisher)
      rcases early with early | early <;> rcases entered with state | state <;>
        rw [early] at state <;> cases state
  · rfl

theorem shake_retains (reg : Registry host.server) (x : SessionId) (env : Env) :
    host.server.media.Retains (host.perform (.shake x env)).server.media cid := by
  simp only [perform]
  split
  · next enabled =>
      obtain ⟨media, hosted⟩ := host.server.shake_hosted env x (host.recvBuf x)
      have kept : host.server.media.Retains
          (host.server.shake env x (host.recvBuf x)).2.1.media cid := by
        rw [media]
        exact .refl _ _
      split
      · have nothing := hosted.trans (hosted_early reg enabled.2)
        exact kept.trans (Server.close_retains fun _ => nothing.trans_ne (Option.some_ne_none cid).symm)
      · exact kept
  · exact .refl _ _

theorem parse_retains {x : SessionId}
    (stays : host.Quits (.parse x) → host.server.hosted x ≠ some cid) :
    host.server.media.Retains (host.perform (.parse x)).server.media cid := by
  simp only [perform]
  split
  · next parsing =>
      unfold Server.parse
      split
      · exact .refl _ _
      · next ret s rest read =>
          simp only
          split
          · next failed =>
              obtain ⟨_, rfl⟩ := failed
              have url : s.url = (host.server.sessions x).url := by
                obtain ⟨_, _, _, _, rfl⟩ := RtmpSession.readChunkStream_own read
                rfl
              have same : (host.server.set x s).hosted x = host.server.hosted x :=
                Server.hosted_set url
              exact Server.close_retains fun _ =>
                same.trans_ne (stays ⟨parsing, ⟨_, read, rfl⟩⟩)
          · exact .refl _ _
  · exact .refl _ _

/-- A step keeps every writer on the pipe of every drone but the one it withdraws. -/
theorem step_retains (reg : Registry host.server) (fed : host.server.Fed) (l : Label)
    (stays : host.withdraws l ≠ some cid) :
    host.server.media.Retains (host.step l).server.media cid := by
  unfold step
  split
  · next running =>
      have still : host.Quits l → host.server.hosted l.session ≠ some cid := by
        intro quits
        rwa [withdraws, if_pos ⟨running, quits⟩] at stays
      cases l with
      | accept x | receive x data =>
          simp only [perform]
          split <;> exact .refl _ _
      | shake x env => exact shake_retains reg x env
      | parse x => exact parse_retains still
      | dispatch x env =>
          simp only [perform]
          split
          · next ready => exact Server.dispatch_retains env fed fun why => still ⟨ready, why⟩
          · exact .refl _ _
      | close x => exact Server.close_retains still
  · exact .refl _ _

end Host

end DroneServer
