import DroneServer.Rtmp.Peer
import DroneServer.Rtmp.View

/-! # Chunk sizes

A session has one `max_chunk_size`. Its own announcement sets it, the peer's
announcement sets it, and both the reader and the writer use it, although each
announcement speaks of one direction only. So it is the right size for both
directions exactly when the last announcements of the two sides agree.
-/

namespace DroneServer

namespace Event

/-- The size this event announces to the peer of `x`. -/
def sizeTo (x : SessionId) : Event → Option UInt32
  | .announce y size => if y = x then some size else none
  | _ => none

/-- The size the peer of `x` announces by this event. -/
def sizeFrom (x : SessionId) : Event → Option UInt32
  | .announced y size => if y = x then some size else none
  | _ => none

/-- The last of the sizes picked from a log, the protocol's default before any. -/
def lastSize (pick : Event → Option UInt32) (log : List Event) : UInt32 :=
  log.foldl (fun size e => (pick e).getD size) 128

theorem lastSize_append (pick : Event → Option UInt32) (log es : List Event) :
    lastSize pick (log ++ es) = es.foldl (fun size e => (pick e).getD size) (lastSize pick log) := by
  simp only [lastSize, List.foldl_append]

theorem lastSize_skip {pick : Event → Option UInt32} {es : List Event}
    (none : ∀ e ∈ es, pick e = none) {size : UInt32} :
    es.foldl (fun size e => (pick e).getD size) size = size := by
  induction es with
  | nil => rfl
  | cons e es ih =>
      rw [List.foldl_cons, none e (by simp), Option.getD_none]
      exact ih fun e inside => none e (List.mem_cons_of_mem _ inside)

theorem lastSize_filter {pick : Event → Option UInt32} {keep : Event → Bool}
    (kept : ∀ e, keep e = false → pick e = none) (log : List Event) :
    lastSize pick (log.filter keep) = lastSize pick log := by
  induction log using List.reverseRecOn with
  | nil => rfl
  | append_singleton log e ih =>
      rw [List.filter_append, lastSize_append, lastSize_append, ih]
      cases keeps : keep e with
      | true => simp only [List.filter_singleton, keeps, cond_true]
      | false =>
          simp only [List.filter_singleton, keeps, cond_false, List.foldl_nil, List.foldl_cons,
            kept e keeps, Option.getD_none]

end Event

open Event

/-- The size in force for `x` is the one it last announced and the one its peer last announced. -/
def Host.SizesMatch (host : Host) (x : SessionId) : Prop :=
  (host.server.sessions x).maxChunkSize = lastSize (sizeTo x) host.server.log ∧
    (host.server.sessions x).maxChunkSize = lastSize (sizeFrom x) host.server.log

/-- The size a message sets when it is handled: that of a Set Chunk Size, or 4096 by a `connect`
    that is accepted. -/
def Server.SetsSize (srv : Server) (x : SessionId) (size : UInt32) : Prop :=
  (srv.Control x ∧ (srv.sessions x).current.type = 1 ∧
      RtmpSession.wordAt (srv.sessions x).current.data 0 = .ok size) ∨
    (srv.Connecting x ∧ size = 4096)

/-- The step handles no message that sets another size than the one in force. -/
def Host.KeepsSize (host : Host) : Label → Prop
  | .dispatch x _ => host.Ready x → ∀ size, host.server.SetsSize x size →
      size = (host.server.sessions x).maxChunkSize
  | _ => True

instance (host : Host) (l : Label) : Decidable (host.KeepsSize l) :=
  match l with
  | .dispatch x _ =>
      decidable_of_iff (host.Ready x →
        (host.server.Control x → (host.server.sessions x).current.type = 1 →
          (RtmpSession.wordAt (host.server.sessions x).current.data 0).toOption.all
            (· = (host.server.sessions x).maxChunkSize)) ∧
        (host.server.Connecting x → 4096 = (host.server.sessions x).maxChunkSize)) <| by
        constructor
        · rintro keeps ready size (⟨control, type, read⟩ | ⟨connecting, rfl⟩)
          · have repeats := (keeps ready).1 control type
            rw [read] at repeats
            exact of_decide_eq_true repeats
          · exact (keeps ready).2 connecting
        · intro keeps ready
          refine ⟨fun control type => ?_, fun connecting => ?_⟩
          · cases read : RtmpSession.wordAt (host.server.sessions x).current.data 0 with
            | ok size => exact decide_eq_true (keeps ready size (.inl ⟨control, type, read⟩))
            | error => rfl
          · exact keeps ready 4096 (.inr ⟨connecting, rfl⟩)
  | .accept _ | .receive _ _ | .shake _ _ | .parse _ | .close _ => .isTrue trivial

namespace View

variable (v : View) (x : SessionId)

/-- The two last announcements and the size in force, as far as the view shows them. -/
def size : UInt32 := (v.decoders x).maxChunkSize
def sent : UInt32 := lastSize (sizeTo x) v.events
def heard : UInt32 := lastSize (sizeFrom x) v.events

end View

theorem Server.view_sent (srv : Server) (x : SessionId) :
    srv.view.sent x = lastSize (sizeTo x) srv.log :=
  lastSize_filter (fun e hidden => by cases e <;> first | rfl | cases hidden) _

theorem Server.view_heard (srv : Server) (x : SessionId) :
    srv.view.heard x = lastSize (sizeFrom x) srv.log :=
  lastSize_filter (fun e hidden => by cases e <;> first | rfl | cases hidden) _

@[simp] theorem Server.size_viewWith (srv : Server) (x : SessionId) (d : RtmpSession.Decoder)
    (es : List Event) : (srv.viewWith x d es).size x = d.maxChunkSize := by
  simp only [View.size, viewWith, Function.update_self]

theorem Server.size_viewWith_other (srv : Server) {x y : SessionId} (other : y ≠ x)
    (d : RtmpSession.Decoder) (es : List Event) :
    (srv.viewWith x d es).size y = srv.view.size y := by
  simp only [View.size, viewWith, Function.update_of_ne other]

theorem Host.sizesMatch_view {host : Host} {x : SessionId} :
    host.SizesMatch x ↔ host.server.view.size x = host.server.view.sent x ∧
      host.server.view.size x = host.server.view.heard x := by
  rw [Server.view_sent, Server.view_heard]
  rfl

/-- What a step may do to the sizes of `y`: nothing, or one announcement that is then in force. -/
inductive Resized (Sets : UInt32 → Prop) (v v' : View) (y : SessionId) : Prop where
  | same (size : v'.size y = v.size y) (sent : v'.sent y = v.sent y) (heard : v'.heard y = v.heard y)
  | sent (sets : Sets (v'.size y)) (size : v'.size y = v'.sent y) (heard : v'.heard y = v.heard y)
  | heard (sets : Sets (v'.size y)) (size : v'.size y = v'.heard y) (sent : v'.sent y = v.sent y)

namespace Server

/-- A handler sets no size, the one its peer announces, or the one it announces itself. -/
private theorem Handled.size {srv : Server} {x : SessionId} {ret : Ret} {d : RtmpSession.Decoder}
    {es : List Event} (handled : srv.Handled x ret d es) :
    (es = [] ∧ d.maxChunkSize = (srv.sessions x).maxChunkSize) ∨
      srv.SetsSize x d.maxChunkSize ∧
        (es = [.announced x d.maxChunkSize] ∨ es = [.announce x d.maxChunkSize]) := by
  cases handled with
  | sized control type read => exact .inr ⟨.inl ⟨control, type, read⟩, .inl rfl⟩
  | aborted | cleared | kept => exact .inl ⟨rfl, rfl⟩
  | connected connecting => exact .inr ⟨.inr ⟨connecting, rfl⟩, .inr rfl⟩

theorem dispatch_resized (env : Env) (srv : Server) (x y : SessionId) :
    Resized (fun size => y = x ∧ srv.SetsSize x size) srv.view (srv.dispatch env x).2.view y := by
  have view := dispatch_view env srv x
  generalize srv.dispatch env x = done at view ⊢
  obtain ⟨ret, srv'⟩ := done
  simp only at view ⊢
  by_cases self : y = x
  · subst self
    obtain ⟨d, es, handled, view⟩ | ⟨_, _, es, events, view⟩ := view <;> rw [view]
    · obtain ⟨rfl, size⟩ | ⟨sets, rfl | rfl⟩ := handled.size
      · refine .same ?_ ?_ ?_
        · rw [size_viewWith, size]
          rfl
        · simp [View.sent, viewWith, lastSize_append, calling, sizeTo]
        · simp [View.heard, viewWith, lastSize_append, calling, sizeFrom]
      · refine .heard ⟨rfl, ?_⟩ ?_ ?_
        · rwa [size_viewWith]
        · rw [size_viewWith]
          simp [View.heard, viewWith, lastSize_append, calling, sizeFrom]
        · simp [View.sent, viewWith, lastSize_append, calling, sizeTo]
      · refine .sent ⟨rfl, ?_⟩ ?_ ?_
        · rwa [size_viewWith]
        · rw [size_viewWith]
          simp [View.sent, viewWith, lastSize_append, calling, sizeTo]
        · simp [View.heard, viewWith, lastSize_append, calling, sizeFrom]
    · obtain rfl | rfl := events
      · rw [viewWith_self]
        exact .same rfl rfl rfl
      · refine .same ?_ ?_ ?_
        · rw [size_viewWith]
          rfl
        · simp [View.sent, viewWith, lastSize_append, calling, sizeTo]
        · simp [View.heard, viewWith, lastSize_append, calling, sizeFrom]
  · have other : x ≠ y := fun same => self same.symm
    have silent : ∀ d es, (∀ e ∈ es, sizeTo y e = none ∧ sizeFrom y e = none) →
        Resized (fun size => y = x ∧ srv.SetsSize x size) srv.view (srv.viewWith x d es) y := by
      intro d es none
      refine .same ?_ ?_ ?_
      · exact size_viewWith_other srv self d es
      · simp only [View.sent, viewWith, lastSize_append]
        exact lastSize_skip fun e inside => (none e inside).1
      · simp only [View.heard, viewWith, lastSize_append]
        exact lastSize_skip fun e inside => (none e inside).2
    obtain ⟨d, es, handled, view⟩ | ⟨_, _, es, events, view⟩ := view <;> rw [view]
    · refine silent _ _ fun e inside => ?_
      obtain ⟨rfl, _⟩ | ⟨_, rfl | rfl⟩ := handled.size <;>
        simp only [calling, List.cons_append, List.nil_append, List.mem_cons, List.not_mem_nil,
          or_false] at inside <;>
        rcases inside with rfl | rfl | rfl <;>
        simp [sizeTo, sizeFrom, other]
    · refine silent _ _ fun e inside => ?_
      obtain rfl | rfl := events <;> simp only [calling, List.mem_cons, List.not_mem_nil,
        or_false] at inside
      subst inside
      exact ⟨rfl, rfl⟩

end Server

theorem Host.step_resized (host : Host) (l : Label) (y : SessionId) :
    Resized (fun size => ∃ env, l = .dispatch y env ∧ host.Ready y ∧ host.server.SetsSize y size)
      host.server.view (host.step l).server.view y := by
  obtain view | ⟨x, ret, s, rest, rfl, running, parsing, read⟩ | ⟨x, env, rfl, ready, done⟩ :=
    host.step_view l
  · rw [view]
    exact .same rfl rfl rfl
  · rw [host.parse_view running parsing read]
    have size := (RtmpSession.readChunkStream_keeps read).2
    refine .same ?_ ?_ ?_
    · by_cases self : y = x
      · subst self
        rw [Server.size_viewWith]
        exact size
      · exact Server.size_viewWith_other host.server self s.decoder []
    · simp only [View.sent, Server.viewWith, List.append_nil]
    · simp only [View.heard, Server.viewWith, List.append_nil]
  · rw [done]
    cases host.server.dispatch_resized env x y with
    | same size sent heard => exact .same size sent heard
    | sent sets size heard =>
        obtain ⟨rfl, sets⟩ := sets
        exact .sent ⟨env, rfl, ready, sets⟩ size heard
    | heard sets size sent =>
        obtain ⟨rfl, sets⟩ := sets
        exact .heard ⟨env, rfl, ready, sets⟩ size sent

theorem Host.SizesMatch.step {host : Host} {l : Label} (keeps : host.KeepsSize l) {x : SessionId}
    (holds : host.SizesMatch x) : (host.step l).SizesMatch x := by
  rw [Host.sizesMatch_view] at holds ⊢
  obtain ⟨sent, heard⟩ := holds
  cases host.step_resized l x with
  | same size sent' heard' => exact ⟨by rw [size, sent', sent], by rw [size, heard', heard]⟩
  | sent sets size heard' =>
      obtain ⟨env, rfl, ready, sets⟩ := sets
      have kept : (host.step (.dispatch x env)).server.view.size x = host.server.view.size x :=
        keeps ready _ sets
      exact ⟨size, by rw [kept, heard', heard]⟩
  | heard sets size sent' =>
      obtain ⟨env, rfl, ready, sets⟩ := sets
      have kept : (host.step (.dispatch x env)).server.view.size x = host.server.view.size x :=
        keeps ready _ sets
      exact ⟨by rw [kept, sent', sent], size⟩

/-- The size in force is always one of the two last announced. -/
theorem Host.size_announced {recordForce : Bool} {host : Host}
    (reached : (machine recordForce).Reachable host) (x : SessionId) :
    host.server.view.size x = host.server.view.sent x ∨
      host.server.view.size x = host.server.view.heard x := by
  refine reached.invariant (P := fun host => host.server.view.size x = host.server.view.sent x ∨
    host.server.view.size x = host.server.view.heard x) (.inl rfl) fun host l holds => ?_
  cases Host.step_resized host l x with
  | same size sent heard => rwa [← size, ← sent, ← heard] at holds
  | sent _ size _ => exact .inl size
  | heard _ size _ => exact .inr size

/-- In a run that handles no message setting another size than the one in force, every session's
    size is in every state the one last announced in either direction. And in any run it is so for
    a session exactly when the two sides last announced the same. -/
theorem chunk_sizes_match (recordForce : Bool) (labels : List Label) :
    ((machine recordForce).Steps Host.KeepsSize labels →
      (machine recordForce).Always (fun host => ∀ x, host.SizesMatch x) labels) ∧
    ∀ x, ((machine recordForce).run labels).SizesMatch x ↔
      lastSize (sizeTo x) ((machine recordForce).run labels).server.log =
        lastSize (sizeFrom x) ((machine recordForce).run labels).server.log := by
  constructor
  · exact Machine.Steps.always (fun _ => ⟨rfl, rfl⟩)
      fun _ _ _ holds keeps x => Host.SizesMatch.step keeps (holds x)
  · intro x
    have announced := Host.size_announced (Machine.Reachable.run (machine recordForce) labels) x
    constructor
    · exact fun ⟨sent, heard⟩ => sent.symm.trans heard
    · intro same
      rw [Host.sizesMatch_view]
      rw [← Server.view_sent, ← Server.view_heard] at same
      rcases announced with sent | heard
      · exact ⟨sent, sent.trans same⟩
      · exact ⟨heard.trans same.symm, heard⟩

/-- A peer that repeats the default size, and a command that is not accepted yet. -/
def plainRun : List Label :=
  Peer.greet 1 ++ Peer.deliver 1 (Peer.setChunkSize 128) ++ Peer.deliver 1 Peer.createStream

set_option maxRecDepth 4000 in
theorem chunk_sizes_match_plainRun :
    (machine false).Steps Host.KeepsSize plainRun ∧
      (machine false).Always (fun host => ∀ x, host.SizesMatch x) plainRun ∧
      Event.announced 1 128 ∈ ((machine false).run plainRun).server.log := by
  have keeps : (machine false).Steps Host.KeepsSize plainRun :=
    Machine.Checks.steps (by decide +kernel)
  exact ⟨keeps, (chunk_sizes_match false plainRun).1 keeps, by decide +kernel⟩

set_option maxRecDepth 4000 in
/-- An ordinary client that never sends Set Chunk Size connects: from then on the server expects
    chunks of 4096 bytes from it. -/
theorem chunk_sizes_differ_after_connect :
    ¬ ∀ (labels : List Label) (x : SessionId), ((machine false).run labels).SizesMatch x := by
  intro all
  have heard := (all (Peer.greet 1 ++ Peer.deliver 1 (Peer.connect "live")) 1).2
  revert heard
  decide +kernel

end DroneServer
