import DroneServer.Rtmp.Handover
import DroneServer.Rtmp.Seats
import DroneServer.Rtmp.Sources

/-! # What a viewer sees

The seat of a viewer, the wire to its player and the source of the packets come
together: what the player reads are media messages of the publisher, from the
cached ones on.
-/

namespace DroneServer

/-- A viewer is passed nothing but what its stream took in. -/
theorem GopCache.mem_replay {before since : List MediaPacket} {pkt : MediaPacket}
    (inside : pkt ∈ replay before since) : pkt ∈ before ++ since := by
  cases since with
  | nil => cases inside
  | cons first rest =>
      rcases List.mem_append.mp inside with cached | later
      · rcases List.mem_append.mp (GopCache.write_mem cached) with old | first
        · exact List.mem_append_left _ old
        · rw [List.mem_singleton.mp first]
          exact List.mem_append_right _ List.mem_cons_self
      · exact List.mem_append_right _ (List.mem_cons_of_mem _ later)

theorem mem_taken {ref : Nat} {log : List Event} {pkt : MediaPacket} (inside : pkt ∈ taken ref log) :
    ∃ x, .cached x ref pkt ∈ log := by
  obtain ⟨e, inside, here⟩ := List.mem_filterMap.mp inside
  cases e with
  | cached x r p =>
      simp only [Event.takenOn] at here
      split at here
      · next same =>
          cases here
          exact ⟨x, same ▸ inside⟩
      · cases here
  | _ => cases here

/-- From the packet after its join on, a session that plays a stream is passed what the cache then
    holds and every packet the stream takes in until it leaves; each is the media message of a
    publisher, as it was handled. And that is what its player reads. -/
theorem viewer_hears (recordForce : Bool) (labels : List Label) (y : SessionId) (ref : Nat)
    (ret : Ret) (before after : List Event)
    (plays : ((machine recordForce).run labels).server.log =
      before ++ .join y ref false ret :: after) :
    ((machine recordForce).run labels).server.log.filterMap (Event.passedTo y) =
        GopCache.replay (taken ref before) (takenWith ref y after) ∧
      (∀ pkt ∈ GopCache.replay (taken ref before) (takenWith ref y after), ∃ x e, e.Carries x pkt ∧
        [e, .cached x ref pkt] <:+: ((machine recordForce).run labels).server.log) ∧
      ((∀ e ∈ ((machine recordForce).run labels).server.log, e.Fine y) →
        ∃ hello chunks,
          (((machine recordForce).run labels).server.sessions y).written = hello ++ chunks ∧
          hello.length ≤ 1 ∧
          (Reader.hear { session := {} } chunks.flatten).rest = [] ∧
          List.Forall₂ Incoming.Relays
            ((Reader.hear { session := {} } chunks.flatten).state.messages.filter (·.media))
            (GopCache.replay (taken ref before) (takenWith ref y after))) := by
  have reached := Machine.Reachable.run (machine recordForce) labels
  have seated := ((Server.Viewing.reachable reached).watches plays).2
  refine ⟨seated.passed, fun pkt inside => ?_, fun fine => ?_⟩
  · have took : pkt ∈ taken ref ((machine recordForce).run labels).server.log := by
      rw [plays, ← List.singleton_append, taken_append, taken_append]
      refine (List.mem_append.mp (GopCache.mem_replay inside)).elim (List.mem_append_left _) ?_
      intro since
      refine List.mem_append_right _ (List.mem_append_right _ ?_)
      exact ((List.takeWhile_prefix _).sublist.filterMap _).subset since
    obtain ⟨x, cached⟩ := mem_taken took
    obtain ⟨e, carries, within⟩ := Host.sourced reached x ref pkt cached
    exact ⟨x, e, carries, within⟩
  · obtain ⟨hello, chunks, r, written, one, heard⟩ := Host.Wired.run recordForce labels y fine
    have drained := heard.listens [] _ (.empty r)
    rw [List.append_nil] at drained
    have same := (Reader.hear_drains _ _).unique drained
    refine ⟨hello, chunks, written, one, ?_⟩
    rw [same]
    exact ⟨rfl, seated.passed ▸ heard.media⟩

/-- Session 1 publishes a key frame; session 2 comes to play, and then a frame follows. -/
def playedLate : List Label :=
  Peer.enter 1 "live" ++ Peer.enter 2 "live" ++ Peer.deliver 1 (Peer.publish "1" "live") ++
    Peer.deliver 1 (Peer.message 6 9 1 [0x17, 1, 0, 0, 0, 1]) ++
    Peer.deliver 2 (Peer.named "play" "1") ++
    Peer.deliver 1 (Peer.message 6 9 1 [0x27, 1, 0, 0, 0, 2, 3])

set_option maxRecDepth 4000 in
/-- The player reads both. -/
theorem viewer_hears_late : ∃ hello chunks,
    (((machine false).run playedLate).server.sessions 2).written = hello ++ chunks ∧
    ((Reader.hear { session := {} } chunks.flatten).state.messages.filter (·.media)).length = 2 := by
  obtain ⟨passed, _, hears⟩ := viewer_hears false playedLate 2 0 .ok
    (((machine false).run playedLate).server.log.take 24)
    (((machine false).run playedLate).server.log.drop 25) (by decide +kernel)
  obtain ⟨hello, chunks, written, _, _, media⟩ := hears (by decide +kernel)
  refine ⟨hello, chunks, written, ?_⟩
  rw [media.length_eq, ← passed]
  decide +kernel

end DroneServer
