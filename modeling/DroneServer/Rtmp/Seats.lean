import DroneServer.Rtmp.Gop
import DroneServer.Rtmp.Relay
import DroneServer.Rtmp.Wire
import Mathlib.Data.List.TakeWhile

/-! # The seats of the viewers

A session that plays a stream has a seat at one stream object, for good. Nothing
is passed to it until the stream takes a packet in. Then it gets what the cache
holds by that time, and from there on every packet the stream takes in until it
leaves. `Viewing` reads that off the log of the whole server, and every act keeps
it.
-/

namespace DroneServer

namespace Event

/-- The packet this event takes in on the stream object `ref`. -/
def takenOn (ref : Nat) : Event → Option MediaPacket
  | .cached _ r pkt => if r = ref then some pkt else none
  | _ => none

/-- The event says nothing about who is in a stream or what it takes in and sends. -/
def placid : Event → Bool
  | .join .. | .leave .. | .cached .. | .relayed .. => false
  | _ => true

end Event

/-- The packets the stream object took in. -/
def taken (ref : Nat) (log : List Event) : List MediaPacket := log.filterMap (Event.takenOn ref)

/-- Those it took in until `y` left it. -/
def takenWith (ref : Nat) (y : SessionId) (log : List Event) : List MediaPacket :=
  taken ref (log.takeWhile (· ≠ .leave y ref))

/-- What a viewer is sent of the packets taken in before it joined and since. -/
def GopCache.replay (before since : List MediaPacket) : List MediaPacket :=
  match since with
  | [] => []
  | pkt :: rest => (GopCache.inserted 1 (before ++ [pkt])).write ++ rest

theorem GopCache.replay_snoc {before since : List MediaPacket} (some : since ≠ [])
    (pkt : MediaPacket) : replay before (since ++ [pkt]) = replay before since ++ [pkt] := by
  cases since with
  | nil => exact absurd rfl some
  | cons first rest => simp [replay]

section Logs

variable {ref : Nat} {y : SessionId} {log es : List Event}

theorem taken_append : taken ref (log ++ es) = taken ref log ++ taken ref es :=
  List.filterMap_append

theorem taken_placid (placid : ∀ e ∈ es, e.placid) : taken ref es = [] := by
  refine List.filterMap_eq_nil_iff.mpr fun e inside => ?_
  have := placid e inside
  cases e with
  | cached => cases this
  | _ => rfl

theorem passed_placid (placid : ∀ e ∈ es, e.placid) : es.filterMap (Event.passedTo y) = [] := by
  refine List.filterMap_eq_nil_iff.mpr fun e inside => ?_
  have := placid e inside
  cases e with
  | relayed => cases this
  | _ => rfl

theorem takenWith_staying (stays : .leave y ref ∉ log) : takenWith ref y log = taken ref log := by
  rw [takenWith, List.takeWhile_eq_self_iff.mpr]
  intro e inside
  refine decide_eq_true ?_
  rintro rfl
  exact stays inside

theorem takenWith_append_staying (stays : .leave y ref ∉ log) :
    takenWith ref y (log ++ es) = taken ref log ++ takenWith ref y es := by
  rw [takenWith, List.takeWhile_append_of_pos, taken_append]
  · rfl
  · intro e inside
    refine decide_eq_true ?_
    rintro rfl
    exact stays inside

theorem takenWith_append_left (left : .leave y ref ∈ log) :
    takenWith ref y (log ++ es) = takenWith ref y log := by
  have shorter : (log.takeWhile (· ≠ .leave y ref)).length ≠ log.length := by
    intro whole
    have all := List.takeWhile_eq_self_iff.mp ((List.takeWhile_prefix _).eq_of_length whole)
    simpa using all _ left
  rw [takenWith, List.takeWhile_append, if_neg shorter]
  rfl

theorem takenWith_append_silent (silent : taken ref es = []) :
    takenWith ref y (log ++ es) = takenWith ref y log := by
  by_cases left : .leave y ref ∈ log
  · exact takenWith_append_left left
  · rw [takenWith_append_staying left, takenWith_staying left]
    have none : takenWith ref y es = [] := by
      refine List.eq_nil_iff_forall_not_mem.mpr fun pkt inside => ?_
      have sub : (takenWith ref y es).Sublist (taken ref es) :=
        (List.takeWhile_prefix _).sublist.filterMap _
      rw [silent] at sub
      exact List.not_mem_nil (sub.subset inside)
    rw [none, List.append_nil]

theorem relayEvents_passed (x : SessionId) (writes : List (SessionId × MediaPacket)) :
    (Server.relayEvents x ref writes).filterMap (Event.passedTo y) = Table.addressed y writes :=
  List.filterMap_map

theorem relayEvents_taken (x : SessionId) (r : Nat) (writes : List (SessionId × MediaPacket)) :
    taken ref (Server.relayEvents x r writes) = [] := by
  refine List.filterMap_eq_nil_iff.mpr fun e inside => ?_
  obtain ⟨_, _, rfl⟩ := List.mem_map.mp inside
  rfl

end Logs

namespace Server

/-- `y` has joined the stream object `ref` as a viewer, and only that, and got what it should. -/
structure Watches (srv : Server) (y : SessionId) (ref : Nat) (before after : List Event) : Prop where
  log : srv.log = before ++ .join y ref false .ok :: after
  once : ∀ ref' publisher ret, .join y ref' publisher ret ∉ before ∧
    .join y ref' publisher ret ∉ after
  passed : srv.log.filterMap (Event.passedTo y) =
    GopCache.replay (taken ref before) (takenWith ref y after)
  known : ref < srv.nextRef
  place : ∀ {url st}, srv.streams url = some st → y ∈ st.peers →
    st.ref = ref ∧ .leave y ref ∉ after ∧ st.publisher ≠ some y
  seat : ∀ {url st}, srv.streams url = some st → st.ref = ref → .leave y ref ∉ after →
    (y, !(taken ref after).isEmpty) ∈ st.peers.entries

/-- `y` has joined no stream as a viewer, and got nothing. -/
structure WatchesNothing (srv : Server) (y : SessionId) : Prop where
  none : ∀ ref ret, .join y ref false ret ∉ srv.log
  passed : srv.log.filterMap (Event.passedTo y) = []
  hosting : ∀ {url st}, srv.streams url = some st → y ∈ st.peers → st.publisher = some y

structure Viewing (srv : Server) : Prop where
  caches : ∀ {url st}, srv.streams url = some st →
    st.gop = GopCache.inserted 1 (taken st.ref srv.log)
  fresh : ∀ ref, srv.nextRef ≤ ref → taken ref srv.log = []
  entered : ∀ {y ref publisher ret}, .join y ref publisher ret ∈ srv.log →
    (srv.sessions y).Entered
  views : ∀ y, srv.WatchesNothing y ∨ ∃ ref before after, srv.Watches y ref before after

variable {srv srv' : Server} {x y : SessionId} {es : List Event}

theorem WatchesNothing.keep (un : srv.WatchesNothing y) (log : srv'.log = srv.log ++ es)
    (joinless : ∀ ref ret, .join y ref false ret ∉ es)
    (silent : es.filterMap (Event.passedTo y) = [])
    (hosting : ∀ {url st}, srv'.streams url = some st → y ∈ st.peers → st.publisher = some y) :
    srv'.WatchesNothing y where
  none ref ret inside := by
    rw [log] at inside
    exact (List.mem_append.mp inside).elim (un.none ref ret) (joinless ref ret)
  passed := by rw [log, List.filterMap_append, un.passed, silent, List.nil_append]
  hosting := hosting

theorem Watches.keep {ref : Nat} {before after : List Event} (seated : srv.Watches y ref before after)
    (log : srv'.log = srv.log ++ es) (joinless : ∀ ref' publisher ret, .join y ref' publisher ret ∉ es)
    (passed : GopCache.replay (taken ref before) (takenWith ref y after) ++
      es.filterMap (Event.passedTo y) =
        GopCache.replay (taken ref before) (takenWith ref y (after ++ es)))
    (later : srv.nextRef ≤ srv'.nextRef)
    (place : ∀ {url st}, srv'.streams url = some st → y ∈ st.peers →
      st.ref = ref ∧ .leave y ref ∉ after ++ es ∧ st.publisher ≠ some y)
    (seat : ∀ {url st}, srv'.streams url = some st → st.ref = ref → .leave y ref ∉ after ++ es →
      (y, !(taken ref (after ++ es)).isEmpty) ∈ st.peers.entries) :
    srv'.Watches y ref before (after ++ es) where
  log := by rw [log, seated.log, List.append_assoc, List.cons_append]
  once ref' publisher ret := by
    obtain ⟨early, late⟩ := seated.once ref' publisher ret
    exact ⟨early, fun inside =>
      (List.mem_append.mp inside).elim late (joinless ref' publisher ret)⟩
  passed := by rw [log, List.filterMap_append, seated.passed, passed]
  known := seated.known.trans_le later
  place := place
  seat := seat

namespace Viewing

theorem same (viewing : Viewing srv) (log : srv'.log = srv.log ++ es)
    (placid : ∀ e ∈ es, e.placid) (nextRef : srv'.nextRef = srv.nextRef)
    (streams : ∀ {url st}, srv'.streams url = some st → srv.streams url = some st)
    (kept : ∀ y, (srv.sessions y).Entered → (srv'.sessions y).Entered) : Viewing srv' where
  caches found := by
    rw [log, taken_append, taken_placid placid, List.append_nil]
    exact viewing.caches (streams found)
  fresh ref later := by
    rw [log, taken_append, taken_placid placid, List.append_nil]
    exact viewing.fresh ref (nextRef ▸ later)
  entered inside := by
    rw [log] at inside
    rcases List.mem_append.mp inside with old | new
    · exact kept _ (viewing.entered old)
    · exact nomatch placid _ new
  views y := by
    rcases viewing.views y with un | ⟨ref, before, after, seated⟩
    · exact .inl (un.keep log (fun _ _ inside => nomatch placid _ inside) (passed_placid placid)
        fun found inside => un.hosting (streams found) inside)
    · refine .inr ⟨ref, before, after ++ es, seated.keep log
        (fun _ _ _ inside => nomatch placid _ inside) ?_ nextRef.ge ?_ ?_⟩
      · rw [passed_placid placid, List.append_nil, takenWith_append_silent (taken_placid placid)]
      · intro url st found inside
        obtain ⟨here, stays, watching⟩ := seated.place (streams found) inside
        refine ⟨here, fun left => ?_, watching⟩
        exact (List.mem_append.mp left).elim stays fun new => nomatch placid _ new
      · intro url st found here stays
        rw [taken_append, taken_placid placid, List.append_nil]
        exact seated.seat (streams found) here fun left => stays (List.mem_append_left _ left)

theorem left (viewing : Viewing srv) (reg : Registry srv) {url : Bytes} {st : RtmpStream}
    (found : srv.streams url = some st) : Viewing (srv.left url st x) := by
  have cases_of : ∀ {u st'}, (srv.left url st x).streams u = some st' →
      (u = url ∧ st' = st.leave x) ∨ (u ≠ url ∧ srv.streams u = some st') := by
    intro u st' found'
    simp only [Server.left] at found'
    by_cases same : u = url
    · rw [same, Function.update_self] at found'
      split at found'
      · cases found'
      · exact .inl ⟨same, (Option.some.inj found').symm⟩
    · rw [Function.update_of_ne same] at found'
      exact .inr ⟨same, found'⟩
  have log : (srv.left url st x).log = srv.log ++ [.leave x st.ref] := rfl
  have silent : ∀ ref, taken ref [Event.leave x st.ref] = [] := fun _ => rfl
  constructor
  case caches =>
    intro u st' found'
    rw [log, taken_append, silent, List.append_nil]
    obtain ⟨_, rfl⟩ | ⟨_, old⟩ := cases_of found'
    · exact (viewing.caches found : st.gop = _)
    · exact viewing.caches old
  case fresh =>
    intro ref later
    rw [log, taken_append, silent, List.append_nil]
    exact viewing.fresh ref later
  case entered =>
    intro y ref publisher ret inside
    rw [log] at inside
    rcases List.mem_append.mp inside with old | new
    · exact viewing.entered old
    · cases List.mem_singleton.mp new
  case views =>
    intro y
    rcases viewing.views y with un | ⟨ref, before, after, seated⟩
    · refine .inl (un.keep log (by simp) rfl ?_)
      intro u st' found' inside
      obtain ⟨_, rfl⟩ | ⟨_, old⟩ := cases_of found'
      · obtain ⟨other, inside⟩ := RtmpStream.mem_leave.mp inside
        exact RtmpStream.leave_publisher.mpr ⟨other, un.hosting found inside⟩
      · exact un.hosting old inside
    · refine .inr ⟨ref, before, after ++ [.leave x st.ref],
        seated.keep log (by simp) ?_ (le_refl _) ?_ ?_⟩
      · rw [takenWith_append_silent (silent ref)]
        exact List.append_nil _
      · intro u st' found' inside
        obtain ⟨rfl, rfl⟩ | ⟨apart, old⟩ := cases_of found'
        · obtain ⟨other, inside⟩ := RtmpStream.mem_leave.mp inside
          obtain ⟨here, stays, watching⟩ := seated.place found inside
          refine ⟨here, by simp [stays, other], fun host => ?_⟩
          exact watching (RtmpStream.leave_publisher.mp host).2
        · obtain ⟨here, stays, watching⟩ := seated.place old inside
          refine ⟨here, ?_, watching⟩
          have distinct : ref ≠ st.ref := fun same =>
            apart (reg.distinct old found (here.trans same))
          simp [stays, distinct]
      · intro u st' found' here stays
        rw [taken_append, silent, List.append_nil]
        have before : .leave y ref ∉ after := fun left => stays (List.mem_append_left _ left)
        obtain ⟨rfl, rfl⟩ | ⟨_, old⟩ := cases_of found'
        · have there : st.ref = ref := here
          have other : y ≠ x := by
            rintro rfl
            exact stays (by simp [there])
          exact Table.erase_keeps (seated.seat found there before) other
        · exact seated.seat old here before

end Viewing

/-- A session joins a stream. -/
structure Joins (srv : Server) (x : SessionId) (url : Bytes) (st : RtmpStream) (publisher : Bool)
    (srv' : Server) : Prop where
  log : srv'.log = srv.log ++ [.join x st.ref publisher (st.join x publisher).1]
  streams : srv'.streams = Function.update srv.streams url (some (st.join x publisher).2)
  others : ∀ y, y ≠ x → srv'.sessions y = srv.sessions y
  entered : (srv'.sessions x).Entered
  below : st.ref < srv'.nextRef
  later : srv.nextRef ≤ srv'.nextRef
  gop : st.gop = GopCache.inserted 1 (taken st.ref srv.log)
  there : srv.streams url = some st ∨ st.peers = .empty ∧ srv.nextRef ≤ st.ref
  distinct : ∀ u other, u ≠ url → srv.streams u = some other → other.ref ≠ st.ref
  hosted : ∀ y, st.publisher = some y → y ∈ st.peers

namespace Joins

variable {url : Bytes} {st : RtmpStream} {publisher : Bool}

theorem cases_of (joins : srv.Joins x url st publisher srv') {u : Bytes} {st' : RtmpStream}
    (found : srv'.streams u = some st') :
    (u = url ∧ st' = (st.join x publisher).2) ∨ (u ≠ url ∧ srv.streams u = some st') := by
  rw [joins.streams] at found
  by_cases same : u = url
  · rw [same, Function.update_self] at found
    exact .inl ⟨same, (Option.some.inj found).symm⟩
  · rw [Function.update_of_ne same] at found
    exact .inr ⟨same, found⟩

theorem join_gop (st : RtmpStream) : (st.join x publisher).2.gop = st.gop := by
  obtain ⟨same, _⟩ | ⟨_, _, same⟩ := st.join_cases x publisher <;> rw [same]

theorem before (joins : srv.Joins x url st publisher srv') (other : y ≠ x)
    (inside : y ∈ (st.join x publisher).2.peers) : srv.streams url = some st ∧ y ∈ st.peers := by
  have inside := (RtmpStream.mem_join inside).resolve_left other
  obtain old | ⟨empty, _⟩ := joins.there
  · exact ⟨old, inside⟩
  · rw [empty] at inside
    exact absurd inside (Table.not_mem_empty y)

/-- The joining session is the publisher now, or nothing has changed about who is. -/
theorem join_publisher (st : RtmpStream) (host : (st.join x publisher).2.publisher = some y)
    (other : y ≠ x) : st.publisher = some y := by
  obtain ⟨same, _⟩ | ⟨_, _, same⟩ := st.join_cases x publisher <;> rw [same] at host
  · exact host
  · cases publisher with
    | false => exact host
    | true => exact absurd (Option.some.inj host).symm other

theorem keeps_publisher (host : st.publisher = some y) :
    (st.join x publisher).2.publisher = some y := by
  obtain ⟨same, _⟩ | ⟨_, vacant, same⟩ := st.join_cases x publisher <;> rw [same]
  · exact host
  · cases publisher with
    | false => exact host
    | true =>
        rw [vacant rfl] at host
        cases host

theorem unseated (joins : srv.Joins x url st publisher srv') (other : y ≠ x)
    (un : srv.WatchesNothing y) : srv'.WatchesNothing y := by
  refine un.keep joins.log (by simp [other]) rfl ?_
  intro u st' found inside
  obtain ⟨_, rfl⟩ | ⟨_, old⟩ := joins.cases_of found
  · obtain ⟨old, inside⟩ := joins.before other inside
    exact keeps_publisher (un.hosting old inside)
  · exact un.hosting old inside

theorem seated (joins : srv.Joins x url st publisher srv') (other : y ≠ x) {ref : Nat}
    {before after : List Event} (seated : srv.Watches y ref before after) :
    srv'.Watches y ref before (after ++ [.join x st.ref publisher (st.join x publisher).1]) := by
  have silent : taken ref [.join x st.ref publisher (st.join x publisher).1] = [] := rfl
  refine seated.keep joins.log (by simp [other]) ?_ joins.later ?_ ?_
  · rw [takenWith_append_silent silent]
    exact List.append_nil _
  · intro u st' found inside
    obtain ⟨_, rfl⟩ | ⟨_, old⟩ := joins.cases_of found
    · obtain ⟨old, inside⟩ := joins.before other inside
      obtain ⟨here, stays, watching⟩ := seated.place old inside
      exact ⟨(RtmpStream.join_ref _).trans here, by simp [stays],
        fun host => watching (join_publisher st host other)⟩
    · obtain ⟨here, stays, watching⟩ := seated.place old inside
      exact ⟨here, by simp [stays], watching⟩
  · intro u st' found here stays
    rw [taken_append, silent, List.append_nil]
    have stayed : .leave y ref ∉ after := fun left => stays (List.mem_append_left _ left)
    obtain ⟨_, rfl⟩ | ⟨_, old⟩ := joins.cases_of found
    · rw [RtmpStream.join_ref] at here
      obtain old | ⟨_, new⟩ := joins.there
      · have entry := seated.seat old here stayed
        obtain ⟨same, _⟩ | ⟨_, _, same⟩ := st.join_cases x publisher <;> rw [same]
        · exact entry
        · exact Table.insertNew_keeps entry
      · exact absurd seated.known (not_lt.mpr (here ▸ new))
    · exact seated.seat old here stayed

theorem publishing (joins : srv.Joins x url st true srv') (un : srv.WatchesNothing x)
    (outside : x ∉ st.peers) (nowhere : ∀ {u st'}, srv.streams u = some st' → x ∉ st'.peers) :
    srv'.WatchesNothing x := by
  refine un.keep joins.log (by simp) rfl ?_
  intro u st' found inside
  obtain ⟨_, rfl⟩ | ⟨_, old⟩ := joins.cases_of found
  · obtain ⟨same, _⟩ | ⟨_, _, same⟩ := st.join_cases x true <;> rw [same] at inside ⊢
    · exact absurd inside outside
    · rfl
  · exact absurd inside (nowhere old)

theorem playing (joins : srv.Joins x url st false srv') (un : srv.WatchesNothing x)
    (outside : x ∉ st.peers) (nowhere : ∀ {u st'}, srv.streams u = some st' → x ∉ st'.peers)
    (first : ∀ ref publisher ret, .join x ref publisher ret ∉ srv.log) :
    srv'.Watches x st.ref srv.log [] := by
  obtain ⟨_, asked, _⟩ | ⟨done, _, same⟩ := st.join_cases x false
  · cases asked
  have joined := joins.log
  rw [done] at joined
  refine ⟨joined, fun ref' publisher ret => ⟨first ref' publisher ret, List.not_mem_nil⟩, ?_,
    joins.below, ?_, ?_⟩
  · rw [joined, List.filterMap_append, un.passed]
    rfl
  · intro u st' found inside
    obtain ⟨_, rfl⟩ | ⟨_, old⟩ := joins.cases_of found
    · refine ⟨RtmpStream.join_ref _, List.not_mem_nil, fun host => ?_⟩
      rw [same] at host
      exact outside (joins.hosted x host)
    · exact absurd inside (nowhere old)
  · intro u st' found here _
    obtain ⟨_, rfl⟩ | ⟨apart, old⟩ := joins.cases_of found
    · rw [same, Table.insertNew_entries outside]
      exact List.mem_append_right _ (List.mem_singleton_self _)
    · exact absurd here (joins.distinct u st' apart old)

end Joins

theorem Viewing.joins (viewing : Viewing srv) (reg : Registry srv) {url : Bytes} {st : RtmpStream}
    {publisher : Bool} (joins : srv.Joins x url st publisher srv')
    (phase : (srv.sessions x).state = .publishPlay) : Viewing srv' := by
  have early : ¬ (srv.sessions x).Entered := by
    rintro (entered | entered) <;> rw [phase] at entered <;> cases entered
  have nowhere : ∀ {u st'}, srv.streams u = some st' → x ∉ st'.peers :=
    fun found inside => early (reg.entered found inside)
  have outside : x ∉ st.peers := by
    obtain old | ⟨empty, _⟩ := joins.there
    · exact nowhere old
    · rw [empty]
      exact Table.not_mem_empty x
  have silent : ∀ ref, taken ref [.join x st.ref publisher (st.join x publisher).1] = [] :=
    fun _ => rfl
  constructor
  case caches =>
    intro u st' found
    rw [joins.log, taken_append, silent, List.append_nil]
    obtain ⟨_, rfl⟩ | ⟨_, old⟩ := joins.cases_of found
    · rw [Joins.join_gop, RtmpStream.join_ref]
      exact joins.gop
    · exact viewing.caches old
  case fresh =>
    intro ref above
    rw [joins.log, taken_append, silent, List.append_nil]
    exact viewing.fresh ref (joins.later.trans above)
  case entered =>
    intro y ref publisher' ret inside
    rw [joins.log] at inside
    by_cases self : y = x
    · rw [self]
      exact joins.entered
    · rw [joins.others y self]
      rcases List.mem_append.mp inside with old | new
      · exact viewing.entered old
      · cases List.mem_singleton.mp new
        exact absurd rfl self
  case views =>
    intro y
    by_cases self : y = x
    · subst self
      have first : ∀ ref publisher ret, .join y ref publisher ret ∉ srv.log :=
        fun _ _ _ inside => early (viewing.entered inside)
      obtain un | ⟨ref, before, after, seated⟩ := viewing.views y
      · cases publisher with
        | true => exact .inl (joins.publishing un outside nowhere)
        | false => exact .inr ⟨_, _, _, joins.playing un outside nowhere first⟩
      · exact absurd (seated.log ▸ by simp) (first ref false .ok)
    · exact (viewing.views y).imp (joins.unseated self)
        fun ⟨_, _, _, seated⟩ => ⟨_, _, _, joins.seated self seated⟩

theorem Viewing.joined (viewing : Viewing srv) (reg : Registry srv) {url : Bytes} {st : RtmpStream}
    {srv₁ : Server} (found : srv.findStream url = .ok (st, srv₁)) (publisher : Bool)
    (phase : (srv.sessions x).state = .publishPlay) : Viewing (srv₁.joined x url st publisher) := by
  obtain ⟨⟨_, hosted⟩, _, ⟨below, distinct⟩, later, streams, sessions, log⟩ :=
    reg.findStream_sound found
  have new : st.gop = GopCache.inserted 1 (taken st.ref srv.log) ∧
      (srv.streams url = some st ∨ st.peers = .empty ∧ srv.nextRef ≤ st.ref) := by
    obtain ⟨old, _⟩ | ⟨_, _, ref, _, empty, gop, _⟩ := findStream_ok found
    · exact ⟨viewing.caches old, .inl old⟩
    · refine ⟨?_, .inr ⟨empty, ref.ge⟩⟩
      rw [gop, viewing.fresh st.ref ref.ge]
      rfl
  have joins : srv.Joins x url st publisher (((srv₁.setStream url (some (st.join x publisher).2)).set
      x { srv₁.sessions x with state := .mediaTransfer }).emit
        (.join x st.ref publisher (st.join x publisher).1)) := by
    refine ⟨?_, ?_, fun y other => ?_, .inl ?_, below, later, new.1, new.2, distinct, hosted⟩
    · rw [← log]
      rfl
    · rw [← streams]
      rfl
    · simp only [emit, set_other _ _ other, setStream, sessions]
    · simp only [emit, set_sessions]
  have last : (srv₁.joined x url st publisher).log = srv₁.log ++
      [.join x st.ref publisher (st.join x publisher).1] ++
        [if publisher then .published x else .played x] := by
    rw [List.append_assoc]
    rfl
  refine (viewing.joins reg joins phase).same last ?_ rfl id fun y entered => ?_
  · cases publisher <;> simp [Event.placid]
  · exact entered

/-- The stream `st` takes a packet of its publisher in. -/
structure Takes (srv : Server) (x : SessionId) (url : Bytes) (st st' : RtmpStream)
    (pkt : MediaPacket) (srv' : Server) : Prop where
  found : srv.streams url = some st
  host : st.publisher = some x
  after : st' = { st with
    gop := st.gop.insert pkt
    demux := st'.demux
    peers := st.peers.mapValues fun peer served => served || decide (peer ≠ x)
    made := st.made + 1 }
  log : srv'.log = srv.log ++ .cached x st.ref pkt :: relayEvents x st.ref
    (st.peers.entries.flatMap fun e =>
      (RtmpStream.writesTo (st.gop.insert pkt) pkt x e.1 e.2).map fun p => (e.1, p))
  streams : srv'.streams = Function.update srv.streams url (some st')
  nextRef : srv'.nextRef = srv.nextRef
  sessions : srv'.sessions = srv.sessions

namespace Takes

variable {url : Bytes} {st st' : RtmpStream} {pkt : MediaPacket}

theorem cases_of (takes : srv.Takes x url st st' pkt srv') {u : Bytes} {other : RtmpStream}
    (found : srv'.streams u = some other) :
    (u = url ∧ other = st') ∨ (u ≠ url ∧ srv.streams u = some other) := by
  rw [takes.streams] at found
  by_cases same : u = url
  · rw [same, Function.update_self] at found
    exact .inl ⟨same, (Option.some.inj found).symm⟩
  · rw [Function.update_of_ne same] at found
    exact .inr ⟨same, found⟩

theorem taken (takes : srv.Takes x url st st' pkt srv') (ref : Nat) :
    taken ref srv'.log = taken ref srv.log ++ if st.ref = ref then [pkt] else [] := by
  rw [takes.log, ← List.singleton_append, taken_append, taken_append, relayEvents_taken,
    List.append_nil]
  by_cases here : st.ref = ref <;> simp [DroneServer.taken, Event.takenOn, here]

theorem mem_after (takes : srv.Takes x url st st' pkt srv') : y ∈ st'.peers ↔ y ∈ st.peers := by
  rw [takes.after]
  exact Table.mem_mapValues

theorem plain {e : Event} {writes : List (SessionId × MediaPacket)} {ref : Nat}
    (inside : e ∈ .cached x ref pkt :: relayEvents x ref writes) :
    (∀ y ref publisher ret, e ≠ .join y ref publisher ret) ∧ ∀ y ref, e ≠ .leave y ref := by
  rcases List.mem_cons.mp inside with rfl | inside
  · exact ⟨nofun, nofun⟩
  · obtain ⟨_, _, rfl⟩ := List.mem_map.mp inside
    exact ⟨nofun, nofun⟩

/-- A peer that is not the publisher is passed the packet, or the cache the first time. -/
theorem passes {served : Bool} (entry : (y, served) ∈ st.peers.entries) (other : y ≠ x) :
    Table.addressed y (st.peers.entries.flatMap fun e =>
      (RtmpStream.writesTo (st.gop.insert pkt) pkt x e.1 e.2).map fun p => (e.1, p)) =
        if served then [pkt] else (st.gop.insert pkt).write := by
  refine (Table.addressed_posts _ entry (RtmpStream.writesTo (st.gop.insert pkt) pkt x)).trans ?_
  rw [RtmpStream.writesTo, if_neg other]

theorem passes_nothing (apart : y ∉ st.peers ∨ y = x) :
    Table.addressed y (st.peers.entries.flatMap fun e =>
      (RtmpStream.writesTo (st.gop.insert pkt) pkt x e.1 e.2).map fun p => (e.1, p)) = [] := by
  by_cases inside : y ∈ st.peers
  · obtain ⟨served, entry⟩ := Table.mem_iff.mp inside
    refine (Table.addressed_posts _ entry (RtmpStream.writesTo (st.gop.insert pkt) pkt x)).trans ?_
    rw [RtmpStream.writesTo, if_pos (apart.resolve_left (not_not.mpr inside))]
  · exact Table.addressed_absent _ inside (RtmpStream.writesTo (st.gop.insert pkt) pkt x)

theorem unseated (takes : srv.Takes x url st st' pkt srv') (un : srv.WatchesNothing y) :
    srv'.WatchesNothing y := by
  refine un.keep takes.log (fun _ _ inside => (plain inside).1 _ _ _ _ rfl) ?_ ?_
  · refine (relayEvents_passed x _).trans (passes_nothing ?_)
    by_cases inside : y ∈ st.peers
    · have host := un.hosting takes.found inside
      rw [takes.host] at host
      exact .inr (Option.some.inj host).symm
    · exact .inl inside
  · intro u other found inside
    obtain ⟨_, rfl⟩ | ⟨_, old⟩ := takes.cases_of found
    · rw [takes.after]
      exact (un.hosting takes.found (takes.mem_after.mp inside) : st.publisher = some y)
    · exact un.hosting old inside

/-- A viewer of the stream that has not left gets the packet, and what it got so far goes on as it
    should. -/
theorem watched (takes : srv.Takes x url st st' pkt srv') (viewing : Viewing srv)
    {before after : List Event} (seated : srv.Watches y st.ref before after)
    (stays : .leave y st.ref ∉ after) (other : y ≠ x) :
    GopCache.replay (DroneServer.taken st.ref before) (takenWith st.ref y after) ++
      Table.addressed y (st.peers.entries.flatMap fun e =>
        (RtmpStream.writesTo (st.gop.insert pkt) pkt x e.1 e.2).map fun p => (e.1, p)) =
    GopCache.replay (DroneServer.taken st.ref before) (takenWith st.ref y after ++ [pkt]) := by
  rw [passes (seated.seat takes.found rfl stays) other, takenWith_staying stays]
  cases since : DroneServer.taken st.ref after with
  | nil =>
      have all : DroneServer.taken st.ref srv.log = DroneServer.taken st.ref before := by
        rw [seated.log, ← List.singleton_append, taken_append, taken_append, since, List.append_nil]
        exact List.append_nil _
      have cache : st.gop.insert pkt =
          GopCache.inserted 1 (DroneServer.taken st.ref before ++ [pkt]) := by
        rw [GopCache.inserted_snoc, viewing.caches takes.found, all]
      simp [cache, GopCache.replay]
  | cons first rest =>
      rw [GopCache.replay_snoc (List.cons_ne_nil _ _)]
      rfl

theorem seated (takes : srv.Takes x url st st' pkt srv') (viewing : Viewing srv)
    (reg : Registry srv) {ref : Nat} {before after : List Event}
    (seated : srv.Watches y ref before after) :
    ∃ after', srv'.Watches y ref before after' := by
  generalize now : Event.cached x st.ref pkt :: relayEvents x st.ref
      (st.peers.entries.flatMap fun e =>
        (RtmpStream.writesTo (st.gop.insert pkt) pkt x e.1 e.2).map fun p => (e.1, p)) = es
  have log : srv'.log = srv.log ++ es := takes.log.trans (by rw [now])
  have stays : ∀ {r}, .leave y r ∉ es := fun inside => (plain (now ▸ inside)).2 _ _ rfl
  have packet : ∀ r, DroneServer.taken r es = if st.ref = r then [pkt] else [] := by
    intro r
    have all := takes.taken r
    rw [log, taken_append] at all
    exact List.append_cancel_left all
  have passed : es.filterMap (Event.passedTo y) = Table.addressed y
      (st.peers.entries.flatMap fun e =>
        (RtmpStream.writesTo (st.gop.insert pkt) pkt x e.1 e.2).map fun p => (e.1, p)) := by
    rw [← now]
    exact relayEvents_passed x _
  -- a viewer of this stream that has not left is among its peers
  have there : st.ref = ref → .leave y ref ∉ after →
      (y, !(DroneServer.taken ref after).isEmpty) ∈ st.peers.entries ∧ y ≠ x := by
    intro here stayed
    have entry := seated.seat takes.found here stayed
    refine ⟨entry, ?_⟩
    rintro rfl
    exact (seated.place takes.found (Table.mem_of_entry entry)).2.2 takes.host
  refine ⟨after ++ es, seated.keep log (fun _ _ _ inside => (plain (now ▸ inside)).1 _ _ _ _ rfl) ?_
    takes.nextRef.ge ?_ ?_⟩
  · rw [passed]
    by_cases here : st.ref = ref
    · subst here
      by_cases left : .leave y st.ref ∈ after
      · rw [takenWith_append_left left, passes_nothing, List.append_nil]
        exact .inl fun inside => (seated.place takes.found inside).2.1 left
      · rw [takes.watched viewing seated left (there rfl left).2, takenWith_append_staying left,
          takenWith_staying left, takenWith_staying stays, packet, if_pos rfl]
    · rw [takenWith_append_silent ((packet ref).trans (if_neg here)), passes_nothing,
        List.append_nil]
      exact .inl fun inside => here (seated.place takes.found inside).1
  · intro u other found inside
    have later : ∀ {r}, .leave y r ∉ after → .leave y r ∉ after ++ es :=
      fun stayed left => (List.mem_append.mp left).elim stayed stays
    obtain ⟨_, rfl⟩ | ⟨_, old⟩ := takes.cases_of found
    · obtain ⟨here, stayed, watching⟩ := seated.place takes.found (takes.mem_after.mp inside)
      rw [takes.after]
      exact ⟨here, later stayed, watching⟩
    · obtain ⟨here, stayed, watching⟩ := seated.place old inside
      exact ⟨here, later stayed, watching⟩
  · intro u other found here stayed
    have before : .leave y ref ∉ after := fun left => stayed (List.mem_append_left _ left)
    rw [taken_append, packet]
    obtain ⟨_, rfl⟩ | ⟨apart, old⟩ := takes.cases_of found
    · have same : st.ref = ref := by
        rw [takes.after] at here
        exact here
      obtain ⟨entry, apart⟩ := there same before
      have updated := Table.mapValues_entry entry
        fun peer served => served || decide (peer ≠ x)
      rw [takes.after]
      have many : !(DroneServer.taken ref after ++ [pkt]).isEmpty := by simp
      rw [if_pos same, many]
      simpa [apart] using updated
    · have other : st.ref ≠ ref := fun same =>
        apart (reg.distinct old takes.found (here.trans same.symm))
      rw [if_neg other, List.append_nil]
      exact seated.seat old here before

end Takes

theorem Viewing.takes (viewing : Viewing srv) (reg : Registry srv) {url : Bytes}
    {st st' : RtmpStream} {pkt : MediaPacket} (takes : srv.Takes x url st st' pkt srv') :
    Viewing srv' := by
  constructor
  case caches =>
    intro u other found
    rw [takes.taken]
    obtain ⟨_, rfl⟩ | ⟨apart, old⟩ := takes.cases_of found
    · rw [takes.after]
      simp only [if_true]
      rw [GopCache.inserted_snoc, viewing.caches takes.found]
    · rw [if_neg fun same => apart (reg.distinct old takes.found same.symm), List.append_nil]
      exact viewing.caches old
  case fresh =>
    intro ref above
    rw [takes.taken, viewing.fresh ref (takes.nextRef ▸ above), if_neg, List.append_nil]
    rintro rfl
    exact absurd (reg.fresh takes.found) (not_lt.mpr (takes.nextRef ▸ above))
  case entered =>
    intro y ref publisher ret inside
    rw [takes.log] at inside
    rw [takes.sessions]
    rcases List.mem_append.mp inside with old | new
    · exact viewing.entered old
    · exact absurd rfl ((Takes.plain new).1 _ _ _ _)
  case views =>
    intro y
    exact (viewing.views y).imp takes.unseated fun ⟨_, _, _, seated⟩ =>
      have ⟨_, kept⟩ := takes.seated viewing reg seated
      ⟨_, _, _, kept⟩

theorem Viewing.act (viewing : Viewing srv) (reg : Registry srv) {may : Grants}
    (act : Act may x srv srv') : Viewing srv' := by
  have quiet : ∀ e ∈ ([] : List Event), e.placid := fun _ inside => nomatch inside
  cases act with
  | wrote same =>
      refine viewing.same (by rw [quiet_log same, List.append_nil]) quiet ?_ ?_ ?_
      · exact quiet_agree same nextRef fun _ => rfl
      · exact fun found => quiet_streams same ▸ found
      · intro y
        rw [RtmpSession.Entered, RtmpSession.Entered, quiet_state same]
        exact id
  | @note e routine =>
      refine viewing.same rfl (fun e' inside => ?_) rfl id fun _ => id
      rw [List.mem_singleton.mp inside]
      cases e <;> first | rfl | cases routine
  | @own s state =>
      refine viewing.same (List.append_nil _).symm quiet rfl id fun y entered => ?_
      by_cases self : y = x
      · subst self
        rwa [set_sessions, RtmpSession.Entered, state]
      · rwa [set_other _ _ self]
  | @advanced s es phase =>
      refine viewing.same rfl ?_ rfl id fun y entered => ?_
      · generalize (srv.sessions x).state = before at phase
        generalize s.state = after at phase
        cases phase <;> simp [Event.placid]
      · have other : y ≠ x := by
          rintro rfl
          rcases entered with state | state <;> rw [state] at phase <;> cases phase
        simpa only [emits, set_other _ _ other] using entered
  | @released url =>
      refine viewing.same (List.append_nil _).symm quiet rfl ?_ fun _ => id
      intro u st found
      simp only [setStream] at found
      by_cases same : u = url
      · rw [same, Function.update_self] at found
        cases found
      · rwa [Function.update_of_ne same] at found
  | departed found => exact viewing.left reg found
  | closed =>
      refine viewing.same (List.append_nil _).symm quiet rfl id fun y entered => ?_
      by_cases self : y = x
      · subst self
        rw [set_sessions]
        exact .inr rfl
      · rwa [set_other _ _ self]
  | entered publisher found phase => exact viewing.joined reg found publisher phase
  | relayed found phase accepted =>
      obtain ⟨host, demux, _, rfl, rfl⟩ := RtmpStream.send_ok accepted
      exact viewing.takes reg ⟨found, host, rfl, rfl, rfl, rfl, rfl⟩
  | crashed f => exact viewing.same (List.append_nil _).symm quiet rfl id fun _ => id

theorem Viewing.empty {recordForce : Bool} : Viewing { recordForce } where
  caches found := nomatch found
  fresh _ _ := rfl
  entered inside := nomatch inside
  views _ := .inl ⟨fun _ _ => List.not_mem_nil, rfl, fun found => nomatch found⟩

theorem Viewing.reachable {recordForce : Bool} {host : Host}
    (reached : (machine recordForce).Reachable host) : Viewing host.server :=
  (Reachable.of_acts (P := fun srv => Registry srv ∧ Viewing srv) ⟨.empty, .empty⟩
    (fun ⟨reg, viewing⟩ act => ⟨reg.act act, viewing.act reg act⟩) reached).2

/-- A session that joined as a viewer has the seat it joined for. -/
theorem Viewing.watches (viewing : Viewing srv) {before after : List Event} {ref : Nat} {ret : Ret}
    (log : srv.log = before ++ .join y ref false ret :: after) :
    ret = .ok ∧ srv.Watches y ref before after := by
  obtain un | ⟨ref', before', after', seated⟩ := viewing.views y
  · exact absurd (log ▸ by simp) (un.none ref ret)
  · have same := seated.log.symm.trans log
    have once := seated.once ref false ret
    obtain ⟨rfl, joined, rfl⟩ := (List.append_cons_inj_of_notMem once.1 once.2).mp same
    cases joined
    exact ⟨rfl, seated⟩

end Server

end DroneServer
