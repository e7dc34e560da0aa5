import DroneServer.Rtmp.Peer
import DroneServer.Rtmp.View

/-! # Message lengths

While a message is unfinished, what is collected and what remains add up to the
announced length; when it is handed over, it has that length. The one thing that
breaks this is a header of type 0, 1 or 2 on a chunk stream that has collected
part of a message: unlike a type 3 header that starts a message, it keeps the
payload of the message it replaces.
-/

namespace DroneServer

namespace RtmpChunkStream

/-- A message has begun and is not complete. -/
def Unfinished (cs : RtmpChunkStream) : Prop :=
  cs.state = .payload ∨ ∃ rem, cs.rem = some rem ∧ rem ≠ 0

/-- What is collected agrees with the announced length. -/
structure Intact (cs : RtmpChunkStream) : Prop where
  unfinished : cs.Unfinished → ∃ rem, cs.rem = some rem ∧
    cs.data.length + rem.toNat = cs.len.toNat
  complete : cs.ready → cs.data.length = cs.len.toNat

/-- Intact, and in a state from which a header of any type may follow: nothing is expected of a
    complete message, and nothing is kept between messages. -/
structure Whole (cs : RtmpChunkStream) : Prop extends cs.Intact where
  done : cs.ready → cs.state = .header ∧ cs.rem = some 0
  idle : ¬ cs.Unfinished → cs.ready = false → cs.data = []

theorem whole_fresh (csid : UInt16) : Whole { csid } := by
  have idle : ¬ Unfinished { csid } := by simp [Unfinished]
  exact {
    unfinished := fun unfinished => absurd unfinished idle
    complete := fun ready => by cases ready
    done := fun ready => by cases ready
    idle := fun _ _ => rfl }

theorem Whole.clear {cs : RtmpChunkStream} (ready : cs.ready) (whole : cs.Whole) :
    cs.clear.Whole := by
  have idle : ¬ cs.clear.Unfinished := by
    rintro (payload | ⟨rem, left, nonzero⟩)
    · cases payload
    · have done := (whole.done ready).2
      rw [show cs.rem = some rem from left] at done
      exact nonzero (Option.some.inj done)
  exact {
    unfinished := fun unfinished => absurd unfinished idle
    complete := fun ready => by cases ready
    done := fun ready => by cases ready
    idle := fun _ _ => rfl }

/-- A header of type 0, 1 or 2 is complete on a chunk stream that has collected some payload. -/
def Overwrites (cs : RtmpChunkStream) (fmt : UInt8) (buf : Bytes) : Prop :=
  cs.state = .header ∧ (fmt = 0 ∨ fmt = 1 ∨ fmt = 2) ∧ HeaderComplete (headerSize fmt) buf ∧
    cs.data ≠ []

instance (cs : RtmpChunkStream) (fmt : UInt8) (buf : Bytes) : Decidable (cs.Overwrites fmt buf) :=
  inferInstanceAs (Decidable (_ ∧ _))

/-- Past a header, with that much of a message still to collect. -/
structure Collecting (cs : RtmpChunkStream) (rem : UInt32) : Prop where
  state : cs.state = .payload
  left : cs.rem = some rem
  notReady : cs.ready = false

namespace Collecting

variable {cs : RtmpChunkStream} {rem maxChunkSize : UInt32} {buf : Bytes}

theorem intact (collecting : cs.Collecting rem) :
    cs.Intact ↔ cs.data.length + rem.toNat = cs.len.toNat := by
  constructor
  · intro intact
    obtain ⟨rem', left, sum⟩ := intact.unfinished (.inl collecting.state)
    rw [collecting.left] at left
    cases left
    exact sum
  · intro sum
    refine ⟨fun _ => ⟨rem, collecting.left, sum⟩, fun ready => ?_⟩
    rw [collecting.notReady] at ready
    cases ready

theorem whole (collecting : cs.Collecting rem) (intact : cs.Intact) : cs.Whole where
  toIntact := intact
  done ready := by rw [collecting.notReady] at ready; cases ready
  idle not_unfinished := absurd (.inl collecting.state) not_unfinished

theorem taken_sum (enough : (asked rem maxChunkSize).toNat ≤ buf.length) :
    (cs.taken rem maxChunkSize buf).data.length + (rem - asked rem maxChunkSize).toNat =
      cs.data.length + rem.toNat := by
  have small := asked_toNat rem maxChunkSize
  have left : (rem - asked rem maxChunkSize).toNat = rem.toNat - (asked rem maxChunkSize).toNat :=
    UInt32.toNat_sub_of_le _ _ (UInt32.le_iff_toNat_le.mpr (by omega))
  simp only [taken, List.length_append, List.length_take, Nat.min_eq_left enough]
  omega

/-- The next piece leaves the message intact exactly when it was, and if it was, ready for what
    follows. -/
theorem taken (collecting : cs.Collecting rem)
    (enough : (asked rem maxChunkSize).toNat ≤ buf.length) :
    ((cs.taken rem maxChunkSize buf).Intact ↔ cs.Intact) ∧
      (cs.Intact → (cs.taken rem maxChunkSize buf).Whole) := by
  have sum : (cs.taken rem maxChunkSize buf).data.length + _ = _ := taken_sum enough
  rw [collecting.intact]
  generalize after : cs.taken rem maxChunkSize buf = cs' at sum ⊢
  have len : cs'.len = cs.len := by rw [← after]; rfl
  have left : cs'.rem = some (rem - asked rem maxChunkSize) := by rw [← after]; rfl
  have state : cs'.state = .header := by rw [← after]; rfl
  by_cases last : rem - asked rem maxChunkSize = 0
  · have ready : cs'.ready = true := by
      rw [← after]
      simp only [RtmpChunkStream.taken, last, if_true]
    have finished : ¬ cs'.Unfinished := by
      rintro (payload | ⟨r, some, nonzero⟩)
      · rw [state] at payload
        cases payload
      · rw [left, last] at some
        cases some
        exact nonzero rfl
    rw [last, UInt32.toNat_zero, Nat.add_zero] at sum
    have intact : cs.data.length + rem.toNat = cs.len.toNat → cs'.Intact := fun whole =>
      ⟨fun unfinished => absurd unfinished finished, fun _ => by rw [sum, whole, len]⟩
    refine ⟨⟨fun intact => ?_, intact⟩, fun whole => ?_⟩
    · rw [← sum, intact.complete ready, len]
    · refine { toIntact := intact whole, done := fun _ => ⟨state, ?_⟩, idle := fun _ idle => ?_ }
      · rw [left, last]
      · rw [ready] at idle
        cases idle
  · have ready : cs'.ready = false := by
      rw [← after]
      simp only [RtmpChunkStream.taken, last, if_false, collecting.notReady]
    have intact : cs.data.length + rem.toNat = cs.len.toNat → cs'.Intact := fun whole =>
      ⟨fun _ => ⟨_, left, by rw [sum, whole, len]⟩, fun h => by rw [ready] at h; cases h⟩
    refine ⟨⟨fun intact => ?_, intact⟩, fun whole => ?_⟩
    · obtain ⟨r, again, whole⟩ := intact.unfinished (.inr ⟨_, left, last⟩)
      rw [left] at again
      cases again
      rw [← sum, whole, len]
    · refine { toIntact := intact whole, done := fun h => ?_, idle := fun finished => ?_ }
      · rw [ready] at h
        cases h
      · exact absurd (.inr ⟨_, left, last⟩) finished

end Collecting

/-- The outcome of reading a header: not finished, with nothing of importance changed, or a message
    to collect, intact unless the header overwrites. -/
inductive HeaderRead (overwrites : Prop) : Ret × RtmpChunkStream × Bytes → Prop where
  | waiting {ret cs rest} (unread : ret ≠ .ok) (whole : cs.Whole) (notReady : cs.ready = false)
      (harmless : ¬ overwrites) : HeaderRead overwrites (ret, cs, rest)
  | collecting {cs rest rem} (collecting : cs.Collecting rem) (intact : cs.Intact ↔ ¬ overwrites) :
      HeaderRead overwrites (.ok, cs, rest)

private theorem Whole.relabel {cs : RtmpChunkStream} (whole : cs.Whole) (extTs : Bool)
    (fmt : Option UInt8) : Whole { cs with extTs, fmt } :=
  { unfinished := whole.unfinished, complete := whole.complete, done := whole.done
    idle := whole.idle }

section Header

variable {cs : RtmpChunkStream} {fmt : UInt8} {buf : Bytes} (whole : cs.Whole)
  (notReady : cs.ready = false) (idle : cs.state = .header)
include whole notReady idle

private theorem Whole.readFull {assign : Bytes → UInt32 → RtmpChunkStream → RtmpChunkStream}
    (type : fmt = 0 ∨ fmt = 1 ∨ fmt = 2)
    (starts : ∀ mh time cs, (assign mh time cs).data = cs.data ∧
      (assign mh time cs).ready = cs.ready ∧
      (assign mh time cs).rem = some (assign mh time cs).len) :
    HeaderRead (cs.Overwrites fmt buf)
      (entered fmt (RtmpChunkStream.readFull (headerSize fmt) assign cs buf)) := by
  obtain ⟨complete, time, ext, rest, read⟩ | ⟨incomplete, ext, read⟩ :=
    readFull_cases (headerSize fmt) assign cs buf
  · obtain ⟨data, ready, left⟩ :=
      starts (buf.take (headerSize fmt)) time { cs with extTs := ext }
    rw [read]
    have collecting : Collecting (entered fmt (.ok, assign (buf.take (headerSize fmt)) time
        { cs with extTs := ext }, rest)).2.1 _ := ⟨rfl, left, ready.trans notReady⟩
    refine .collecting collecting (collecting.intact.trans ?_)
    change (assign (buf.take (headerSize fmt)) time _).data.length + _ = _ ↔ _
    rw [data]
    simp only [Overwrites, idle, type, complete, true_and, not_not]
    rw [← List.length_eq_zero_iff]
    simp only [entered]
    omega
  · rw [read]
    simp only [entered, reduceCtorEq, if_false]
    exact .waiting (by decide) (whole.relabel ext (some fmt)) notReady
      fun overwrites => incomplete overwrites.2.2.1

private theorem Whole.readF3 {read : Ret × RtmpChunkStream × Bytes} (done : cs.readF3 buf = .ok read) :
    HeaderRead (cs.Overwrites 3 buf) (entered 3 read) := by
  have harmless : ¬ cs.Overwrites 3 buf := by
    rintro ⟨_, type, _⟩
    revert type
    decide
  obtain ⟨ret, cs', rest⟩ := read
  obtain ⟨rfl, rfl⟩ | ⟨rfl, rfl, rem, left, some⟩ | ⟨rfl, left, time, rfl⟩ := readF3_cases done
  · simp only [entered, reduceCtorEq, if_false]
    exact .waiting (by decide) (whole.relabel cs'.extTs (Option.some 3)) notReady harmless
  · obtain ⟨rem', again, sum⟩ := whole.unfinished (.inr ⟨rem, left, some⟩)
    rw [left] at again
    cases again
    have collecting : (entered 3 (.ok, cs', rest)).2.1.Collecting rem := ⟨rfl, left, notReady⟩
    exact .collecting collecting (iff_of_true (collecting.intact.mpr sum) harmless)
  · have collecting : (entered 3 (.ok, cs.restart time, rest)).2.1.Collecting cs.len :=
      ⟨rfl, rfl, rfl⟩
    refine .collecting collecting (iff_of_true (collecting.intact.mpr ?_) harmless)
    exact Nat.zero_add _

end Header

theorem Whole.readHeader {cs : RtmpChunkStream} {fmt : UInt8} {buf : Bytes}
    {read : Ret × RtmpChunkStream × Bytes} (whole : cs.Whole) (notReady : cs.ready = false)
    (done : cs.readHeader fmt buf = .ok read) : HeaderRead (cs.Overwrites fmt buf) read := by
  cases readHeader_cases done with
  | past busy =>
      have state : cs.state = .payload := by
        cases state : cs.state with
        | header => exact absurd state busy
        | payload => rfl
      obtain ⟨rem, left, _⟩ := whole.unfinished (.inl state)
      exact .collecting ⟨state, left, notReady⟩
        (iff_of_true whole.toIntact fun overwrites => busy overwrites.1)
  | full idle format =>
      cases format with
      | f0 => exact whole.readFull notReady idle (.inl rfl) fun _ _ _ => ⟨rfl, rfl, rfl⟩
      | f1 => exact whole.readFull notReady idle (.inr (.inl rfl)) fun _ _ _ => ⟨rfl, rfl, rfl⟩
      | f2 => exact whole.readFull notReady idle (.inr (.inr rfl)) fun _ _ _ => ⟨rfl, rfl, rfl⟩
  | repeated idle format again =>
      subst format
      exact whole.readF3 notReady idle again
  | unknown idle other =>
      refine .waiting nofun (whole.relabel cs.extTs (some fmt)) notReady ?_
      rintro ⟨_, type, _⟩
      exact type.elim other.1 fun type => type.elim other.2.1 other.2.2.1

end RtmpChunkStream

open RtmpChunkStream

namespace RtmpSession

/-- The chunk at the front of the buffer overwrites an unfinished message. -/
def Overwrites (s : RtmpSession) (buf : Bytes) : Prop :=
  (s.readBasicHeader buf).1.current.Overwrites (s.readBasicHeader buf).1.fmt
    (s.readBasicHeader buf).2

instance (s : RtmpSession) (buf : Bytes) : Decidable (s.Overwrites buf) :=
  inferInstanceAs (Decidable (RtmpChunkStream.Overwrites _ _ _))

/-- What holds of a decoder between two steps: no message is complete but the current one. -/
structure Lengths (d : Decoder) : Prop where
  whole : ∀ {csid cs}, d.csIn csid = some cs → cs.Whole
  pending : ∀ {csid cs}, d.csIn csid = some cs → cs.ready → csid = d.csid

theorem Lengths.store {d : Decoder} (lengths : Lengths d) {cs : RtmpChunkStream} (whole : cs.Whole) :
    Lengths (d.store cs) where
  whole {csid _} found := by
    simp only [Decoder.store] at found
    by_cases self : csid = d.csid
    · subst self
      rw [Function.update_self] at found
      exact Option.some.inj found ▸ whole
    · rw [Function.update_of_ne self] at found
      exact lengths.whole found
  pending {csid _} found ready := by
    simp only [Decoder.store] at found ⊢
    by_cases self : csid = d.csid
    · exact self
    · rw [Function.update_of_ne self] at found
      exact lengths.pending found ready

theorem Lengths.drop {d : Decoder} (lengths : Lengths d) (csid : UInt16) : Lengths (d.drop csid) := by
  have old : ∀ {id cs}, (d.drop csid).csIn id = some cs → d.csIn id = some cs := by
    intro id cs found
    simp only [Decoder.drop] at found
    by_cases self : id = csid
    · rw [self, Function.update_self] at found
      cases found
    · rwa [Function.update_of_ne self] at found
  exact ⟨fun found => lengths.whole (old found), fun found => lengths.pending (old found)⟩

theorem current_whole {s : RtmpSession} (lengths : Lengths s.decoder) : s.current.Whole := by
  unfold current
  cases found : s.csIn s.csid with
  | none => exact whole_fresh s.csid
  | some cs => exact lengths.whole found

theorem Lengths.basic {s : RtmpSession} (lengths : Lengths s.decoder) (idle : s.current.ready = false)
    (buf : Bytes) : Lengths (s.readBasicHeader buf).1.decoder ∧
      (s.readBasicHeader buf).1.current.Whole ∧
      (s.readBasicHeader buf).1.current.ready = false := by
  have quiet : ∀ {csid cs}, s.csIn csid = some cs → cs.ready = false := by
    intro csid cs found
    cases ready : cs.ready with
    | false => rfl
    | true =>
        have here : csid = s.csid := lengths.pending found ready
        subst here
        rw [current, found, Option.getD_some, ready] at idle
        cases idle
  generalize basic : (s.readBasicHeader buf).1 = s₁
  have csIn : s₁.csIn = s.csIn := by
    rw [← basic, readBasicHeader]
    split <;> rfl
  have lengths₁ : Lengths s₁.decoder := by
    have old : ∀ {csid cs}, s₁.decoder.csIn csid = some cs → s.csIn csid = some cs :=
      fun found => (congrFun csIn _).symm.trans found
    refine ⟨fun found => lengths.whole (old found), fun found ready => ?_⟩
    rw [quiet (old found)] at ready
    cases ready
  refine ⟨lengths₁, current_whole lengths₁, ?_⟩
  unfold current
  cases found : s₁.csIn s₁.csid with
  | none => rfl
  | some cs => exact quiet (csIn ▸ found)

theorem Lengths.header {s : RtmpSession} {buf : Bytes} {read : Ret × RtmpChunkStream × Bytes}
    (lengths : Lengths s.decoder) (idle : s.current.ready = false)
    (header : (s.readBasicHeader buf).1.current.readHeader (s.readBasicHeader buf).1.fmt
      (s.readBasicHeader buf).2 = .ok read) : HeaderRead (s.Overwrites buf) read := by
  obtain ⟨_, whole, notReady⟩ := lengths.basic idle buf
  exact whole.readHeader notReady header

theorem readChunkStream_eq {s : RtmpSession} {buf : Bytes} (fed : buf ≠ []) :
    s.readChunkStream buf = (do
      let (ret, cs, rest) ← (s.readBasicHeader buf).1.current.readHeader
        (s.readBasicHeader buf).1.fmt (s.readBasicHeader buf).2
      if ret ≠ .ok then pure (ret, (s.readBasicHeader buf).1.setCurrent cs, rest)
      else
        let (ret, cs, rest) ← cs.readPayload (s.readBasicHeader buf).1.maxChunkSize rest
        let s := (s.readBasicHeader buf).1.setCurrent cs
        pure (ret, if ret = .ok then { s with headerRead := false } else s, rest)) := by
  have long : ¬ buf.length < 1 := by
    have := List.length_pos_iff.mpr fed
    omega
  simp only [readChunkStream, long, if_false]

/-- Reading a chunk keeps all lengths, unless it overwrites a message, which is then not intact. -/
theorem Lengths.parse {s s' : RtmpSession} {buf rest : Bytes} {ret : Ret}
    (lengths : Lengths s.decoder) (idle : s.current.ready = false) (fed : buf ≠ [])
    (read : s.readChunkStream buf = .ok (ret, s', rest)) :
    (¬ s.Overwrites buf → Lengths s'.decoder) ∧
      (s.Overwrites buf → ∃ csid cs, s'.csIn csid = some cs ∧ ¬ cs.Intact) := by
  have lengths₁ := (lengths.basic idle buf).1
  rw [readChunkStream_eq fed] at read
  obtain ⟨⟨ret₁, cs, buf₂⟩, header, read⟩ := bind_ok.mp read
  have here : ∀ (s : RtmpSession) (cs : RtmpChunkStream), (s.setCurrent cs).csIn s.csid = some cs :=
    fun s cs => Function.update_self ..
  cases lengths.header idle header with
  | waiting unread whole notReady harmless =>
      simp only [unread, ne_eq, not_false_eq_true, if_true, pure_ok, Prod.mk.injEq] at read
      obtain ⟨_, rfl, _⟩ := read
      exact ⟨fun _ => lengths₁.store whole, fun overwrites => absurd overwrites harmless⟩
  | collecting collecting intact =>
      simp only [ne_eq, not_true_eq_false, if_false, readPayload_eq collecting.state collecting.left]
        at read
      obtain ⟨⟨ret₂, cs₂, buf₃⟩, payload, read⟩ := bind_ok.mp read
      cases read
      split at payload
      · cases payload
        simp only [reduceCtorEq, if_false]
        refine ⟨fun harmless => lengths₁.store (collecting.whole (intact.mpr harmless)), ?_⟩
        exact fun overwrites => ⟨_, cs, here _ cs, fun still => intact.mp still overwrites⟩
      · next enough =>
          cases payload
          obtain ⟨same, whole⟩ := collecting.taken (Nat.le_of_not_lt enough)
          simp only [if_true]
          refine ⟨fun harmless => ?_, fun overwrites => ?_⟩
          · have stored := lengths₁.store (whole (intact.mpr harmless))
            exact ⟨stored.whole, stored.pending⟩
          · exact ⟨_, _, here _ _, fun still => intact.mp (same.mp still) overwrites⟩

theorem Lengths.reads {s : RtmpSession} {buf : Bytes} (lengths : Lengths s.decoder)
    (idle : s.current.ready = false) (fed : buf ≠ []) (overwrites : s.Overwrites buf) :
    ∃ read, s.readChunkStream buf = .ok read := by
  obtain ⟨zero, one, two, _⟩ := readHeader_idle overwrites.1 (s.readBasicHeader buf).2
  have header : ∃ read, (s.readBasicHeader buf).1.current.readHeader (s.readBasicHeader buf).1.fmt
      (s.readBasicHeader buf).2 = .ok read := by
    rcases overwrites.2.1 with type | type | type <;> rw [type]
    · exact ⟨_, zero⟩
    · exact ⟨_, one⟩
    · exact ⟨_, two⟩
  obtain ⟨read, header⟩ := header
  rw [readChunkStream_eq fed, header]
  cases lengths.header idle header with
  | waiting _ _ _ harmless => exact absurd overwrites harmless
  | collecting collecting =>
      have payload := readPayload_eq collecting.state collecting.left
      simp only [bind, Except.bind, ne_eq, not_true_eq_false, if_false, payload]
      split
      · next failed => split at failed <;> cases failed
      · exact ⟨_, rfl⟩

end RtmpSession

/-- A call gets a payload of the length it announces. -/
def Event.Exact : Event → Prop
  | .call _ _ _ len _ _ payload => payload.length = len.toNat
  | _ => True

namespace Host

/-- Every unfinished message is intact, and every call so far got the payload announced. -/
def LengthsIntact (host : Host) : Prop :=
  (∀ x csid cs, (host.server.sessions x).csIn csid = some cs → cs.Intact) ∧
    ∀ e ∈ host.server.log, e.Exact

/-- The step reads the header of a chunk that overwrites an unfinished message. -/
def Overwrites (host : Host) : Label → Prop
  | .parse x => host.server.crashed = none ∧ host.Parsing x ∧
      (host.server.sessions x).Overwrites (host.recvBuf x)
  | _ => False

instance (host : Host) (l : Label) : Decidable (host.Overwrites l) :=
  match l with
  | .parse _ => inferInstanceAs (Decidable (_ ∧ _ ∧ _))
  | .accept _ | .receive _ _ | .shake _ _ | .dispatch _ _ | .close _ => .isFalse id

/-- The invariant behind: all decoders in order, as far as the view shows it. -/
def Orderly (v : View) : Prop :=
  (∀ x, RtmpSession.Lengths (v.decoders x)) ∧ ∀ e ∈ v.events, e.Exact

theorem Orderly.intact {host : Host} (orderly : Orderly host.server.view) : host.LengthsIntact := by
  refine ⟨fun x csid cs found => (orderly.1 x).whole found |>.toIntact, fun e inside => ?_⟩
  by_cases routine : e.routine
  · exact orderly.2 e (List.mem_filter.mpr ⟨inside, routine⟩)
  · cases e <;> trivial

theorem Orderly.viewWith {srv : Server} (orderly : Orderly srv.view) {x : SessionId}
    {d : RtmpSession.Decoder} (lengths : RtmpSession.Lengths d) {es : List Event}
    (exact_events : ∀ e ∈ es, e.Exact) : Orderly (srv.viewWith x d es) := by
  refine ⟨fun y => ?_, fun e inside => ?_⟩
  · simp only [Server.viewWith]
    by_cases self : y = x
    · subst self
      rwa [Function.update_self]
    · rw [Function.update_of_ne self]
      exact orderly.1 y
  · rcases List.mem_append.mp inside with old | new
    · exact orderly.2 e old
    · exact exact_events e new

theorem Orderly.dispatch {srv : Server} (orderly : Orderly srv.view) (env : Env) {x : SessionId}
    (ready : (srv.sessions x).current.ready) : Orderly (srv.dispatch env x).2.view := by
  have lengths : RtmpSession.Lengths (srv.sessions x).decoder := orderly.1 x
  have called : (srv.calling x).Exact :=
    (RtmpSession.current_whole lengths).complete ready
  have cleared : ∀ {cs}, (srv.sessions x).csIn (srv.sessions x).csid = some cs → cs.clear.Whole := by
    intro cs present
    rw [RtmpSession.current, present, Option.getD_some] at ready
    exact (lengths.whole present).clear ready
  obtain ⟨d, es, handled, view⟩ | ⟨_, _, es, events, view⟩ := Server.dispatch_view env srv x <;>
    rw [view]
  · generalize (srv.dispatch env x).1 = ret at handled ⊢
    have plain : ∀ e ∈ es, e.Exact := by
      intro e inside
      cases handled <;> simp only [List.mem_singleton, List.not_mem_nil] at inside <;>
        subst inside <;> trivial
    have after : RtmpSession.Lengths d := by
      cases handled with
      | sized _ _ _ present =>
          have stored := lengths.store (cleared present)
          exact ⟨stored.whole, stored.pending⟩
      | @aborted _ csid _ _ _ _ present =>
          exact (lengths.drop csid.toUInt16).store (cleared present)
      | cleared _ _ present => exact lengths.store (cleared present)
      | connected _ present =>
          have stored := lengths.store (cleared present)
          exact ⟨stored.whole, stored.pending⟩
      | kept => exact lengths
    refine orderly.viewWith after fun e inside => ?_
    simp only [List.cons_append, List.mem_cons, List.mem_append, List.not_mem_nil, or_false] at inside
    rcases inside with rfl | inside | rfl
    · exact called
    · exact plain e inside
    · trivial
  · refine orderly.viewWith lengths fun e inside => ?_
    obtain rfl | rfl := events
    · cases inside
    · rw [List.mem_singleton.mp inside]
      exact called

/-- One step keeps everything in order unless it overwrites, and then something is not intact. -/
theorem Orderly.step {host : Host} (orderly : Orderly host.server.view) (l : Label) :
    (¬ host.Overwrites l → Orderly (host.step l).server.view) ∧
      (host.Overwrites l → ¬ (host.step l).LengthsIntact) := by
  constructor
  · intro harmless
    obtain view | ⟨x, ret, s, rest, rfl, running, parsing, read⟩ | ⟨x, env, rfl, ready, done⟩ :=
      host.step_view l
    · rwa [view]
    · rw [host.parse_view running parsing read]
      have lengths := orderly.1 x
      have idle := Bool.eq_false_iff.mpr parsing.2.2.1
      refine orderly.viewWith ?_ (fun e inside => by cases inside)
      refine (lengths.parse idle parsing.2.2.2 read).1 fun overwrites => ?_
      exact harmless ⟨running, parsing, overwrites⟩
    · rw [done]
      exact orderly.dispatch env ready.2.2
  · intro overwrites
    cases l with
    | parse x =>
        obtain ⟨running, parsing, overwrites⟩ := overwrites
        have lengths := orderly.1 x
        have idle := Bool.eq_false_iff.mpr parsing.2.2.1
        have fed := parsing.2.2.2
        obtain ⟨⟨ret, s, rest⟩, read⟩ := lengths.reads idle fed overwrites
        obtain ⟨csid, cs, found, spoiled⟩ := (lengths.parse idle fed read).2 overwrites
        intro intact
        refine spoiled (intact.1 x csid cs ?_)
        have decoder : ((host.step (.parse x)).server.sessions x).decoder = s.decoder := by
          have same := congrFun (congrArg View.decoders (host.parse_view running parsing read)) x
          exact same.trans (Function.update_self ..)
        have csIn : ((host.step (.parse x)).server.sessions x).csIn = s.csIn :=
          congrArg (·.csIn) decoder
        rw [csIn, found]
    | accept | receive | shake | dispatch | close => exact overwrites.elim

end Host

/-- All lengths are intact in every state of a run exactly when no step of it reads a complete
    header of type 0, 1 or 2 on a chunk stream that has collected part of a message. -/
theorem lengths_intact (recordForce : Bool) (labels : List Label) :
    (machine recordForce).Always Host.LengthsIntact labels ↔
      (machine recordForce).Steps (fun host l => ¬ host.Overwrites l) labels := by
  have start : Host.Orderly (machine recordForce).start.server.view := by
    refine ⟨fun x => ⟨fun found => ?_, fun found => ?_⟩, fun e inside => ?_⟩
    · cases found
    · cases found
    · cases inside
  refine Machine.always_iff (I := fun host => Host.Orderly host.server.view) start ?_ ?_ ?_
  · exact fun _ orderly => orderly.intact
  · exact fun _ l orderly harmless => (orderly.step l).1 harmless
  · exact fun _ l orderly overwrites => (orderly.step l).2 (not_not.mp overwrites)

/-- A type 0 header, half of its message, and a second type 0 header in its place. -/
def replacedMessage : Bytes :=
  chunk 3 (.f0 0 200 20 0) (List.replicate 128 0) ++ chunk 3 (.f0 0 1 20 0) [0]

set_option maxRecDepth 4000 in
/-- The second message is handed over with the half of the first in front of it. -/
theorem lengths_not_intact : ¬ (machine false).Always Host.LengthsIntact
    (Peer.greet 1 ++ [.receive 1 replacedMessage, .parse 1, .parse 1, .dispatch 1 Peer.env]) := by
  intro always
  have called : Event.call 1 3 20 1 0 0 (List.replicate 129 0) ∈
      ((machine false).run (Peer.greet 1 ++
        [.receive 1 replacedMessage, .parse 1, .parse 1, .dispatch 1 Peer.env])).server.log := by
    decide +kernel
  have short : (List.replicate 129 (0 : UInt8)).length = (1 : UInt32).toNat :=
    (always _ (List.prefix_refl _)).2 _ called
  exact absurd short (by decide)

end DroneServer
