import DroneServer.Websocket.Connections
import DroneServer.Websocket.Keeping
import DroneServer.Websocket.Requests

/-! # The registries of the websocket clients

A client is in the table of the connections from its opening on, and in the pool
from its hello on. Both are left together at the close, which takes the hello for
granted: removing a client that never said it makes an entry, and so does looking a
connection up that has none.
-/

namespace DroneServer

open Handling

namespace World

/-- The registries agree with each other and with the clients of the open connections. -/
structure Agree (w : World) (opens : ConnId → Option ClientRef) : Prop where
  /-- `client_ids_` has the ids of the clients in the pool, and nothing else. -/
  named : ∀ id entry, w.pool.clientIds id = some entry ↔
    ∃ ref ∈ w.pool.clients, (w.objects ref).id = id ∧ entry = some ref
  once : w.pool.clients.Nodup
  connected : ∀ ref ∈ w.pool.clients, ∃ conn, opens conn = some ref
  opened : ∀ conn entry, (conn, entry) ∈ w.clients.entries → entry.isSome ∧ (opens conn).isSome

/-- What keeps them so: every open connection has its own client in the table, the clients that said
    hello are those in the pool, and no two have one id. -/
structure Kept (w : World) (opens : ConnId → Option ClientRef) : Prop extends w.Agree opens where
  made : ∀ {conn ref}, opens conn = some ref → ref < w.nextClient
  listed : ∀ {conn ref}, w.client conn = some ref ↔ opens conn = some ref
  single : ∀ {conn conn' ref}, opens conn = some ref → opens conn' = some ref → conn = conn'
  told : ∀ {conn ref}, opens conn = some ref →
    (ref ∈ w.pool.clients ↔ (w.objects ref).handshakeDone = true)
  apart : ∀ {r r'}, r < w.nextClient → r' < w.nextClient →
    (w.objects r).id = (w.objects r').id → r = r'

/-- The registries see nothing of what happened between the two. -/
structure Unseen (w w' : World) : Prop where
  clients : w'.clients = w.clients
  next : w'.nextClient = w.nextClient
  pool : w'.pool = w.pool
  ids : ∀ r, (w'.objects r).id = (w.objects r).id
  told : ∀ r, (w'.objects r).handshakeDone = (w.objects r).handshakeDone

/-- They see the first hello of this client. -/
structure Greeted (ref : ClientRef) (w w' : World) : Prop where
  untold : (w.objects ref).handshakeDone = false
  clients : w'.clients = w.clients
  next : w'.nextClient = w.nextClient
  pool : ∃ c, c.id = (w.objects ref).id ∧ w'.pool = w.pool.add ref c
  ids : ∀ r, (w'.objects r).id = (w.objects r).id
  told : ∀ r, (w'.objects r).handshakeDone =
    if r = ref then true else (w.objects r).handshakeDone

/-- They see this of a message. -/
def Talked (ref : ClientRef) (w w' : World) : Prop := w.Unseen w' ∨ w.Greeted ref w'

theorem looked_parted {w : World} {conn : ConnId} (missing : w.client conn = none)
    (opens : ConnId → Option ClientRef) : ¬ (w.looked conn).Agree opens := by
  intro agree
  have null := (agree.opened conn none (looked_null missing)).1
  cases null

theorem opens_opened {opens : ConnId → Option ClientRef} {conn c : ConnId} {next r : ClientRef} :
    Function.update opens conn (some next) c = some r ↔
      (c = conn ∧ r = next) ∨ (c ≠ conn ∧ opens c = some r) := by
  by_cases here : c = conn
  · simp [here, eq_comm]
  · simp [here]

theorem opens_closed {opens : ConnId → Option ClientRef} {conn c : ConnId} {r : ClientRef} :
    Function.update opens conn none c = some r ↔ c ≠ conn ∧ opens c = some r := by
  by_cases here : c = conn
  · simp [here]
  · simp [here]

namespace Kept

variable {w : World} {opens : ConnId → Option ClientRef} {conn : ConnId} {ref : ClientRef}

theorem below (kept : w.Kept opens) (inside : ref ∈ w.pool.clients) : ref < w.nextClient := by
  obtain ⟨conn, opened⟩ := kept.connected ref inside
  exact kept.made opened

theorem pooled (kept : w.Kept opens) (inside : ref ∈ w.pool.clients) :
    w.pool.clientIds (w.objects ref).id = some (some ref) :=
  (kept.named _ _).mpr ⟨ref, inside, rfl, rfl⟩

theorem unnamed (kept : w.Kept opens) (below : ref < w.nextClient)
    (outside : ref ∉ w.pool.clients) : w.pool.clientIds (w.objects ref).id = none := by
  cases entry : w.pool.clientIds (w.objects ref).id with
  | none => rfl
  | some entry' =>
      obtain ⟨r, inside, same, _⟩ := (kept.named _ _).mp entry
      rw [kept.apart (kept.below inside) below same] at inside
      exact absurd inside outside

theorem unseen {w' : World} (kept : w.Kept opens) (unseen : w.Unseen w') : w'.Kept opens where
  named := by simpa only [unseen.pool, unseen.ids] using kept.named
  once := unseen.pool ▸ kept.once
  connected := unseen.pool ▸ kept.connected
  opened := unseen.clients ▸ kept.opened
  made opened := unseen.next ▸ kept.made opened
  listed := by
    intro conn ref
    rw [client, unseen.clients]
    exact kept.listed
  single := kept.single
  told opened := by
    rw [unseen.pool, unseen.told]
    exact kept.told opened
  apart := by
    simp only [unseen.next, unseen.ids]
    exact kept.apart

section Opening

variable {id : ClientId}

theorem opening_agree (kept : w.Kept opens)
    (untold : ∀ ref ∈ w.client conn, (w.objects ref).handshakeDone = false) :
    (w.onOpen conn id).Agree (Function.update opens conn (some w.nextClient)) where
  named id entry := by
    refine (kept.named id entry).trans (exists_congr fun r => and_congr_right fun inside => ?_)
    rw [onOpen_old (kept.below inside)]
  once := kept.once
  connected ref inside := by
    obtain ⟨c, opened⟩ := kept.connected ref inside
    refine ⟨c, opens_opened.mpr (.inr ⟨?_, opened⟩)⟩
    rintro rfl
    have said := (kept.told opened).mp inside
    rw [untold ref (kept.listed.mpr opened)] at said
    cases said
  opened c entry inside := by
    rcases onOpen_entry.mp inside with ⟨rfl, rfl⟩ | ⟨other, inside⟩
    · exact ⟨rfl, by simp⟩
    · rw [Function.update_of_ne other]
      exact kept.opened c entry inside

theorem opening_apart (kept : w.Kept opens) (fresh : ∀ r < w.nextClient, (w.objects r).id ≠ id)
    {r r' : ClientRef} (below : r < w.nextClient + 1) (below' : r' < w.nextClient + 1)
    (same : ((w.onOpen conn id).objects r).id = ((w.onOpen conn id).objects r').id) : r = r' := by
  rcases Nat.lt_succ_iff_lt_or_eq.mp below with below | rfl
  · rcases Nat.lt_succ_iff_lt_or_eq.mp below' with below' | rfl
    · rw [onOpen_old below, onOpen_old below'] at same
      exact kept.apart below below' same
    · rw [onOpen_old below, onOpen_new] at same
      exact absurd same (fresh r below)
  · rcases Nat.lt_succ_iff_lt_or_eq.mp below' with below' | rfl
    · rw [onOpen_old below', onOpen_new] at same
      exact absurd same.symm (fresh r' below')
    · rfl

theorem opening (kept : w.Kept opens) (fresh : ∀ r < w.nextClient, (w.objects r).id ≠ id)
    (untold : ∀ ref ∈ w.client conn, (w.objects ref).handshakeDone = false) :
    (w.onOpen conn id).Kept (Function.update opens conn (some w.nextClient)) where
  toAgree := kept.opening_agree untold
  made opened := by
    rcases opens_opened.mp opened with ⟨_, rfl⟩ | ⟨_, before⟩
    · exact Nat.lt_succ_self _
    · exact Nat.lt_succ_of_lt (kept.made before)
  listed := by
    intro c r
    rw [onOpen_client, opens_opened, kept.listed]
  single first second := by
    rcases opens_opened.mp first with ⟨rfl, rfl⟩ | ⟨_, first⟩
    · rcases opens_opened.mp second with ⟨rfl, _⟩ | ⟨_, second⟩
      · rfl
      · exact absurd (kept.made second) (Nat.lt_irrefl _)
    · rcases opens_opened.mp second with ⟨_, rfl⟩ | ⟨_, second⟩
      · exact absurd (kept.made first) (Nat.lt_irrefl _)
      · exact kept.single first second
  told opened := by
    rcases opens_opened.mp opened with ⟨_, rfl⟩ | ⟨_, before⟩
    · rw [onOpen_new]
      exact ⟨fun inside => absurd (kept.below inside) (Nat.lt_irrefl _), fun said => by cases said⟩
    · rw [onOpen_old (kept.made before)]
      exact kept.told before
  apart := kept.opening_apart fresh

end Opening

section Greeting

variable {w' : World}

theorem outside (kept : w.Kept opens) (opened : opens conn = some ref)
    (untold : (w.objects ref).handshakeDone ≠ true) : ref ∉ w.pool.clients :=
  fun inside => untold ((kept.told opened).mp inside)

theorem greeting_agree (kept : w.Kept opens) (opened : opens conn = some ref)
    (greeted : w.Greeted ref w') : w'.Agree opens := by
  obtain ⟨untold, clients, next, ⟨c, same, pool⟩, ids, told⟩ := greeted
  have new := kept.outside opened (by simp [untold])
  constructor
  case named =>
    intro id entry
    simp only [ids, pool, ClientPool.mem_add]
    rw [ClientPool.add_clientIds, same]
    split
    · next here =>
        constructor
        · rintro ⟨⟩
          exact ⟨ref, .inr rfl, here.symm, rfl⟩
        · rintro ⟨r, inside | rfl, known, rfl⟩
          · rw [kept.apart (kept.below inside) (kept.made opened) (known.trans here)]
          · rfl
    · next elsewhere =>
        rw [kept.named]
        refine exists_congr fun r => and_congr_left fun known => ?_
        rw [or_iff_left]
        rintro rfl
        exact elsewhere known.1.symm
  case once =>
    rw [pool]
    refine List.nodup_append.mpr ⟨kept.once, List.nodup_singleton ref, fun r inside r' last => ?_⟩
    rw [List.mem_singleton.mp last]
    rintro rfl
    exact new inside
  case connected =>
    intro r inside
    rw [pool, ClientPool.mem_add] at inside
    rcases inside with before | rfl
    · exact kept.connected r before
    · exact ⟨conn, opened⟩
  case opened => exact clients ▸ kept.opened

theorem greeting (kept : w.Kept opens) (opened : opens conn = some ref)
    (greeted : w.Greeted ref w') : w'.Kept opens where
  toAgree := kept.greeting_agree opened greeted
  made opened := greeted.next ▸ kept.made opened
  listed := by
    intro conn ref
    rw [client, greeted.clients]
    exact kept.listed
  single := kept.single
  told opened := by
    obtain ⟨c, _, pool⟩ := greeted.pool
    rw [pool, ClientPool.mem_add, greeted.told]
    split
    · next here => simp [here]
    · next other => rw [or_iff_left other, kept.told opened]
  apart := by
    simp only [greeted.next, greeted.ids]
    exact kept.apart

end Greeting

section Closing

theorem closing_agree (kept : w.Kept opens) (opened : opens conn = some ref)
    (said : (w.objects ref).handshakeDone = true) :
    (w.onClose conn).Agree (Function.update opens conn none) := by
  have inside := (kept.told opened).mpr said
  rw [onClose_found (kept.listed.mpr opened)]
  constructor
  case named =>
    intro id entry
    simp only [ClientPool.mem_del]
    rw [ClientPool.del_clientIds (kept.pooled inside)]
    split
    · next here =>
        constructor
        · rintro ⟨⟩
        · rintro ⟨r, ⟨other, inside⟩, same, _⟩
          exact absurd (kept.apart (kept.below inside) (kept.made opened) (same.trans here)) other
    · next elsewhere =>
        rw [kept.named]
        refine exists_congr fun r => and_congr_left fun same => ?_
        rw [and_iff_right]
        rintro rfl
        exact elsewhere same.1.symm
  case once => exact kept.once.filter _
  case connected =>
    intro r left
    obtain ⟨other, before⟩ := ClientPool.mem_del.mp left
    obtain ⟨c, there⟩ := kept.connected r before
    refine ⟨c, opens_closed.mpr ⟨?_, there⟩⟩
    rintro rfl
    exact other (Option.some.inj (there.symm.trans opened))
  case opened =>
    intro c entry left
    obtain ⟨elsewhere, before⟩ := Table.erase_entry.mp left
    rw [Function.update_of_ne elsewhere]
    exact kept.opened c entry before

theorem closing (kept : w.Kept opens) (opened : opens conn = some ref)
    (said : (w.objects ref).handshakeDone = true) :
    (w.onClose conn).Kept (Function.update opens conn none) where
  toAgree := kept.closing_agree opened said
  made there := by
    rw [onClose_next]
    exact kept.made (opens_closed.mp there).2
  listed := by
    intro c r
    rw [onClose_client, opens_closed, kept.listed]
  single first second := kept.single (opens_closed.mp first).2 (opens_closed.mp second).2
  told there := by
    obtain ⟨elsewhere, before⟩ := opens_closed.mp there
    rw [onClose_objects, onClose_found (kept.listed.mpr opened), ClientPool.mem_del,
      and_iff_right, kept.told before]
    rintro rfl
    exact elsewhere (kept.single before opened)
  apart := by
    rw [onClose_next, onClose_objects]
    exact kept.apart

end Closing

/-- A client that said hello is left in the pool when its connection is opened anew. -/
theorem reopened (kept : w.Kept opens) (entry : w.client conn = some ref)
    (said : (w.objects ref).handshakeDone = true) (id : ClientId) :
    ¬ (w.onOpen conn id).Agree (Function.update opens conn (some w.nextClient)) := by
  intro agree
  have opened := kept.listed.mp entry
  obtain ⟨c, there⟩ := agree.connected ref ((kept.told opened).mpr said)
  by_cases here : c = conn
  · rw [here, Function.update_self] at there
    exact absurd (kept.made opened) (Option.some.inj there ▸ Nat.lt_irrefl _)
  · rw [Function.update_of_ne here] at there
    exact here (kept.single there opened)

/-- A client that never said hello gets a null entry when its connection closes. -/
theorem unsaid (kept : w.Kept opens) (entry : w.client conn = some ref)
    (untold : (w.objects ref).handshakeDone ≠ true) (after : ConnId → Option ClientRef) :
    ¬ (w.onClose conn).Agree after := by
  intro agree
  have opened := kept.listed.mp entry
  have missing := kept.unnamed (kept.made opened) (kept.outside opened untold)
  rw [onClose_found entry] at agree
  obtain ⟨r, _, _, none⟩ := (agree.named _ _).mp (ClientPool.del_missing missing)
  cases none

end Kept

end World

section

variable {json : JsonText} {out : Outside} {ref : ClientRef} {msg : Bytes} {w w' w'' : World}

namespace World

theorem Unseen.refl (w : World) : w.Unseen w := ⟨rfl, rfl, rfl, fun _ => rfl, fun _ => rfl⟩

theorem Unseen.then (unseen : w.Unseen w') (clients : w''.clients = w'.clients)
    (next : w''.nextClient = w'.nextClient) (pool : w''.pool = w'.pool)
    (objects : w''.objects = w'.objects) : w.Unseen w'' where
  clients := clients.trans unseen.clients
  next := next.trans unseen.next
  pool := pool.trans unseen.pool
  ids r := by rw [objects, unseen.ids]
  told r := by rw [objects, unseen.told]

theorem Unseen.note (unseen : w.Unseen w') (effect : Effect) : w.Unseen (w'.note effect) :=
  unseen.then rfl rfl rfl rfl

theorem Talked.clients (talked : w.Talked ref w') : w'.clients = w.clients :=
  talked.elim Unseen.clients Greeted.clients

theorem Talked.note (talked : w.Talked ref w') (effect : Effect) :
    w.Talked ref (w'.note effect) := by
  rcases talked with unseen | greeted
  · exact .inl (unseen.note effect)
  · obtain ⟨untold, clients, next, pool, ids, told⟩ := greeted
    exact .inr ⟨untold, clients, next, pool, ids, told⟩

theorem Unseen.handlers (w : World) (cid : ClientId) : HandlersKeep w.Unseen cid where
  note effect unseen := unseen.note effect
  record drone state unseen := by
    unfold RecorderController.set
    split
    · exact unseen.then rfl rfl rfl rfl
    · exact unseen.then rfl rfl rfl rfl
    · exact unseen
  detect _ unseen := unseen.then rfl rfl rfl rfl
  watch _ unseen _ := unseen.then rfl rfl rfl rfl
  save unseen := unseen.then rfl rfl rfl rfl
  unsave _ unseen := unseen.then rfl rfl rfl rfl

end World

namespace WebsocketClient

theorem assign_unseen {f : WebsocketClient → WebsocketClient} (id : ∀ c, (f c).id = c.id)
    (told : ∀ c, (f c).handshakeDone = c.handshakeDone) : Keeps w.Unseen (assign ref f) := by
  intro w' unseen
  refine Ends.modify_iff.mpr ⟨unseen.clients, unseen.next, unseen.pool, fun r => ?_, fun r => ?_⟩
  · rw [World.update_objects, ← unseen.ids]
    split
    · next here => rw [id, here]
    · rfl
  · rw [World.update_objects, ← unseen.told]
    split
    · next here => rw [told, here]
    · rfl

theorem hello_talks (untold : (w.objects ref).handshakeDone = false) (j : Json) :
    Ends (hello json out ref j) w (fun _ => w.Talked ref) fun _ => w.Talked ref := by
  have added : ∀ w', w.Unseen w' → Ends (do
      modify fun w => { w with pool := w.pool.add ref (w.objects ref) }
      assign ref fun c => { c with handshakeDone := true }
      onHello json out ref : Handling Unit) w' (fun _ => w.Talked ref) fun _ => w.Talked ref := by
    intro w' unseen
    refine Ends.bind_iff.mpr (Ends.modify_iff.mpr (Ends.bind_iff.mpr (Ends.modify_iff.mpr ?_)))
    refine onHello_keeps (fun _ effect _ talked => talked.note effect) ref _ (.inr ?_)
    refine ⟨untold, unseen.clients, unseen.next, ⟨w'.objects ref, unseen.ids ref, ?_⟩, ?_, ?_⟩
    · rw [← unseen.pool]
      rfl
    · intro r
      rw [World.update_objects, ← unseen.ids]
      split
      · next here => rw [here]
      · rfl
    · intro r
      rw [World.update_objects, ← unseen.told]
      split <;> rfl
  have passes : ∀ {α : Type} {m : Handling α} {k : α → Handling Unit} {w' : World},
      Keeps w.Unseen m → w.Unseen w' →
      (∀ a w'', w.Unseen w'' → Ends (k a) w'' (fun _ => w.Talked ref) fun _ => w.Talked ref) →
      Ends (m >>= k) w' (fun _ => w.Talked ref) fun _ => w.Talked ref :=
    fun keeps unseen next => (keeps _ unseen).bind next fun _ _ => .inl
  refine passes (attempt_keeps j.ctype) (.refl w) fun ctype w' unseen => ?_
  refine passes (assign_unseen (fun _ => rfl) fun _ => rfl) unseen fun _ w' unseen => ?_
  split
  · refine passes (attempt_keeps _) unseen fun droneName w' unseen => ?_
    refine passes (assign_unseen (fun _ => rfl) fun _ => rfl) unseen fun _ w' unseen => ?_
    refine passes (attempt_keeps _) unseen fun serial w' unseen => ?_
    exact passes (assign_unseen (fun _ => rfl) fun _ => rfl) unseen fun _ => added
  · exact added w' unseen

/-- Whatever a client sends, the registries see its first hello and nothing else. -/
theorem handle_talks :
    Ends (handle json out ref msg) w (fun _ => w.Talked ref) fun _ => w.Talked ref :=
  handle_leads (.refl w) (fun _ => .inl) (fun _ effect _ unseen => unseen.note effect)
    (fun _ effect _ talked => talked.note effect)
    (fun _ _ => FlightDataManager.handle_keeps (World.Unseen.handlers w _))
    fun j _ _ _ _ untold => hello_talks untold j

end WebsocketClient

end

namespace Process

/-- What may happen without parting the registries: no client opens over one that said hello, every
    message comes from a client in the table, and no client leaves that has not said hello. -/
def Orderly (p : Process) : Happening → Prop
  | .rtmp _ => True
  | .opened conn _ => ∀ ref ∈ p.world.client conn, (p.world.objects ref).handshakeDone = false
  | .message conn _ _ => (p.world.client conn).isSome
  | .closed conn | .failed conn =>
      ∃ ref ∈ p.world.client conn, (p.world.objects ref).handshakeDone = true

instance (p : Process) : (h : Happening) → Decidable (p.Orderly h)
  | .rtmp _ => .isTrue trivial
  | .opened conn _ =>
      decidable_of_iff
        ((p.world.client conn).all (fun ref => !(p.world.objects ref).handshakeDone) = true)
        (by simp [Orderly, Option.all_eq_true])
  | .message conn _ _ => inferInstanceAs (Decidable ((p.world.client conn).isSome = true))
  | .closed conn | .failed conn =>
      decidable_of_iff
        ((p.world.client conn).any (fun ref => (p.world.objects ref).handshakeDone) = true)
        (by simp [Orderly, Option.any_eq_true])

/-- Neither side has ended. -/
def Runs (p : Process) : Prop := p.terminated = none ∧ p.world.host.server.crashed = none

instance (p : Process) : Decidable p.Runs := inferInstanceAs (Decidable (_ ∧ _))

/-- The open connections with the clients they were given, as the events tell. -/
def opening (opens : ConnId → Option ClientRef) (p : Process) (h : Happening) :
    ConnId → Option ClientRef :=
  if p.Runs then
    match h with
    | .opened conn _ => Function.update opens conn (some p.world.nextClient)
    | .closed conn | .failed conn => Function.update opens conn none
    | .rtmp _ | .message _ _ _ => opens
  else opens

end Process

/-- The id a client draws in this event. -/
def Happening.drawn : Happening → Option ClientId
  | .opened _ id => some id
  | _ => none

/-- The process and its open connections. -/
def keeping (json : JsonText) (setup : Setup) :
    Machine (Process × (ConnId → Option ClientRef)) Happening :=
  (web json setup).noting (fun _ => none) Process.opening

namespace Process

variable {json : JsonText} {p : Process} {opens : ConnId → Option ClientRef} {h : Happening}

theorem step_runs (runs : p.Runs) : p.step json h = p.perform json h := if_pos runs

theorem step_ended (ended : ¬ p.Runs) : p.step json h = p := if_neg ended

theorem opening_runs (runs : p.Runs) :
    p.opening opens h = match h with
      | .opened conn _ => Function.update opens conn (some p.world.nextClient)
      | .closed conn | .failed conn => Function.update opens conn none
      | .rtmp _ | .message _ _ _ => opens := if_pos runs

theorem opening_ended (ended : ¬ p.Runs) : p.opening opens h = opens := if_neg ended

theorem message_talks (json : JsonText) (msg : Bytes) (out : Outside) {conn : ConnId}
    {ref : ClientRef} (entry : p.world.client conn = some ref) :
    p.world.Talked ref (p.perform json (.message conn msg out)).world := by
  simp only [perform, onMessage, entry]
  exact after_keeps WebsocketClient.handle_talks

theorem step_kept (kept : p.world.Kept opens)
    (fresh : ∀ id, h.drawn = some id → ∀ r < p.world.nextClient, (p.world.objects r).id ≠ id)
    (orderly : p.Runs → p.Orderly h) : (p.step json h).world.Kept (p.opening opens h) := by
  by_cases runs : p.Runs
  · have fine := orderly runs
    rw [step_runs runs, opening_runs runs]
    cases h with
    | rtmp l => exact kept.unseen ((World.Unseen.refl _).then rfl rfl rfl rfl)
    | opened conn id => exact kept.opening (fresh id rfl) fine
    | message conn msg out =>
        obtain ⟨ref, entry⟩ := Option.isSome_iff_exists.mp fine
        rcases message_talks json msg out entry with unseen | greeted
        · exact kept.unseen unseen
        · exact kept.greeting (kept.listed.mp entry) greeted
    | closed conn | failed conn =>
        obtain ⟨ref, entry, said⟩ := fine
        exact kept.closing (kept.listed.mp entry) said
  · rw [step_ended runs, opening_ended runs]
    exact kept

theorem step_parted (kept : p.world.Kept opens) (runs : p.Runs) (disorderly : ¬ p.Orderly h) :
    ¬ (p.step json h).world.Agree (p.opening opens h) := by
  rw [step_runs runs, opening_runs runs]
  cases h with
  | rtmp l => exact absurd trivial disorderly
  | opened conn id =>
      simp only [Orderly, not_forall, Bool.not_eq_false] at disorderly
      obtain ⟨ref, entry, said⟩ := disorderly
      exact kept.reopened entry said id
  | message conn msg out =>
      have missing : p.world.client conn = none := by simpa [Orderly] using disorderly
      simp only [perform, onMessage, missing]
      exact World.looked_parted missing _
  | closed conn | failed conn =>
      cases entry : p.world.client conn with
      | none =>
          simp only [perform, World.onClose, entry]
          exact World.looked_parted entry _
      | some ref => exact kept.unsaid entry (fun said => disorderly ⟨ref, entry, said⟩) _

theorem step_drawn (p : Process) (h : Happening) :
    ∀ r < (p.step json h).world.nextClient,
      (r < p.world.nextClient ∧ ((p.step json h).world.objects r).id = (p.world.objects r).id) ∨
        h.drawn = some ((p.step json h).world.objects r).id := by
  intro r below
  by_cases runs : p.Runs
  · rw [step_runs runs] at below ⊢
    cases h with
    | rtmp l => exact .inl ⟨below, rfl⟩
    | opened conn id =>
        rcases Nat.lt_succ_iff_lt_or_eq.mp below with before | rfl
        · exact .inl ⟨before, congrArg _ (World.onOpen_old before)⟩
        · exact .inr (congrArg (fun c : WebsocketClient => some c.id) World.onOpen_new).symm
    | message conn msg out =>
        cases entry : p.world.client conn with
        | none =>
            simp only [perform, onMessage, entry] at below ⊢
            exact .inl ⟨below, rfl⟩
        | some ref =>
            rcases message_talks json msg out entry with seen | seen
            · exact .inl ⟨seen.next ▸ below, seen.ids r⟩
            · exact .inl ⟨seen.next ▸ below, seen.ids r⟩
    | closed conn | failed conn =>
        simp only [perform, World.onClose_next, World.onClose_objects] at below ⊢
        exact .inl ⟨below, trivial⟩
  · rw [step_ended runs] at below ⊢
    exact .inl ⟨below, rfl⟩

end Process

theorem web_drawn (json : JsonText) (setup : Setup) (labels : List Happening) :
    ∀ r < ((web json setup).run labels).world.nextClient,
      (((web json setup).run labels).world.objects r).id ∈ labels.filterMap Happening.drawn := by
  induction labels using List.reverseRecOn with
  | nil => exact fun r below => absurd below (Nat.not_lt_zero r)
  | append_singleton labels h ih =>
      intro r below
      rw [Machine.run_snoc] at below ⊢
      rw [List.filterMap_append, List.mem_append]
      rcases Process.step_drawn ((web json setup).run labels) h r below with ⟨before, same⟩ | drawn
      · exact .inl (same ▸ ih r before)
      · exact .inr (List.mem_filterMap.mpr ⟨h, List.mem_cons_self, drawn⟩)

/-- Where no id is drawn twice, the one drawn next is new. -/
theorem web_fresh {json : JsonText} {setup : Setup} {labels : List Happening}
    (apart : (labels.filterMap Happening.drawn).Nodup) :
    (web json setup).Steps (fun p h => ∀ id, h.drawn = some id →
      ∀ r < p.world.nextClient, (p.world.objects r).id ≠ id) labels := by
  rintro done h ⟨rest, rfl⟩ id drawn r below rfl
  rw [List.filterMap_append, List.filterMap_append, List.nodup_append] at apart
  have earlier := web_drawn json setup done r below
  have now := List.mem_filterMap.mpr ⟨h, List.mem_singleton_self h, drawn⟩
  exact (List.nodup_append.mp apart.1).2.2 _ earlier _ now rfl

theorem web_kept (json : JsonText) (setup : Setup) :
    (web json setup).start.world.Kept fun _ => none where
  named id entry := by
    constructor
    · intro named
      cases named
    · rintro ⟨r, inside, _⟩
      exact absurd inside List.not_mem_nil
  once := List.nodup_nil
  connected _ inside := absurd inside List.not_mem_nil
  opened _ _ inside := absurd inside List.not_mem_nil
  made opened := by cases opened
  listed := by
    intro conn ref
    constructor
    · intro entry
      cases entry
    · intro opened
      cases opened
  single opened := by cases opened
  told opened := by cases opened
  apart below := absurd below (Nat.not_lt_zero _)

/-- The registries agree all along exactly if every client says hello before it leaves, and no event
    comes from a connection that has no client. -/
theorem registries_agree_iff (json : JsonText) (setup : Setup) (labels : List Happening)
    (apart : (labels.filterMap Happening.drawn).Nodup) :
    (keeping json setup).Always (fun s => s.1.world.Agree s.2) labels ↔
      (web json setup).Steps (fun p h => p.Runs → p.Orderly h) labels := by
  rw [← Machine.noting_steps (fun _ => none) Process.opening]
  refine Machine.always_iff_given (I := fun s => s.1.world.Kept s.2) (web_kept json setup)
    (fun s kept => kept.toAgree)
    (fun s h kept fresh orderly => Process.step_kept kept fresh orderly)
    (fun s h kept fresh broken => ?_) ((Machine.noting_steps _ _).mpr (web_fresh apart))
  rw [Classical.not_imp] at broken
  exact Process.step_parted kept broken.1 broken.2

/-- An operator says hello and leaves, and the connection is used again. -/
def politeOperator : List Happening :=
  [.opened 0 7, .message 0 (Requests.print Requests.helloOperator) {}, .closed 0, .opened 0 8]

theorem registries_agree_politeOperator :
    (keeping (Requests.library [Requests.helloOperator]) {}).Always (fun s => s.1.world.Agree s.2)
      politeOperator := by
  refine (registries_agree_iff _ _ _ (by decide)).mpr (Machine.Checks.steps ?_)
  decide +kernel

/-- A client that leaves without a hello stays in the pool's ids, as null. -/
theorem silent_client_named_null :
    ¬ ∀ (json : JsonText) (setup : Setup) (labels : List Happening),
      (labels.filterMap Happening.drawn).Nodup →
      (keeping json setup).Always (fun s => s.1.world.Agree s.2) labels := by
  intro all
  have agree := all (Requests.library []) {} [.opened 0 7, .closed 0] (by decide) _
    (List.prefix_refl _)
  obtain ⟨r, _, _, none⟩ := (agree.named 7 none).mp rfl
  cases none

end DroneServer
