import DroneServer.Websocket.Registries

/-! # The drones of the pool

`drones()` is kept beside `clients()`, and both adding and removing a client go by the
type it has at that moment. A hello stores the type before the rest of it is read, so
that a hello that fails leaves a type behind; but the client it leaves it with is not
in the pool, and one that is says no further hello.
-/

namespace DroneServer

open Handling

namespace World

/-- The drones are the clients of that type, no client is in the pool twice, and those in it have
    said hello. -/
structure Pooled (w : World) : Prop where
  drones : w.pool.drones = w.pool.clients.filter fun r => (w.objects r).type = .drone
  once : w.pool.clients.Nodup
  said : ∀ r ∈ w.pool.clients, r < w.nextClient ∧ (w.objects r).handshakeDone = true
  below : ∀ {conn r}, w.client conn = some r → r < w.nextClient

/-- Who has said hello keeps its type. -/
structure Typed (w w' : World) : Prop where
  next : w.nextClient ≤ w'.nextClient
  type : ∀ r < w.nextClient, (w.objects r).handshakeDone = true →
    (w'.objects r).handshakeDone = true ∧ (w'.objects r).type = (w.objects r).type

/-- Of what the pool is about, only this client is another one, and it has not said hello either. -/
structure Besides (ref : ClientRef) (w w' : World) : Prop where
  pool : w'.pool = w.pool
  next : w'.nextClient = w.nextClient
  clients : w'.clients = w.clients
  others : ∀ r, r ≠ ref → w'.objects r = w.objects r
  told : (w'.objects ref).handshakeDone = (w.objects ref).handshakeDone

variable {w w' w'' : World} {ref : ClientRef} {conn : ConnId} {id : ClientId}

theorem Typed.refl (w : World) : w.Typed w := ⟨Nat.le_refl _, fun _ _ said => ⟨said, rfl⟩⟩

theorem Typed.trans (first : w.Typed w') (second : w'.Typed w'') : w.Typed w'' where
  next := first.next.trans second.next
  type r below said := by
    obtain ⟨said', same⟩ := first.type r below said
    obtain ⟨said'', same'⟩ := second.type r (below.trans_le first.next) said'
    exact ⟨said'', same'.trans same⟩

theorem Besides.refl (w : World) (ref : ClientRef) : w.Besides ref w :=
  ⟨rfl, rfl, rfl, fun _ _ => rfl, rfl⟩

theorem Besides.assigned (besides : w.Besides ref w') {f : WebsocketClient → WebsocketClient}
    (told : ∀ c, (f c).handshakeDone = c.handshakeDone) :
    w.Besides ref (w'.update ref (f (w'.objects ref))) where
  pool := besides.pool
  next := besides.next
  clients := besides.clients
  others r other := by
    rw [update_objects, if_neg other]
    exact besides.others r other
  told := by
    rw [update_objects, if_pos rfl, told]
    exact besides.told

theorem Besides.typed (besides : w.Besides ref w')
    (untold : (w.objects ref).handshakeDone = false) : w.Typed w' where
  next := besides.next.ge
  type r below said := by
    have other : r ≠ ref := by
      rintro rfl
      rw [untold] at said
      cases said
    rw [besides.others r other]
    exact ⟨said, rfl⟩

namespace Pooled

theorem same (pooled : w.Pooled) (pool : w'.pool = w.pool) (next : w'.nextClient = w.nextClient)
    (clients : w'.clients = w.clients) (objects : w'.objects = w.objects) : w'.Pooled where
  drones := by
    rw [pool, objects]
    exact pooled.drones
  once := pool ▸ pooled.once
  said := by
    rw [pool, next, objects]
    exact pooled.said
  below found := by
    rw [client, clients] at found
    rw [next]
    exact pooled.below found

theorem outside (pooled : w.Pooled) (untold : (w.objects ref).handshakeDone = false) :
    ref ∉ w.pool.clients := by
  intro inside
  have said := (pooled.said ref inside).2
  rw [untold] at said
  cases said

/-- What a hello assigns to a client before it is added makes no difference. -/
theorem besides (pooled : w.Pooled) (untold : (w.objects ref).handshakeDone = false)
    (besides : w.Besides ref w') : w'.Pooled := by
  have new := pooled.outside untold
  have inner : ∀ r ∈ w.pool.clients, w'.objects r = w.objects r :=
    fun r inside => besides.others r (ne_of_mem_of_not_mem inside new)
  constructor
  case drones =>
    rw [besides.pool, pooled.drones]
    exact List.filter_congr fun r inside => by rw [inner r inside]
  case once => exact besides.pool ▸ pooled.once
  case said =>
    rw [besides.pool, besides.next]
    intro r inside
    rw [inner r inside]
    exact pooled.said r inside
  case below =>
    intro conn r found
    rw [client, besides.clients] at found
    rw [besides.next]
    exact pooled.below found

theorem adding (pooled : w.Pooled) (below : ref < w.nextClient)
    (untold : (w.objects ref).handshakeDone = false) :
    ({ w with pool := w.pool.add ref (w.objects ref) }.update ref
      { w.objects ref with handshakeDone := true }).Pooled := by
  have new := pooled.outside untold
  -- the assignment is to the one field that neither list goes by
  have type : ∀ r, (({ w with pool := w.pool.add ref (w.objects ref) }.update ref
      { w.objects ref with handshakeDone := true }).objects r).type = (w.objects r).type := by
    intro r
    rw [update_objects]
    split
    · next here => rw [here]
    · rfl
  constructor
  case drones =>
    simp only [type]
    show (w.pool.add ref (w.objects ref)).drones = (w.pool.clients ++ [ref]).filter _
    rw [List.filter_append, ← pooled.drones, ClientPool.add, List.filter_singleton]
    by_cases drone : (w.objects ref).type = .drone
    · simp [drone]
    · simp [drone]
  case once =>
    refine List.nodup_append.mpr ⟨pooled.once, List.nodup_singleton ref, fun r inside r' last => ?_⟩
    rw [List.mem_singleton.mp last]
    exact ne_of_mem_of_not_mem inside new
  case said =>
    intro r inside
    rw [update_objects]
    rcases ClientPool.mem_add.mp inside with before | rfl
    · rw [if_neg (ne_of_mem_of_not_mem before new)]
      exact pooled.said r before
    · rw [if_pos rfl]
      exact ⟨below, rfl⟩
  case below => exact pooled.below

theorem removing (pooled : w.Pooled) (ref : ClientRef) :
    (w.pool.del ref (w.objects ref)).drones =
      (w.pool.del ref (w.objects ref)).clients.filter fun r => (w.objects r).type = .drone := by
  have both : ((w.pool.clients.filter fun r => r ≠ ref).filter fun r =>
      (w.objects r).type = .drone) = w.pool.drones.filter fun r => r ≠ ref := by
    rw [pooled.drones]
    exact List.filter_comm _ _ _
  rw [ClientPool.del]
  split
  · exact both.symm
  · next other =>
      refine Eq.trans ?_ both.symm
      refine (List.filter_eq_self.mpr fun r inside => ?_).symm
      rw [pooled.drones, List.mem_filter] at inside
      refine decide_eq_true ?_
      rintro rfl
      exact other (of_decide_eq_true inside.2)

theorem opening (pooled : w.Pooled) (conn : ConnId) (id : ClientId) : (w.onOpen conn id).Pooled := by
  have old : ∀ r ∈ w.pool.clients, (w.onOpen conn id).objects r = w.objects r :=
    fun r inside => onOpen_old (pooled.said r inside).1
  constructor
  case drones =>
    refine pooled.drones.trans (List.filter_congr fun r inside => ?_)
    rw [old r inside]
  case once => exact pooled.once
  case said =>
    intro r inside
    rw [old r inside]
    exact ⟨Nat.lt_succ_of_lt (pooled.said r inside).1, (pooled.said r inside).2⟩
  case below =>
    intro c r found
    rcases onOpen_client.mp found with ⟨_, rfl⟩ | ⟨_, before⟩
    · exact Nat.lt_succ_self _
    · exact Nat.lt_succ_of_lt (pooled.below before)

theorem looking (pooled : w.Pooled) (conn : ConnId) : (w.looked conn).Pooled :=
  ⟨pooled.drones, pooled.once, pooled.said, fun found => pooled.below (looked_client.mp found)⟩

theorem closing (pooled : w.Pooled) (conn : ConnId) : (w.onClose conn).Pooled := by
  cases found : w.client conn with
  | none =>
      rw [onClose_missing found]
      exact pooled.looking conn
  | some ref =>
      have below : ∀ {c r}, (w.onClose conn).client c = some r → r < w.nextClient :=
        fun there => pooled.below (onClose_client.mp there).2
      rw [onClose_found found] at below ⊢
      exact ⟨pooled.removing ref, pooled.once.filter _,
        fun r left => pooled.said r (ClientPool.mem_del.mp left).2, below⟩

end Pooled

/-- The pool is in order, and who has said hello has kept its type. -/
structure Follows (w w' : World) : Prop where
  pooled : w'.Pooled
  typed : w.Typed w'

theorem Follows.note (follows : w.Follows w') (effect : Effect) : w.Follows (w'.note effect) :=
  ⟨follows.pooled.same rfl rfl rfl rfl, ⟨follows.typed.next, follows.typed.type⟩⟩

theorem Besides.follows (besides : w.Besides ref w') (pooled : w.Pooled)
    (untold : (w.objects ref).handshakeDone = false) : w.Follows w' :=
  ⟨pooled.besides untold besides, besides.typed untold⟩

/-- Nothing but what the libraries do, and what the handlers keep for themselves. -/
structure Idle (w w' : World) : Prop where
  pool : w'.pool = w.pool
  next : w'.nextClient = w.nextClient
  clients : w'.clients = w.clients
  objects : w'.objects = w.objects

theorem Idle.handlers (w : World) (cid : ClientId) : HandlersKeep w.Idle cid where
  note _ idle := ⟨idle.pool, idle.next, idle.clients, idle.objects⟩
  record drone state idle := by
    unfold RecorderController.set
    split
    · exact ⟨idle.pool, idle.next, idle.clients, idle.objects⟩
    · exact ⟨idle.pool, idle.next, idle.clients, idle.objects⟩
    · exact idle
  detect _ idle := ⟨idle.pool, idle.next, idle.clients, idle.objects⟩
  watch _ idle _ := ⟨idle.pool, idle.next, idle.clients, idle.objects⟩
  save idle := ⟨idle.pool, idle.next, idle.clients, idle.objects⟩
  unsave _ idle := ⟨idle.pool, idle.next, idle.clients, idle.objects⟩

theorem Idle.follows (idle : w.Idle w') (pooled : w.Pooled) : w.Follows w' where
  pooled := pooled.same idle.pool idle.next idle.clients idle.objects
  typed := ⟨idle.next.ge, fun r _ said => by rw [idle.objects]; exact ⟨said, rfl⟩⟩

end World

namespace WebsocketClient

variable {json : JsonText} {out : Outside} {ref : ClientRef} {msg : Bytes} {w : World}

/-- A hello leaves the pool in order wherever it fails, and where it does not. -/
theorem hello_follows (pooled : w.Pooled) (below : ref < w.nextClient)
    (untold : (w.objects ref).handshakeDone = false) (j : Json) :
    Ends (hello json out ref j) w (fun _ => w.Follows) fun _ => w.Follows := by
  have added : ∀ w', w.Besides ref w' → Ends (do
      modify fun w => { w with pool := w.pool.add ref (w.objects ref) }
      assign ref fun c => { c with handshakeDone := true }
      onHello json out ref : Handling Unit) w' (fun _ => w.Follows) fun _ => w.Follows := by
    intro w' besides
    refine Ends.bind_iff.mpr (Ends.modify_iff.mpr (Ends.bind_iff.mpr (Ends.modify_iff.mpr ?_)))
    refine onHello_keeps (fun _ effect _ follows => follows.note effect) ref _ ⟨?_, ?_, ?_⟩
    · exact (pooled.besides untold besides).adding (besides.next ▸ below)
        (besides.told.trans untold)
    · exact besides.next.ge
    · intro r below said
      have other : r ≠ ref := by
        rintro rfl
        rw [untold] at said
        cases said
      rw [World.update_objects, if_neg other]
      exact (besides.typed untold).type r below said
  -- each part before that returns or throws with only this client changed
  have passes : ∀ {α : Type} {m : Handling α} {k : α → Handling Unit} {w' : World},
      Keeps (w.Besides ref) m → w.Besides ref w' →
      (∀ a w'', w.Besides ref w'' → Ends (k a) w'' (fun _ => w.Follows) fun _ => w.Follows) →
      Ends (m >>= k) w' (fun _ => w.Follows) fun _ => w.Follows :=
    fun keeps besides next =>
      (keeps _ besides).bind next fun _ _ besides => besides.follows pooled untold
  have assigns : ∀ {f : WebsocketClient → WebsocketClient},
      (∀ c, (f c).handshakeDone = c.handshakeDone) → Keeps (w.Besides ref) (assign ref f) :=
    fun told w' besides => Ends.modify_iff.mpr (besides.assigned told)
  refine passes (attempt_keeps j.ctype) (.refl w ref) fun ctype w' besides => ?_
  refine passes (assigns fun _ => rfl) besides fun _ w' besides => ?_
  split
  · refine passes (attempt_keeps _) besides fun droneName w' besides => ?_
    refine passes (assigns fun _ => rfl) besides fun _ w' besides => ?_
    refine passes (attempt_keeps _) besides fun serial w' besides => ?_
    exact passes (assigns fun _ => rfl) besides fun _ => added
  · exact added w' besides

theorem handle_follows (pooled : w.Pooled) (below : ref < w.nextClient) :
    Ends (handle json out ref msg) w (fun _ => w.Follows) fun _ => w.Follows :=
  handle_leads ⟨rfl, rfl, rfl, rfl⟩ (fun _ (idle : w.Idle _) => idle.follows pooled)
    (fun _ effect _ idle => (World.Idle.handlers w 0).note effect idle)
    (fun _ effect _ follows => follows.note effect)
    (fun _ _ => FlightDataManager.handle_keeps (World.Idle.handlers w _))
    fun j _ _ _ _ untold => hello_follows pooled below untold j

end WebsocketClient

namespace Process

theorem step_follows (json : JsonText) {p : Process} (pooled : p.world.Pooled) (h : Happening) :
    p.world.Follows (p.step json h).world := by
  by_cases runs : p.Runs
  · rw [step_runs runs]
    cases h with
    | rtmp l => exact World.Idle.follows ⟨rfl, rfl, rfl, rfl⟩ pooled
    | opened conn id =>
        refine ⟨pooled.opening conn id, Nat.le_succ _, fun r below said => ?_⟩
        rw [perform, World.onOpen_old below]
        exact ⟨said, rfl⟩
    | message conn msg out =>
        cases found : p.world.client conn with
        | none =>
            simp only [perform, onMessage, found]
            exact ⟨pooled.looking conn, Nat.le_refl _, fun _ _ said => ⟨said, rfl⟩⟩
        | some ref =>
            simp only [perform, onMessage, found]
            exact after_keeps (WebsocketClient.handle_follows pooled (pooled.below found))
    | closed conn | failed conn =>
        refine ⟨pooled.closing conn, (World.onClose_next _ conn).ge, fun r _ said => ?_⟩
        rw [perform, World.onClose_objects]
        exact ⟨said, rfl⟩
  · rw [step_ended runs]
    exact ⟨pooled, .refl _⟩

end Process

theorem web_pooled (json : JsonText) (setup : Setup) : (web json setup).start.world.Pooled where
  drones := rfl
  once := List.nodup_nil
  said r inside := absurd inside List.not_mem_nil
  below found := by cases found

/-- Whatever the clients send and however their connections open and close, `drones()` are the
    clients of the pool that are drones, in its order and each once; and a client that is in the pool
    has the same type for ever after. -/
theorem drone_list_exact (json : JsonText) (setup : Setup) (labels later : List Happening) :
    ((web json setup).run labels).world.pool.drones =
        ((web json setup).run labels).world.pool.clients.filter
          (fun r => (((web json setup).run labels).world.objects r).type = .drone) ∧
      ((web json setup).run labels).world.pool.clients.Nodup ∧
      ∀ r ∈ ((web json setup).run labels).world.pool.clients,
        (((web json setup).run (labels ++ later)).world.objects r).type =
          (((web json setup).run labels).world.objects r).type := by
  have pooled : ∀ labels, ((web json setup).run labels).world.Pooled := fun labels =>
    Machine.Reachable.invariant (P := fun p => p.world.Pooled) (web_pooled json setup)
      (fun _ h pooled => (Process.step_follows json pooled h).pooled)
      (Machine.Reachable.run (web json setup) labels)
  have typed : ((web json setup).run labels).world.Typed
      ((web json setup).run (labels ++ later)).world := by
    induction later using List.reverseRecOn with
    | nil =>
        rw [List.append_nil]
        exact .refl _
    | append_singleton later h ih =>
        rw [← List.append_assoc, Machine.run_snoc]
        exact ih.trans (Process.step_follows json (pooled (labels ++ later)) h).typed
  refine ⟨(pooled labels).drones, (pooled labels).once, fun r inside => ?_⟩
  obtain ⟨below, said⟩ := (pooled labels).said r inside
  exact (typed.type r below said).2

end DroneServer
