import DroneServer.Websocket.DroneList
import DroneServer.Websocket.Statement
import DroneServer.Websocket.Turning

/-! # Broadcasts

What a client broadcasts goes to the database while saving is on, and to every client
that said hello. The theorem at the end follows one broadcast out of the process: a row,
if there is to be one, and the text once on each of these clients' connections.
-/

namespace DroneServer

open Handling

/-- What was sent on a connection. -/
def textsOn (conn : ConnId) (effects : List Effect) : List Bytes :=
  effects.filterMap fun
    | .sent c text => if c = conn then some text else none
    | _ => none

/-- Nobody was closed. -/
def NoneClosed (effects : List Effect) : Prop := ∀ effect ∈ effects, ∀ c status reason,
  effect ≠ .closed c status reason

namespace World

/-- The row a broadcast makes. -/
def saved (json : JsonText) (w : World) (j : Json) : List Effect :=
  match w.fdPtr, FlightDatabase.statement json j with
  | some db, .ok row => [.inserted db row]
  | _, _ => []

/-- What is sent to the clients of the pool. -/
def spread (w : World) (text : Bytes) : List Effect :=
  w.pool.clients.flatMap fun ref => w.posts ref text

end World

variable {json : JsonText} {out : Outside} {cid : ClientId} {msg text : Bytes} {j type : Json}
  {w : World} {setup : Setup}

theorem FlightDatabase.handleString_broadcast {db : DatabaseRef} (parsed : json.parse msg = some j)
    (typed : j.field "type" = .ok type) (is : type.Is "data_broadcast")
    (inserts : out.insertThrows db = false) (there : w.fdPtr = some db) :
    ∃ handled, handleString json out db msg w = .ok handled (w.add (w.saved json j)) := by
  unfold handleString
  simp only [Handling.parse, parsed, pure_bind, typed, attempt, if_pos is]
  unfold World.saved
  rw [there]
  cases made : statement json j with
  | error e =>
      cases statement_plain json j e made
      rw [World.add_nil]
      exact ⟨false, rfl⟩
  | ok row =>
      refine ⟨true, ?_⟩
      simp only [inserts]
      rfl

/-- Of the handlers, only the database is concerned with a broadcast. -/
theorem FlightDataManager.handle_broadcast (registered : w.Registered setup)
    (parsed : json.parse msg = some j) (typed : j.field "type" = .ok type)
    (is : type.Is "data_broadcast") (inserts : ∀ db, out.insertThrows db = false) :
    ∃ handled, handle json out cid msg w = .ok handled (w.add (w.saved json j)) := by
  have others : ∀ h ∈ w.recs.entries.map Prod.fst,
      (∀ db, w.fdPtr = some db → h ≠ .flightDatabase db) →
      ∀ v, h.handleString json out cid msg v = .ok false v := by
    intro h inside other
    refine h.handleString_unknown parsed typed fun text known => is.other ?_
    cases h with
    | flightDatabase db => exact absurd rfl (other db ((registered.databases db).mp inside))
    | recorderController | flightDatabaseController | vehicleDetectionController =>
        revert text
        simp only [StringHandler.texts]
        decide
  change ∃ handled, each json out cid msg (w.recs.entries.map Prod.fst) w = _
  cases saving : w.fdPtr with
  | none =>
      refine ⟨false, ?_⟩
      rw [World.saved, saving, World.add_nil]
      exact each_unknown (fun h inside => others h inside (by simp [saving])) w
  | some db =>
      obtain ⟨handled, ran⟩ :=
        FlightDatabase.handleString_broadcast parsed typed is (inserts db) saving
      have inside := (registered.databases db).mpr saving
      refine ⟨handled, (each_own w.recs.nodup inside ?_ w).trans ran⟩
      intro h inside apart
      refine others h inside fun db' there => ?_
      cases saving.symm.trans there
      exact apart

theorem WebsocketClient.handle_broadcast {ref : ClientRef} (registered : w.Registered setup)
    (said : (w.objects ref).handshakeDone = true) (parsed : json.parse msg = some j)
    (asks : j.Asks "data_broadcast") (again : json.parse (json.dump j) = some j)
    (sends : ∀ conn, out.sendThrows conn = none) (inserts : ∀ db, out.insertThrows db = false) :
    handle json out ref msg w =
      .ok ⟨⟩ (w.add (w.saved json j ++ w.spread (json.dump j))) := by
  obtain ⟨type, typed, is⟩ := asks
  have greets := is.other (show ascii _ ≠ ascii "hello" by decide)
  obtain ⟨handled, ran⟩ : ∃ handled, FlightDataManager.handle json out (w.objects ref).id
      (json.dump j) w = .ok handled (w.add (w.saved json j)) :=
    FlightDataManager.handle_broadcast registered again typed is inserts
  have body : (do
      let c ← this ref
      if type.Is "hello" ∧ !c.handshakeDone then hello json out ref j
      else if type.Is "data_broadcast" ∧ c.handshakeDone then
        let str := json.dump j
        let _ ← FlightDataManager.handle json out c.id str
        onData out str
      else if type.Is "drone_list" ∧ c.handshakeDone then onDroneList json out ref
      else if ← FlightDataManager.handle json out c.id msg then pure ()
      else WebsocketServer.kick out ref .invalidPayload (ascii "unsupported request") :
        Handling Unit) w = .ok ⟨⟩ (w.add (w.saved json j ++ w.spread (json.dump j))) := by
    rw [run_bind (show this ref w = .ok (w.objects ref) w from rfl),
      if_neg (fun both => greets both.1), if_pos ⟨is, said⟩, run_bind ran]
    unfold onData
    exact send_all w.pool.clients (fun _ _ conn _ => sends conn) _ _
  unfold handle Handling.parse
  simp only [parsed, pure_bind, typed, attempt]
  exact run_catch body

section Hearing

theorem textsOn_append (conn : ConnId) (first second : List Effect) :
    textsOn conn (first ++ second) = textsOn conn first ++ textsOn conn second :=
  List.filterMap_append

theorem World.saved_silent (conn : ConnId) (json : JsonText) (w : World) (j : Json) :
    textsOn conn (w.saved json j) = [] := by
  unfold saved
  split <;> rfl

private theorem flatMap_once {α β : Type} [DecidableEq α] {l : List α} (nodup : l.Nodup) (a : α)
    (b : β) : (l.flatMap fun c => if c = a then [b] else []) = if a ∈ l then [b] else [] := by
  induction l with
  | nil => rfl
  | cons c l ih =>
      obtain ⟨fresh, nodup⟩ := List.nodup_cons.mp nodup
      rw [List.flatMap_cons, ih nodup]
      by_cases here : c = a
      · subst here
        simp [fresh]
      · simp [here, Ne.symm here]

theorem World.posts_heard (conn : ConnId) (w : World) (ref : ClientRef) (text : Bytes) :
    textsOn conn (w.posts ref text) = if w.client conn = some ref then [text] else [] := by
  have nodup : (w.wires ref).Nodup := w.clients.nodup.sublist (List.filter_sublist.map Prod.fst)
  have heard : textsOn conn (w.posts ref text) =
      (w.wires ref).flatMap fun c => if c = conn then [text] else [] := by
    unfold textsOn World.posts
    rw [List.filterMap_map, List.filterMap_eq_flatMap_toList]
    refine List.flatMap_congr fun c _ => ?_
    dsimp only [Function.comp]
    split <;> rfl
  rw [heard, flatMap_once nodup]
  simp only [mem_wires]

/-- A connection hears a broadcast once, if its client is in the pool. -/
theorem World.spread_heard (once : w.pool.clients.Nodup) (conn : ConnId) (text : Bytes) :
    textsOn conn (w.spread text) =
      if ∃ ref ∈ w.pool.clients, w.client conn = some ref then [text] else [] := by
  have each : textsOn conn (w.spread text) =
      w.pool.clients.flatMap fun ref => if w.client conn = some ref then [text] else [] := by
    unfold textsOn spread
    rw [List.filterMap_flatMap]
    exact List.flatMap_congr fun ref _ => w.posts_heard conn ref text
  rw [each]
  cases w.client conn with
  | none => simp
  | some ref =>
      simp only [Option.some.injEq, eq_comm (a := ref), exists_eq_right]
      exact flatMap_once once ref text

theorem World.spread_open (json : JsonText) (w : World) (j : Json) (text : Bytes) :
    NoneClosed (w.saved json j ++ w.spread text) := by
  intro effect inside c status reason closed
  subst closed
  rcases List.mem_append.mp inside with row | sent
  · unfold saved at row
    split at row <;> simp at row
  · simp [spread, posts] at sent

theorem World.saved_rows (json : JsonText) (w : World) (j : Json) (text : Bytes) :
    (rows (w.saved json j ++ w.spread text)).map Prod.snd =
      if w.on .saving then (FlightDatabase.statement json j).toOption.toList else [] := by
  have sent : rows (w.spread text) = [] := by
    refine List.filterMap_eq_nil_iff.mpr fun effect inside => ?_
    simp only [spread, posts, List.mem_flatMap, List.mem_map] at inside
    obtain ⟨_, _, _, _, rfl⟩ := inside
    rfl
  have both : rows (w.saved json j ++ w.spread text) = rows (w.saved json j) := by
    rw [rows, List.filterMap_append]
    exact (congrArg (rows (w.saved json j) ++ ·) sent).trans (List.append_nil _)
  rw [both, on, saved]
  cases w.fdPtr <;> cases FlightDatabase.statement json j <;> rfl

end Hearing

/-- A connection has the client it was given last, and those connected that said hello are in the
    pool. -/
structure World.Connected (w : World) (opens : ConnId → Option ClientRef) : Prop where
  pooled : w.Pooled
  listed : ∀ {c r}, w.client c = some r ↔ opens c = some r
  single : ∀ {c c' r}, opens c = some r → opens c' = some r → c = c'
  told : ∀ {c r}, opens c = some r → (w.objects r).handshakeDone = true → r ∈ w.pool.clients

namespace World.Connected

variable {opens : ConnId → Option ClientRef} {conn : ConnId} {ref : ClientRef} {w' : World}

theorem below (connected : w.Connected opens) {c : ConnId} {r : ClientRef}
    (opened : opens c = some r) : r < w.nextClient :=
  connected.pooled.below (connected.listed.mpr opened)

theorem opening (connected : w.Connected opens) (conn : ConnId) (id : ClientId) :
    (w.onOpen conn id).Connected (Function.update opens conn (some w.nextClient)) where
  pooled := connected.pooled.opening conn id
  listed := by
    intro c r
    rw [onOpen_client, opens_opened, connected.listed]
  single first second := by
    rcases opens_opened.mp first with ⟨rfl, new⟩ | ⟨_, first⟩
    · rcases opens_opened.mp second with ⟨rfl, _⟩ | ⟨_, second⟩
      · rfl
      · exact absurd (connected.below second) (new ▸ Nat.lt_irrefl _)
    · rcases opens_opened.mp second with ⟨_, new⟩ | ⟨_, second⟩
      · exact absurd (connected.below first) (new ▸ Nat.lt_irrefl _)
      · exact connected.single first second
  told opened said := by
    rcases opens_opened.mp opened with ⟨_, rfl⟩ | ⟨_, before⟩
    · simp [onOpen] at said
    · rw [onOpen_old (connected.below before)] at said
      exact connected.told before said

/-- Whoever closes has a client to itself, so no other leaves the pool. -/
theorem closing (connected : w.Connected opens) (conn : ConnId) :
    (w.onClose conn).Connected (Function.update opens conn none) where
  pooled := connected.pooled.closing conn
  listed := by
    intro c r
    rw [onClose_client, opens_closed, connected.listed]
  single first second :=
    connected.single (opens_closed.mp first).2 (opens_closed.mp second).2
  told opened said := by
    obtain ⟨other, before⟩ := opens_closed.mp opened
    rw [onClose_objects] at said
    have inside := connected.told before said
    cases found : w.client conn with
    | none =>
        rw [onClose_missing found]
        exact inside
    | some ref =>
        rw [onClose_found found]
        refine ClientPool.mem_del.mpr ⟨?_, inside⟩
        rintro rfl
        exact other (connected.single before (connected.listed.mp found))

theorem talking (connected : w.Connected opens) (talked : w.Talked ref w') (pooled : w'.Pooled) :
    w'.Connected opens where
  pooled := pooled
  listed := by
    intro c r
    rw [World.client, talked.clients]
    exact connected.listed
  single := connected.single
  told := by
    intro c r opened said
    rcases talked with unseen | greeted
    · rw [unseen.pool]
      rw [unseen.told] at said
      exact connected.told opened said
    · obtain ⟨_, _, pool⟩ := greeted.pool
      rw [pool, ClientPool.mem_add]
      by_cases here : r = ref
      · exact .inr here
      · rw [greeted.told, if_neg here] at said
        exact .inl (connected.told opened said)

/-- The connections of the clients in the pool are those whose clients said hello. -/
theorem heard (connected : w.Connected opens) (c : ConnId) :
    (∃ ref ∈ w.pool.clients, w.client c = some ref) ↔
      ((opens c).any fun r => (w.objects r).handshakeDone) = true := by
  rw [Option.any_eq_true]
  constructor
  · rintro ⟨ref, inside, found⟩
    exact ⟨ref, connected.listed.mp found, (connected.pooled.said ref inside).2⟩
  · rintro ⟨ref, opened, said⟩
    exact ⟨ref, connected.told opened said, connected.listed.mpr opened⟩

end World.Connected

theorem Process.step_connected {p : Process} {opens : ConnId → Option ClientRef}
    (connected : p.world.Connected opens) (h : Happening) :
    (p.step json h).world.Connected (p.opening opens h) := by
  have pooled := (step_follows json connected.pooled h).pooled
  by_cases runs : p.Runs
  · rw [step_runs runs] at pooled ⊢
    rw [opening_runs runs]
    cases h with
    | rtmp l => exact ⟨pooled, connected.listed, connected.single, connected.told⟩
    | opened conn id => exact connected.opening conn id
    | closed conn | failed conn => exact connected.closing conn
    | message conn msg out =>
        cases found : p.world.client conn with
        | none =>
            simp only [perform, onMessage, found]
            refine ⟨connected.pooled.looking conn, ?_, connected.single, connected.told⟩
            intro c r
            rw [World.looked_client, connected.listed]
        | some ref => exact connected.talking (message_talks json msg out found) pooled
  · rw [step_ended runs, opening_ended runs]
    exact connected

theorem keeping_connected (json : JsonText) (setup : Setup) (labels : List Happening) :
    ((keeping json setup).run labels).1.world.Connected ((keeping json setup).run labels).2 := by
  refine (Machine.Reachable.run (keeping json setup) labels).invariant
    (P := fun s => s.1.world.Connected s.2) ?_ fun s h connected =>
      Process.step_connected connected h
  have nobody : ∀ {c r}, (keeping json setup).start.2 c = some r → False := nofun
  exact
    { pooled := web_pooled json setup
      listed := ⟨nofun, nofun⟩
      single := fun opened _ => (nobody opened).elim
      told := fun opened _ => (nobody opened).elim }

/-- Whatever happened before, a broadcast of a client that said hello is heard once on the
    connection of every client that said hello and on no other, closes nobody, and makes its row if
    saving was turned on last. The library has to read back what it printed, and nothing is to fail
    outside. -/
theorem broadcast_heard_once (json : JsonText) (setup : Setup) (labels : List Happening)
    {p : Process} (ran : (web json setup).run labels = p) (runs : p.Runs)
    {conn : ConnId} {ref : ClientRef} (entry : p.world.client conn = some ref)
    (said : (p.world.objects ref).handshakeDone = true) (parsed : json.parse msg = some j)
    (asks : j.Asks "data_broadcast") (again : json.parse (json.dump j) = some j)
    (sends : ∀ c, out.sendThrows c = none) (inserts : ∀ db, out.insertThrows db = false) :
    ∃ effects, p.step json (.message conn msg out) = { p with world := p.world.add effects } ∧
      NoneClosed effects ∧
      (∀ c, textsOn c effects =
        if (((keeping json setup).run labels).2 c).any fun r => (p.world.objects r).handshakeDone
        then [json.dump j] else []) ∧
      (rows effects).map Prod.snd =
        if Switch.last ((turning json setup).run labels).2 .saving
        then (FlightDatabase.statement json j).toOption.toList else [] := by
  have connected : p.world.Connected ((keeping json setup).run labels).2 := by
    have connected := keeping_connected json setup labels
    rwa [keeping, Machine.noting_run, ran] at connected
  have registered : p.world.Registered setup := by
    have registered := turning_registered json setup labels
    rwa [turning, Machine.noting_run, ran] at registered
  have on : p.world.on = Switch.last ((turning json setup).run labels).2 := by
    rw [← turning_on, turning, Machine.noting_run, ran]
  refine ⟨p.world.saved json j ++ p.world.spread (json.dump j), ?_,
    World.spread_open json p.world j _, ?_, ?_⟩
  · rw [Process.step_runs runs, Process.perform, Process.onMessage, entry]
    dsimp only
    rw [WebsocketClient.handle_broadcast registered said parsed asks again sends inserts]
    simp [Process.after]
  · intro c
    rw [textsOn_append, World.saved_silent, List.nil_append,
      World.spread_heard connected.pooled.once]
    exact if_congr (connected.heard c) rfl rfl
  · rw [World.saved_rows, on]

/-- What is broadcast, and the request to save it. -/
def flight : Json := Requests.dataBroadcast "1" (.unsigned 7)

def savingOn : Json :=
  .object [(ascii "data", .boolean true), (ascii "type", Json.str "flight_data_save_set")]

def flightLibrary : JsonText := Requests.library [Requests.helloOperator, savingOn, flight]

/-- Four clients connect, one leaves in silence, two say hello, and one of them has saving started. -/
def twoListen : List Happening :=
  [.opened 0 7, .opened 1 8, .opened 2 9, .opened 3 9, .closed 3,
    .message 0 (Requests.print Requests.helloOperator) {},
    .message 1 (Requests.print Requests.helloOperator) {}, .message 1 (Requests.print savingOn) {}]

/-- The two that said hello hear the broadcast, the third does not, and it is saved. -/
theorem broadcast_heard_once_saving :
    ∃ effects, (textsOn 0 effects = [Requests.print flight] ∧
        textsOn 1 effects = [Requests.print flight] ∧ textsOn 2 effects = []) ∧
      (rows effects).length = 1 ∧
      ((web flightLibrary {}).run (twoListen ++
        [.message 0 (Requests.print flight) {}])).world.effects =
          ((web flightLibrary {}).run twoListen).world.effects ++ effects := by
  have hello : Requests.print Requests.helloOperator ≠ Requests.print flight := by decide +kernel
  have saving : Requests.print savingOn ≠ Requests.print flight := by decide +kernel
  have parsed : flightLibrary.parse (Requests.print flight) = some flight := by
    simp [flightLibrary, Requests.library, hello, saving]
  have entry : ((web flightLibrary {}).run twoListen).world.client 0 = some 0 := by decide +kernel
  have sends : ∀ c, ({} : Outside).sendThrows c = none := fun _ => rfl
  obtain ⟨effects, stepped, _, heard, rowed⟩ :=
    broadcast_heard_once flightLibrary {} twoListen rfl (by decide +kernel) entry (by decide +kernel)
      parsed ⟨Json.str "data_broadcast", by rfl, by rfl⟩ parsed sends
      fun _ => rfl
  refine ⟨effects, ⟨?_, ?_, ?_⟩, ?_, ?_⟩
  · rw [heard 0]
    decide +kernel
  · rw [heard 1]
    decide +kernel
  · rw [heard 2]
    decide +kernel
  · rw [← List.length_map Prod.snd, rowed]
    decide +kernel
  · rw [Machine.run_snoc]
    generalize (web flightLibrary {}).run twoListen = p at stepped ⊢
    change (Process.step flightLibrary p _).world.effects = _
    rw [stepped]
    rfl

end DroneServer
