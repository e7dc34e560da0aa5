import DroneServer.Websocket.Requests
import DroneServer.Websocket.Survival

/-! # What leaves a client's `handle`

The handlers are called one after the other, each in the state the one before left;
since none touches what another looks at, what each withstands can be said of the
state at the start. With the branches of `handle` this gives the exact condition
under which a message is handled without ending the process.
-/

namespace DroneServer

open Handling

namespace StringHandler

/-- What a handler withstands of a text. -/
def Withstands (json : JsonText) (w : World) (out : Outside) (cid : ClientId) (msg : Bytes) :
    StringHandler → Prop
  | .recorderController =>
      ∀ j, json.parse msg = some j → RecorderController.Withstands w out cid j
  | .flightDatabaseController =>
      ∀ j, json.parse msg = some j → FlightDatabaseController.Withstands w out cid j
  | .vehicleDetectionController =>
      ∀ j, json.parse msg = some j → VehicleDetectionController.Withstands w out cid j
  | .flightDatabase db => ∀ j, json.parse msg = some j → FlightDatabase.Withstands json out db j

/-- The texts a handler says it handled. -/
def Handles (json : JsonText) (w : World) (msg : Bytes) : StringHandler → Prop
  | .recorderController => ∃ j, json.parse msg = some j ∧ RecorderController.Handles j
  | .flightDatabaseController => ∃ j, json.parse msg = some j ∧ FlightDatabaseController.Handles w j
  | .vehicleDetectionController =>
      ∃ j, json.parse msg = some j ∧ VehicleDetectionController.Handles j
  | .flightDatabase _ => ∃ j, json.parse msg = some j ∧ FlightDatabase.Handles json j

variable {json : JsonText} {out : Outside} {cid : ClientId} {msg : Bytes} {w w' : World}

theorem judged (h : StringHandler) (w : World) :
    Judged (h.handleString json out cid msg) w (h.Withstands json w out cid msg)
      (h.Handles json w msg) (h.Leaves w) := by
  cases h with
  | recorderController => exact RecorderController.judged json out cid msg w
  | flightDatabaseController => exact FlightDatabaseController.judged json out cid msg w
  | vehicleDetectionController => exact VehicleDetectionController.judged json out cid msg w
  | flightDatabase db => exact FlightDatabase.judged json out db msg w

theorem Leaves.other {h h' : StringHandler} (leaves : h.Leaves w w') (other : h' ≠ h) :
    (h'.Withstands json w' out cid msg ↔ h'.Withstands json w out cid msg) ∧
      (h'.Handles json w' msg ↔ h'.Handles json w msg) := by
  cases h' with
  | recorderController =>
      simp only [Withstands, Handles, RecorderController.Withstands, leaves.answerable,
        leaves.answerableIfCounted, and_self]
  | flightDatabaseController =>
      simp only [Withstands, Handles, FlightDatabaseController.Withstands,
        FlightDatabaseController.Switches, FlightDatabaseController.Handles, leaves.pool,
        leaves.fdPtr other.symm, and_self]
  | vehicleDetectionController =>
      simp only [Withstands, Handles, VehicleDetectionController.Withstands,
        VehicleDetectionController.CanDetect, leaves.answerableIfCounted,
        leaves.detectors other.symm, and_self]
  | flightDatabase db => simp only [Withstands, Handles, and_self]

theorem untyped_withstands {j : Json} (parsed : json.parse msg = some j)
    (none : ∀ text, ¬ j.Asks text) (h : StringHandler) : h.Withstands json w out cid msg := by
  cases h <;>
    simp [Withstands, parsed, none, RecorderController.Withstands,
      FlightDatabaseController.Withstands, VehicleDetectionController.Withstands,
      FlightDatabase.Withstands]

theorem untyped_unhandled {j : Json} (parsed : json.parse msg = some j)
    (none : ∀ text, ¬ j.Asks text) (h : StringHandler) : ¬ h.Handles json w msg := by
  cases h <;>
    simp [Handles, parsed, none, RecorderController.Handles, FlightDatabaseController.Handles,
      VehicleDetectionController.Handles, FlightDatabase.Handles]

end StringHandler

namespace World

/-- Every registered handler withstands the text. -/
def Withstands (json : JsonText) (w : World) (out : Outside) (cid : ClientId) (msg : Bytes) : Prop :=
  ∀ h ∈ w.recs, h.Withstands json w out cid msg

/-- A registered handler handles the text. -/
def Handles (json : JsonText) (w : World) (msg : Bytes) : Prop :=
  ∃ h ∈ w.recs, h.Handles json w msg

end World

namespace FlightDataManager

variable {json : JsonText} {out : Outside} {cid : ClientId} {msg : Bytes}

theorem each_ends (hs : List StringHandler) (apart : hs.Nodup) (w : World) :
    Ends (each json out cid msg hs) w
      (fun handled w' => ((∀ h ∈ hs, h.Withstands json w out cid msg) ∧
        (handled = true ↔ ∃ h ∈ hs, h.Handles json w msg)) ∧
          w'.clients = w.clients ∧ w'.pool = w.pool)
      fun e _ => e ≠ .json ∧ ¬ ∀ h ∈ hs, h.Withstands json w out cid msg := by
  induction hs generalizing w with
  | nil => simp [each]
  | cons h hs ih =>
      obtain ⟨fresh, apart⟩ := List.nodup_cons.mp apart
      refine (h.judged w).bind ?_ ?_
      · rintro first w' ⟨⟨survived, handled⟩, leaves⟩
        have same : ∀ h' ∈ hs, (h'.Withstands json w' out cid msg ↔ h'.Withstands json w out cid msg) ∧
            (h'.Handles json w' msg ↔ h'.Handles json w msg) :=
          fun h' inside => leaves.other fun eq => fresh (eq ▸ inside)
        have all : (∀ h' ∈ hs, h'.Withstands json w' out cid msg) ↔
            ∀ h' ∈ hs, h'.Withstands json w out cid msg :=
          forall₂_congr fun h' inside => (same h' inside).1
        have some : (∃ h' ∈ hs, h'.Handles json w' msg) ↔ ∃ h' ∈ hs, h'.Handles json w msg :=
          exists_congr fun h' => and_congr_right fun inside => (same h' inside).2
        refine (ih apart w').bind ?_ ?_
        · rintro later w'' ⟨⟨rest, handles⟩, clients, pool⟩
          refine ⟨⟨List.forall_mem_cons.mpr ⟨survived, all.mp rest⟩, ?_⟩,
            clients.trans leaves.clients, pool.trans leaves.pool⟩
          rw [Bool.or_eq_true, handled, handles, some, List.exists_mem_cons_iff]
        · rintro e w'' ⟨other, fails⟩
          exact ⟨other, fun every => fails (all.mpr (List.forall_mem_cons.mp every).2)⟩
      · rintro e w' ⟨other, fails⟩
        exact ⟨other, fun every => fails (List.forall_mem_cons.mp every).1⟩

/-- The manager returns exactly when all handlers withstand the text, and then tells whether one of
    them handled it. -/
theorem handle_ends (w : World) :
    Ends (handle json out cid msg) w
      (fun handled w' => (w.Withstands json out cid msg ∧ (handled = true ↔ w.Handles json msg)) ∧
        w'.clients = w.clients ∧ w'.pool = w.pool)
      fun e _ => e ≠ .json ∧ ¬ w.Withstands json out cid msg :=
  Ends.bind_iff.mpr (Ends.get_iff.mpr (each_ends _ w.recs.nodup w))

end FlightDataManager

namespace WebsocketClient

variable {json : JsonText} {out : Outside} {ref : ClientRef} {msg : Bytes}

/-- A hello with all it needs: the type, and for a drone its name and serial number. -/
def WellFormedHello (j : Json) : Prop :=
  ∃ ctype, j.ctype = .ok ctype ∧ (ClientType.ofInt ctype = .drone →
    (∃ name, j.dataString "drone_name" = .ok name) ∧ ∃ serial, j.dataString "serial" = .ok serial)

/-- A request the client handles itself. -/
def Own (c : WebsocketClient) (j : Json) : Prop :=
  j.Asks "hello" ∧ c.handshakeDone = false ∨
    (j.Asks "data_broadcast" ∨ j.Asks "drone_list") ∧ c.handshakeDone = true

/-- What handling a value takes. A message that is not understood takes that its sender can be kicked,
    and one that is answered that the answer gets through; a broadcast has to get through to every
    client of the pool. What goes to the handlers has to be withstood by all of them. -/
def Takes (json : JsonText) (w : World) (out : Outside) (ref : ClientRef) (msg : Bytes) (j : Json) :
    Prop :=
  let c := w.objects ref
  (j.Asks "hello" → c.handshakeDone = false →
    (WellFormedHello j → w.Deliverable out ref) ∧ (¬ WellFormedHello j → w.Closable out ref)) ∧
  (j.Asks "data_broadcast" → c.handshakeDone = true →
    w.Withstands json out c.id (json.dump j) ∧ ∀ peer ∈ w.pool.clients, w.Deliverable out peer) ∧
  (j.Asks "drone_list" → c.handshakeDone = true → w.Deliverable out ref) ∧
  (¬ c.Own j → w.Withstands json out c.id msg ∧ (w.Handles json msg ∨ w.Closable out ref))

/-- What handling a text takes. -/
def Withstands (json : JsonText) (w : World) (out : Outside) (ref : ClientRef) (msg : Bytes) : Prop :=
  (json.parse msg = none → w.Closable out ref) ∧
    ∀ j, json.parse msg = some j → Takes json w out ref msg j

/-- What the body of `handle` throws: a `json::exception`, and then all there is left to do is to kick
    the client, or something else. -/
def Thrown (w : World) (ref : ClientRef) (out : Outside) (survives : Prop) (e : Failure)
    (w' : World) : Prop :=
  (e = .json ∧ w'.clients = w.clients ∧ (survives ↔ w.Closable out ref)) ∨
    (e ≠ .json ∧ ¬ survives)

theorem this_ends {w : World} {Q : WebsocketClient → World → Prop} {E : Failure → World → Prop} :
    Ends (this ref) w Q E ↔ Q (w.objects ref) w := .rfl

theorem sent_ends {w w' : World} (same : w'.clients = w.clients) {dst : ClientRef} {survives : Prop}
    (survive : survives ↔ w.Deliverable out dst) (text : Bytes) :
    Ends (WebsocketServer.send out dst text) w' (fun _ _ => survives) (Thrown w ref out survives) := by
  have deliverable : w'.Deliverable out dst ↔ w.Deliverable out dst := World.deliverable_congr same
  refine (send_ends out dst text w').mono ?_ ?_
  · exact fun _ _ both => survive.mpr (deliverable.mp both.2)
  · rintro e w'' ⟨⟨rfl, _⟩, stuck⟩
    exact .inr ⟨by decide, fun holds => stuck (deliverable.mpr (survive.mp holds))⟩

theorem kicked_ends {w w' : World} (same : w'.clients = w.clients) {survives : Prop}
    (survive : survives ↔ w.Closable out ref) (status : CloseStatus) (reason : Bytes) :
    Ends (WebsocketServer.kick out ref status reason) w' (fun _ _ => survives)
      fun e _ => e ≠ .json ∧ ¬ survives := by
  have closable : w'.Closable out ref ↔ w.Closable out ref := World.closable_congr same
  refine (kick_ends out ref status reason w').mono ?_ ?_
  · exact fun _ _ both => survive.mpr (closable.mp both.2)
  · rintro e w'' ⟨⟨rfl, _⟩, stuck⟩
    exact ⟨by decide, fun holds => stuck (closable.mpr (survive.mp holds))⟩

theorem onHello_ends {w w' : World} (same : w'.clients = w.clients) {survives : Prop}
    (survive : survives ↔ w.Deliverable out ref) :
    Ends (onHello json out ref) w' (fun _ _ => survives) (Thrown w ref out survives) := by
  refine Ends.bind_iff.mpr (this_ends.mpr (Ends.bind_iff.mpr (Ends.get_iff.mpr ?_)))
  exact sent_ends same survive _

/-- A hello fails on the first member that is missing or of another type, after which its sender is
    kicked, or it is answered. -/
theorem hello_ends {j : Json} {w : World} {survives : Prop}
    (well : WellFormedHello j → (survives ↔ w.Deliverable out ref))
    (ill : ¬ WellFormedHello j → (survives ↔ w.Closable out ref)) :
    Ends (hello json out ref j) w (fun _ _ => survives) (Thrown w ref out survives) := by
  have greeted (well : survives ↔ w.Deliverable out ref) {w' : World}
      (same : w'.clients = w.clients) :
      Ends (do
          modify fun w => { w with pool := w.pool.add ref (w.objects ref) }
          assign ref fun c => { c with handshakeDone := true }
          onHello json out ref) w' (fun _ _ => survives) (Thrown w ref out survives) := by
    refine Ends.bind_iff.mpr (Ends.modify_iff.mpr ?_)
    refine Ends.bind_iff.mpr (Ends.modify_iff.mpr ?_)
    refine onHello_ends ?_ well
    exact same
  have failed {w' : World} (same : w'.clients = w.clients) (bad : ¬ WellFormedHello j) :
      Thrown w ref out survives .json w' := .inl ⟨rfl, same, ill bad⟩
  refine Ends.bind_iff.mpr (attempt_ends j.ctype_plain (fun ctype typed => ?_) fun none => ?_)
  · refine Ends.bind_iff.mpr (Ends.modify_iff.mpr ?_)
    split
    · next drone =>
        refine Ends.bind_iff.mpr (attempt_ends (j.dataString_plain _) (fun name named => ?_)
          fun none => ?_)
        · refine Ends.bind_iff.mpr (Ends.modify_iff.mpr ?_)
          refine Ends.bind_iff.mpr (attempt_ends (j.dataString_plain _) (fun serial found => ?_)
            fun none => ?_)
          · refine Ends.bind_iff.mpr (Ends.modify_iff.mpr ?_)
            exact greeted (well ⟨ctype, typed, fun _ => ⟨⟨name, named⟩, serial, found⟩⟩) rfl
          · refine failed rfl ?_
            rintro ⟨ctype', again, rest⟩
            rw [typed] at again
            cases again
            obtain ⟨_, serial, found⟩ := rest drone
            exact none serial found
        · refine failed rfl ?_
          rintro ⟨ctype', again, rest⟩
          rw [typed] at again
          cases again
          obtain ⟨⟨name, found⟩, _⟩ := rest drone
          exact none name found
    · next other => exact greeted (well ⟨ctype, typed, fun drone => absurd drone other⟩) rfl
  · refine failed rfl ?_
    rintro ⟨ctype, typed, _⟩
    exact none ctype typed

theorem onData_ends {w w' : World} (same : w'.clients = w.clients) (pool : w'.pool = w.pool)
    (data : Bytes) :
    Ends (onData out data) w' (fun _ _ => ∀ peer ∈ w.pool.clients, w.Deliverable out peer)
      fun e _ => e ≠ .json ∧ ¬ ∀ peer ∈ w.pool.clients, w.Deliverable out peer := by
  rw [← pool]
  have round : ∀ peer ∈ w'.pool.clients, ∀ s : World, s.clients = w.clients →
      Ends (WebsocketServer.send out peer data) s
        (fun _ s' => s'.clients = w.clients ∧ w.Deliverable out peer)
        fun e _ => e ≠ .json ∧ ¬ w.Deliverable out peer := by
    intro peer _ s clients
    have deliverable : s.Deliverable out peer ↔ w.Deliverable out peer :=
      World.deliverable_congr clients
    refine (send_ends out peer data s).mono ?_ ?_
    · rintro _ s' ⟨⟨_, rfl⟩, delivered⟩
      exact ⟨clients, deliverable.mp delivered⟩
    · rintro e s' ⟨⟨rfl, _⟩, stuck⟩
      exact ⟨by decide, fun holds => stuck (deliverable.mpr holds)⟩
  refine Ends.bind_iff.mpr (Ends.get_iff.mpr ?_)
  exact (Ends.forM (I := fun s : World => s.clients = w.clients) _ round same).mono
    (fun _ _ both => both.2) fun _ _ thrown => thrown

theorem onDroneList_ends {w : World} {survives : Prop} (survive : survives ↔ w.Deliverable out ref) :
    Ends (onDroneList json out ref) w (fun _ _ => survives) (Thrown w ref out survives) :=
  Ends.bind_iff.mpr (Ends.get_iff.mpr (sent_ends rfl survive _))

theorem takes_other {j : Json} {w : World} (own : ¬ (w.objects ref).Own j) :
    Takes json w out ref msg j ↔ w.Withstands json out (w.objects ref).id msg ∧
      (w.Handles json msg ∨ w.Closable out ref) := by
  constructor
  · exact fun takes => takes.2.2.2 own
  · intro holds
    refine ⟨fun asks early => absurd (.inl ⟨asks, early⟩) own, fun asks done => ?_,
      fun asks done => absurd (.inr ⟨.inr asks, done⟩) own, fun _ => holds⟩
    exact absurd (.inr ⟨.inl asks, done⟩) own

theorem branches_end {j type : Json} (typed : j.field "type" = .ok type) (w : World) :
    Ends (do
        let c ← this ref
        if type.Is "hello" ∧ !c.handshakeDone then hello json out ref j
        else if type.Is "data_broadcast" ∧ c.handshakeDone then
          let str := json.dump j
          let _ ← FlightDataManager.handle json out c.id str
          onData out str
        else if type.Is "drone_list" ∧ c.handshakeDone then onDroneList json out ref
        else if ← FlightDataManager.handle json out c.id msg then pure ()
        else WebsocketServer.kick out ref .invalidPayload (ascii "unsupported request")) w
      (fun _ _ => Takes json w out ref msg j) (Thrown w ref out (Takes json w out ref msg j)) := by
  refine Ends.bind_iff.mpr (this_ends.mpr ?_)
  have is := Json.asks_iff typed
  split
  · next asks =>
      have early : (w.objects ref).handshakeDone = false := by simpa using asks.2
      have broadcast : ¬ type.Is "data_broadcast" := asks.1.other (by decide)
      have list : ¬ type.Is "drone_list" := asks.1.other (by decide)
      simp only [Takes, Own, is, asks, early, broadcast, list, true_implies, false_implies, and_true,
        or_self, false_and, or_false, not_true_eq_false]
      refine hello_ends (fun well => ?_) fun ill => ?_
      · simp only [well, true_implies, not_true_eq_false, false_implies, and_true]
      · simp only [ill, false_implies, not_false_eq_true, true_implies, true_and]
  split
  · next greets asks =>
      have hello : ¬ type.Is "hello" := asks.1.other (by decide)
      have list : ¬ type.Is "drone_list" := asks.1.other (by decide)
      simp only [Takes, Own, is, asks, hello, list, true_implies, false_implies, true_and, and_true,
        false_and, true_or, or_true, not_true_eq_false]
      refine (FlightDataManager.handle_ends w).bind ?_ ?_
      · rintro _ w' ⟨⟨withstood, _⟩, clients, pool⟩
        refine (onData_ends clients pool _).mono (fun _ _ all => ⟨withstood, all⟩) ?_
        rintro e w'' ⟨other, fails⟩
        exact .inr ⟨other, fun holds => fails holds.2⟩
      · rintro e w' ⟨other, fails⟩
        exact .inr ⟨other, fun holds => fails holds.1⟩
  split
  · next greets broadcasts asks =>
      have hello : ¬ type.Is "hello" := asks.1.other (by decide)
      have broadcast : ¬ type.Is "data_broadcast" := asks.1.other (by decide)
      simp only [Takes, Own, is, asks, hello, broadcast, true_implies, false_implies, true_and,
        and_true, false_and, or_true, not_true_eq_false]
      exact onDroneList_ends .rfl
  · next greets broadcasts lists =>
      have own : ¬ (w.objects ref).Own j := by
        rintro (⟨asks, early⟩ | ⟨asks | asks, done⟩) <;> rw [is] at asks
        · exact greets ⟨asks, by rw [early]; rfl⟩
        · exact broadcasts ⟨asks, done⟩
        · exact lists ⟨asks, done⟩
      rw [takes_other own]
      refine (FlightDataManager.handle_ends w).bind ?_ ?_
      · rintro handled w' ⟨⟨withstood, same⟩, clients, _⟩
        split
        · next done => exact ⟨withstood, .inl (same.mp done)⟩
        · next undone =>
            refine (kicked_ends clients ?_ _ _).mono (fun _ _ holds => holds)
              fun _ _ thrown => .inr thrown
            rw [and_iff_right withstood, or_iff_right fun handles => undone (same.mpr handles)]
      · rintro e w' ⟨other, fails⟩
        exact .inr ⟨other, fun holds => fails holds.1⟩

theorem handle_ends (w : World) :
    Ends (handle json out ref msg) w (fun _ _ => Withstands json w out ref msg)
      fun e _ => e ≠ .json ∧ ¬ Withstands json w out ref msg := by
  refine Ends.catch_iff.mpr (Ends.mono (Q := fun _ _ => Withstands json w out ref msg)
    (E := Thrown w ref out (Withstands json w out ref msg)) ?_ (fun _ _ holds => holds) ?_)
  · rw [Ends.bind_iff, parse]
    unfold Withstands
    cases parsed : json.parse msg with
    | none =>
        refine .inl ⟨rfl, rfl, ?_⟩
        simp only [true_implies, reduceCtorEq, false_implies, implies_true, and_true]
    | some j =>
        simp only [reduceCtorEq, false_implies, true_and, Option.some.injEq, forall_eq', Ends.pure_iff]
        refine Ends.bind_iff.mpr (attempt_ends (Json.field_plain j _)
          (fun type typed => branches_end typed w) fun untyped => .inl ⟨rfl, rfl, ?_⟩)
        have none : ∀ text, ¬ j.Asks text := fun text ⟨t, read, _⟩ => untyped t read
        have own : ¬ (w.objects ref).Own j := by
          rintro (⟨asks, _⟩ | ⟨asks | asks, _⟩) <;> exact none _ asks
        have withstood : w.Withstands json out (w.objects ref).id msg :=
          fun h _ => h.untyped_withstands parsed none
        rw [takes_other own, and_iff_right withstood, or_iff_right]
        rintro ⟨h, _, handles⟩
        exact h.untyped_unhandled parsed none handles
  · rintro e w' (⟨rfl, same, survive⟩ | ⟨other, fails⟩)
    · rw [if_pos rfl]
      exact kicked_ends same survive _ _
    · rw [if_neg other]
      exact ⟨other, fails⟩

end WebsocketClient

/-- A client's message is handled without ending the process exactly when it, the pool and the
    libraries give what handling it takes: nothing throws that no clause catches, and no null entry of
    the pool is used. -/
theorem message_survived (json : JsonText) (out : Outside) (ref : ClientRef) (msg : Bytes)
    (w : World) :
    Returns (WebsocketClient.handle json out ref msg) w ↔
      WebsocketClient.Withstands json w out ref msg :=
  Ends.returns_iff ((WebsocketClient.handle_ends w).mono (fun _ _ holds => holds)
    fun _ _ thrown => thrown.2)

/-- A client that has said nothing yet asks for a recording, and `client_ids_.at` throws. -/
def strangerRecords : List Happening :=
  [.opened 0 7, .message 0 (Requests.print (Requests.set "media_record_set" "1" true)) {}]

/-- The request starts the recorder and ends the process. -/
example :
    let json := Requests.library [Requests.set "media_record_set" "1" true]
    ((web json {}).run strangerRecords).terminated = some .outOfRange ∧
      ((web json {}).run strangerRecords).world.recorders 1 = some 0 := by
  decide +kernel

theorem message_kills_server :
    ¬ ∀ (json : JsonText) (out : Outside) (ref : ClientRef) (msg : Bytes) (w : World),
      Returns (WebsocketClient.handle json out ref msg) w := by
  intro all
  let request := Requests.set "media_record_set" "1" true
  let json := Requests.library [request]
  let p := (web json {}).run [.opened 0 7]
  obtain ⟨_, w', returned⟩ := all json {} 0 (Requests.print request) p.world
  have escaped :
      (p.after (WebsocketClient.handle json {} 0 (Requests.print request) p.world)).terminated =
        some .outOfRange := by
    decide +kernel
  rw [returned] at escaped
  have running : p.terminated = none := rfl
  cases running.symm.trans escaped

end DroneServer
