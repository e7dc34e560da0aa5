import DroneServer.Websocket.Beside
import DroneServer.Websocket.Uncaught

/-! # Clients that have not said hello

Two branches of `handle` ask whether the client said hello. The last one does not: it
hands the text to every handler, and no handler asks. What the handlers would do for
the text is said by `Acts`, and whether it ends the process by `Kills`; where they do
nothing and the process survives, all that others see is as in the run without the
client's messages.
-/

namespace DroneServer

open Handling

namespace RecorderController

/-- The request asks for the state that is not there. -/
def Switches (w : World) (j : Json) : Prop :=
  ∃ drone state, j.droneId = .ok drone ∧ j.droneState = .ok state ∧
    (w.recorders drone).isSome ≠ state

theorem set_there {w : World} {drone : ClientId} {state : Bool}
    (there : (w.recorders drone).isSome = state) : set w drone state = w := by
  unfold set
  split
  · next none => simp [none] at there
  · next found => simp [found] at there
  · rfl

end RecorderController

namespace VehicleDetectionController

/-- The request makes a detector, or asks of the one there is for the state that is not there. -/
def Switches (w : World) (out : Outside) (cid : ClientId) (j : Json) : Prop :=
  ∃ drone state, j.droneId = .ok drone ∧ j.droneState = .ok state ∧
    match w.detectors drone with
    | some d => d.count cid ≠ state
    | none => out.classifierThrows = false

theorem set_there {d : VehicleDetector} {cid : ClientId} {state : Bool}
    (there : d.count cid = state) : set d cid state = d := by
  unfold set
  cases state <;> simp [there]

theorem put_there {w : World} {drone : ClientId} {d : VehicleDetector}
    (there : w.detectors drone = some d) : put w drone d = w := by
  unfold put
  rw [← there, Function.update_eq_self]

end VehicleDetectionController

/-- The message has all a row needs, and the database takes it. -/
def FlightDatabase.Inserts (json : JsonText) (out : Outside) (db : DatabaseRef) (j : Json) : Prop :=
  ∃ ins, statement json j = .ok ins ∧ out.insertThrows db = false

/-- The message asks the handler for a change that can be made, from a client with this id. -/
def StringHandler.Acts (json : JsonText) (w : World) (out : Outside) (cid : ClientId) (j : Json) :
    StringHandler → Prop
  | .recorderController => j.Asks "media_record_set" ∧ RecorderController.Switches w j
  | .vehicleDetectionController =>
      j.Asks "vehicle_detection_set" ∧ VehicleDetectionController.Switches w out cid j
  | .flightDatabaseController =>
      j.Asks "flight_data_save_set" ∧ FlightDatabaseController.Switches w out j
  | .flightDatabase db => j.Asks "data_broadcast" ∧ FlightDatabase.Inserts json out db j

namespace World

/-- Nothing changed but this client, which kept its id, and what was sent. -/
inductive Hushed (ref : ClientRef) (w : World) : World → Prop
  | intro {objects : ClientRef → WebsocketClient} {effects : List Effect}
      (inserts : rows effects = rows w.effects) (others : ∀ r ≠ ref, objects r = w.objects r)
      (ids : (objects ref).id = (w.objects ref).id) : Hushed ref w { w with objects, effects }

namespace Hushed

variable {ref : ClientRef} {w w' : World}

theorem refl (ref : ClientRef) (w : World) : Hushed ref w w := .intro rfl (fun _ _ => rfl) rfl

theorem reads {β : Type} (hushed : w.Hushed ref w') {f : World → β}
    (looks : ∀ w objects effects, f { w with objects, effects } = f w) : f w' = f w := by
  obtain ⟨_, _, _⟩ := hushed
  exact looks w _ _

theorem sends : AllowsSending (w.Hushed ref) := by
  rintro w' effect silent ⟨inserts, others, ids⟩
  refine .intro ?_ others ids
  rw [← inserts]
  refine List.filterMap_append.trans ?_
  rw [← rows, ← rows, silent, List.append_nil]

end Hushed

end World

section Handlers

variable {json : JsonText} {out : Outside} {cid : ClientId} {msg : Bytes} {ref : ClientRef}
  {w : World}

theorem RecorderController.handleString_hushed
    (calm : ∀ j, json.parse msg = some j →
      ¬ StringHandler.recorderController.Acts json w out cid j) :
    Keeps (w.Hushed ref) (RecorderController.handleString json out cid msg) := by
  refine unlessJson_keeps (parsed_keeps _ _ fun j parsed => read_keeps fun type typed => ?_)
  split
  · refine .bind (attempt_keeps _) fun drone => .bind .get fun w => ?_
    exact .bind (answerCounted_keeps out cid _ World.Hushed.sends) fun _ => .pure true
  split
  · next asks =>
      refine read_keeps fun drone named => read_keeps fun state stated => ?_
      refine .bind (.modify fun w' hushed => ?_) fun _ => ?_
      · have there : (w'.recorders drone).isSome = state := by
          by_contra other
          rw [hushed.reads (f := World.recorders) fun _ _ _ => rfl] at other
          exact calm j parsed ⟨⟨type, typed, asks⟩, drone, state, named, stated, other⟩
        rw [RecorderController.set_there there]
        exact hushed
      · exact .bind (answer_keeps out cid _ World.Hushed.sends) fun _ => .pure true
  · exact .pure false

theorem VehicleDetectionController.handleString_hushed
    (calm : ∀ j, json.parse msg = some j →
      ¬ StringHandler.vehicleDetectionController.Acts json w out cid j) :
    Keeps (w.Hushed ref) (VehicleDetectionController.handleString json out cid msg) := by
  refine unlessJson_keeps (parsed_keeps _ _ fun j parsed => read_keeps fun type typed => ?_)
  split
  · refine .bind (attempt_keeps _) fun drone => .bind .get fun w => ?_
    exact .bind (answerCounted_keeps out cid _ World.Hushed.sends) fun _ => .pure true
  split
  · next asks =>
      refine read_keeps fun drone named => read_keeps fun state stated w' hushed => ?_
      have idle : ¬ VehicleDetectionController.Switches w out cid j :=
        fun switches => calm j parsed ⟨⟨type, typed, asks⟩, switches⟩
      have detectors := hushed.reads (f := World.detectors) fun _ _ _ => rfl
      refine Ends.bind_iff.mpr (Ends.bind_iff.mpr (Ends.get_iff.mpr ?_))
      split
      · next d found =>
          have there : d.count cid = state := by
            by_contra other
            refine idle ⟨drone, state, named, stated, ?_⟩
            rwa [← detectors, found]
          refine Ends.pure_iff.mpr (Ends.bind_iff.mpr (Ends.modify_iff.mpr ?_))
          rw [VehicleDetectionController.set_there there,
            VehicleDetectionController.put_there found]
          exact Keeps.bind (answerCounted_keeps out cid _ World.Hushed.sends)
            (fun _ => .pure true) w' hushed
      · next fresh =>
          split
          · exact hushed
          · next fine =>
              refine absurd ⟨drone, state, named, stated, ?_⟩ idle
              rw [← detectors, fresh]
              exact Bool.eq_false_iff.mpr fine
  · exact .pure false

theorem FlightDatabase.handleString_hushed (db : DatabaseRef)
    (calm : ∀ j, json.parse msg = some j →
      ¬ (StringHandler.flightDatabase db).Acts json w out cid j) :
    Keeps (w.Hushed ref) (FlightDatabase.handleString json out db msg) := by
  refine unlessJson_keeps (parsed_keeps _ _ fun j parsed => read_keeps fun type typed => ?_)
  split
  · next asks =>
      refine read_keeps fun ins built => ?_
      split
      · exact .throw _
      · next fine =>
          refine absurd ⟨⟨type, typed, asks⟩, ins, built, ?_⟩ (calm j parsed)
          exact Bool.eq_false_iff.mpr fine
  · exact .pure false

theorem FlightDatabaseController.handleString_hushed
    (calm : ∀ j, json.parse msg = some j →
      ¬ StringHandler.flightDatabaseController.Acts json w out cid j) :
    Keeps (w.Hushed ref) (FlightDatabaseController.handleString json out cid msg) := by
  refine Keeps.caught (parsed_keeps _ _ fun j parsed => read_keeps fun type typed => ?_) fun e => ?_
  · split
    · refine .bind .get fun w => ?_
      exact .bind (answerCounted_keeps out cid _ World.Hushed.sends) fun _ => .pure true
    split
    · next asks =>
        refine read_keeps fun state found => .get_bind fun w' hushed => ?_
        have idle : ¬ FlightDatabaseController.Switches w out j :=
          fun switches => calm j parsed ⟨⟨type, typed, asks⟩, switches⟩
        have fdPtr := hushed.reads (f := World.fdPtr) fun _ _ _ => rfl
        split
        · next off =>
            split
            · exact .throw _
            · next connects =>
                refine absurd ⟨true, found, ?_, fun _ => Bool.eq_false_iff.mpr connects⟩ idle
                rw [← fdPtr, off]
                decide
        · next db on =>
            refine absurd ⟨false, found, ?_, fun on => by cases on⟩ idle
            rw [← fdPtr, on]
            exact Bool.noConfusion
        · exact .pure false
    · exact .pure false
  · split
    · exact .pure _
    · exact .throw _
    · exact .pure _

theorem StringHandler.handleString_hushed (h : StringHandler)
    (calm : ∀ j, json.parse msg = some j → ¬ h.Acts json w out cid j) :
    Keeps (w.Hushed ref) (h.handleString json out cid msg) := by
  cases h with
  | recorderController => exact RecorderController.handleString_hushed calm
  | flightDatabaseController => exact FlightDatabaseController.handleString_hushed calm
  | vehicleDetectionController => exact VehicleDetectionController.handleString_hushed calm
  | flightDatabase db => exact FlightDatabase.handleString_hushed db calm

theorem FlightDataManager.each_hushed (hs : List StringHandler)
    (calm : ∀ h ∈ hs, ∀ j, json.parse msg = some j → ¬ h.Acts json w out cid j) :
    Keeps (w.Hushed ref) (FlightDataManager.each json out cid msg hs) := by
  induction hs with
  | nil => exact .pure false
  | cons h rest ih =>
      obtain ⟨first, later⟩ := List.forall_mem_cons.mp calm
      exact .bind (h.handleString_hushed first) fun _ => .bind (ih later) fun _ => .pure _

theorem FlightDataManager.handle_hushed
    (calm : ∀ h ∈ w.recs, ∀ j, json.parse msg = some j → ¬ h.Acts json w out cid j) :
    Keeps (w.Hushed ref) (FlightDataManager.handle json out cid msg) := by
  refine .get_bind fun w' hushed => FlightDataManager.each_hushed _ ?_
  rw [hushed.reads (f := World.recs) fun _ _ _ => rfl]
  exact calm

namespace WebsocketClient

theorem assign_hushed {f : WebsocketClient → WebsocketClient} (id : ∀ c, (f c).id = c.id) :
    Keeps (w.Hushed ref) (assign ref f) := by
  refine .modify ?_
  rintro _ ⟨inserts, others, ids⟩
  refine .intro inserts (fun r other => ?_) ?_
  · exact (Function.update_of_ne other ..).trans (others r other)
  · simp [id, ids]

theorem hello_hushed {j : Json} (ill : ¬ WellFormedHello j) :
    Keeps (w.Hushed ref) (hello json out ref j) := by
  refine read_keeps fun ctype typed => .bind (assign_hushed fun _ => rfl) fun _ => ?_
  split
  · refine read_keeps fun name named => .bind (assign_hushed fun _ => rfl) fun _ => ?_
    refine read_keeps fun serial found => ?_
    exact absurd ⟨ctype, typed, fun _ => ⟨⟨name, named⟩, serial, found⟩⟩ ill
  · next other => exact absurd ⟨ctype, typed, fun drone => absurd drone other⟩ ill

theorem handle_hushed (untold : (w.objects ref).handshakeDone = false)
    (ill : ∀ j, json.parse msg = some j → j.Asks "hello" → ¬ WellFormedHello j)
    (calm : ∀ h ∈ w.recs, ∀ j, json.parse msg = some j →
      ¬ h.Acts json w out (w.objects ref).id j) :
    Ends (handle json out ref msg) w (fun _ => w.Hushed ref) fun _ => w.Hushed ref := by
  refine handle_leads (.refl ref w) (fun _ kept => kept) World.Hushed.sends World.Hushed.sends ?_ ?_
  · rintro str (rfl | said)
    · exact FlightDataManager.handle_hushed calm
    · rw [untold] at said
      cases said
  · intro j type parsed typed asks _
    exact hello_hushed (ill j parsed ⟨type, typed, asks⟩) w (.refl ref w)

end WebsocketClient

end Handlers

namespace World

/-- What the clients share is the same. -/
structure Shares (w v : World) : Prop where
  recorders : w.recorders = v.recorders
  detectors : w.detectors = v.detectors
  fdPtr : w.fdPtr = v.fdPtr
  recs : w.recs = v.recs
  inserts : rows w.effects = rows v.effects
  media : w.media = v.media
  pool : w.pool = v.pool

theorem Beside.shares {known : ClientRef → Prop} {w v : World} (beside : w.Beside known v) :
    w.Shares v := by
  obtain ⟨inserts, _, _⟩ := beside
  exact ⟨rfl, rfl, rfl, rfl, inserts.symm, rfl, rfl⟩

/-- A client that is nowhere known can be hushed. -/
theorem Beside.hushed {known : ClientRef → Prop} {ref : ClientRef} {w w' v : World}
    (beside : w.Beside known v) (hushed : w.Hushed ref w') (drone : ref ∉ w.pool.drones)
    (unknown : ¬ known ref) : w'.Beside known v := by
  obtain ⟨inserts, others, here⟩ := hushed
  rcases beside with @⟨objects, effects, inserts', ids, same⟩
  refine Beside.intro (w := { w with objects := _, effects := _ }) (inserts'.trans inserts.symm)
    (fun r => ?_) fun r own => ?_
  · by_cases itself : r = ref
    · rw [itself, ids, ← here]
    · rw [ids]
      exact congrArg _ (others r itself).symm
  · have elsewhere : r ≠ ref := by
      rintro rfl
      exact own.elim drone unknown
    exact (same r own).trans (others r elsewhere).symm

/-- A connection has its own client, and the drones of the pool said hello. -/
structure Listed (w : World) : Prop where
  below : ∀ {c r}, w.client c = some r → r < w.nextClient
  single : ∀ {c c' r}, w.client c = some r → w.client c' = some r → c = c'
  drones : ∀ r ∈ w.pool.drones, r < w.nextClient ∧ (w.objects r).handshakeDone = true

namespace Listed

variable {w w' : World} {conn : ConnId} {ref : ClientRef}

theorem opening (listed : w.Listed) (id : ClientId) : (w.onOpen conn id).Listed where
  below found := by
    rcases onOpen_client.mp found with ⟨_, rfl⟩ | ⟨_, found⟩
    · exact Nat.lt_succ_self _
    · exact Nat.lt_succ_of_lt (listed.below found)
  single first second := by
    rcases onOpen_client.mp first with ⟨rfl, new⟩ | ⟨_, first⟩
    · rcases onOpen_client.mp second with ⟨rfl, _⟩ | ⟨_, second⟩
      · rfl
      · exact absurd (listed.below second) (new ▸ Nat.lt_irrefl _)
    · rcases onOpen_client.mp second with ⟨_, new⟩ | ⟨_, second⟩
      · exact absurd (listed.below first) (new ▸ Nat.lt_irrefl _)
      · exact listed.single first second
  drones r inside := by
    obtain ⟨below, said⟩ := listed.drones r inside
    refine ⟨Nat.lt_succ_of_lt below, ?_⟩
    rwa [onOpen_old below]

theorem looking (listed : w.Listed) : (w.looked conn).Listed where
  below found := listed.below (looked_client.mp found)
  single first second := listed.single (looked_client.mp first) (looked_client.mp second)
  drones := listed.drones

theorem closing (listed : w.Listed) : (w.onClose conn).Listed where
  below found := by
    rw [onClose_next]
    exact listed.below (onClose_client.mp found).2
  single first second := listed.single (onClose_client.mp first).2 (onClose_client.mp second).2
  drones r inside := by
    rw [onClose_next, onClose_objects]
    exact listed.drones r (onClose_drones inside)

theorem talking (listed : w.Listed) (entry : w.client conn = some ref)
    (talked : w.Talked ref w') : w'.Listed := by
  have client : ∀ c, w'.client c = w.client c := fun c => by rw [World.client, talked.clients]; rfl
  have next : w'.nextClient = w.nextClient := talked.elim Unseen.next Greeted.next
  constructor
  case below =>
    intro c r found
    rw [client] at found
    rw [next]
    exact listed.below found
  case single =>
    intro c c' r first second
    rw [client] at first second
    exact listed.single first second
  case drones =>
    intro r inside
    rw [next]
    rcases talked with unseen | ⟨_, _, _, ⟨c, _, pool⟩, _, told⟩
    · rw [unseen.pool] at inside
      rw [unseen.told]
      exact listed.drones r inside
    · rw [told]
      split
      · next itself => exact ⟨itself ▸ listed.below entry, rfl⟩
      · next other =>
          rw [pool] at inside
          exact listed.drones r ((ClientPool.drones_add inside).resolve_right other)

end Listed

end World

/-- A message of this connection. -/
def Happening.From (conn : ConnId) : Happening → Prop
  | .message c _ _ => c = conn
  | _ => False

instance (conn : ConnId) : (h : Happening) → Decidable (h.From conn)
  | .message c _ _ => Nat.decEq c conn
  | .rtmp _ | .opened _ _ | .closed _ | .failed _ => .isFalse id

namespace Process

/-- If this is a message of the connection, its client has not said hello, nor is this one. -/
def Strange (json : JsonText) (conn : ConnId) (p : Process) : Happening → Prop
  | .message c msg _ => c = conn → ∃ ref ∈ p.world.client conn,
      (p.world.objects ref).handshakeDone = false ∧
        ∀ j, json.parse msg = some j → j.Asks "hello" → ¬ WebsocketClient.WellFormedHello j
  | _ => True

/-- A handler acts on this message of the connection. -/
def Acts (json : JsonText) (conn : ConnId) (p : Process) : Happening → Prop
  | .message c msg out => c = conn ∧ ∃ ref ∈ p.world.client conn, ∃ h ∈ p.world.recs,
      ∃ j, json.parse msg = some j ∧ h.Acts json p.world out (p.world.objects ref).id j
  | _ => False

/-- The process does not survive this message of the connection. -/
def Kills (json : JsonText) (conn : ConnId) (p : Process) : Happening → Prop
  | .message c msg out => c = conn ∧ ∃ ref ∈ p.world.client conn,
      ¬ WebsocketClient.Withstands json p.world out ref msg
  | _ => False

end Process

/-- The events without the messages of this connection. -/
def without (conn : ConnId) (labels : List Happening) : List Happening :=
  labels.filter fun h => ¬ h.From conn

namespace Process

variable {json : JsonText} {conn : ConnId} {p q : Process} {h : Happening}

theorem step_listed (listed : p.world.Listed) : (p.step json h).world.Listed := by
  by_cases runs : p.Runs
  · rw [step_runs runs]
    cases h with
    | rtmp l => exact ⟨listed.below, listed.single, listed.drones⟩
    | opened c id => exact listed.opening id
    | message c msg out =>
        cases found : p.world.client c with
        | none =>
            simp only [perform, onMessage, found]
            exact listed.looking
        | some ref => exact listed.talking found (message_talks json msg out found)
    | closed c | failed c => exact listed.closing
  · rw [step_ended runs]
    exact listed

/-- The process survives a message exactly if the client's handler withstands it. -/
theorem after_survives {ref : ClientRef} {msg : Bytes} {out : Outside}
    (alive : p.terminated = none) :
    (p.after (WebsocketClient.handle json out ref msg p.world)).terminated = none ↔
      WebsocketClient.Withstands json p.world out ref msg := by
  have ends : Ends (WebsocketClient.handle json out ref msg) p.world _ _ :=
    WebsocketClient.handle_ends p.world
  unfold Ends at ends
  split at ends
  · next same =>
      rw [same]
      exact iff_of_true alive ends
  · next same =>
      rw [same]
      exact iff_of_false nofun ends.2

theorem Abreast.ignore (abreast : p.Abreast conn q) (listed : p.world.Listed) (runs : p.Runs)
    {msg : Bytes} {out : Outside} (strange : p.Strange json conn (.message conn msg out))
    (calm : ¬ p.Acts json conn (.message conn msg out))
    (mild : ¬ p.Kills json conn (.message conn msg out)) :
    (p.step json (.message conn msg out)).Abreast conn q := by
  obtain ⟨ref, found, untold, ill⟩ := strange rfl
  have found : p.world.client conn = some ref := found
  have talked := message_talks json msg out found
  have handled : p.perform json (.message conn msg out) =
      p.after (WebsocketClient.handle json out ref msg p.world) := by
    simp only [perform, onMessage, found]
  have hushed : p.world.Hushed ref (p.perform json (.message conn msg out)).world := by
    rw [handled]
    refine after_keeps (WebsocketClient.handle_hushed untold ill fun h inside j parsed acts => ?_)
    exact calm ⟨rfl, ref, found, h, inside, j, parsed, acts⟩
  have survived : (p.perform json (.message conn msg out)).terminated = none := by
    rw [handled, after_survives runs.1]
    exact not_not.mp fun killed => mild ⟨rfl, ref, found, killed⟩
  rw [step_runs runs]
  refine ⟨?_, abreast.terminated.trans (runs.1.trans survived.symm)⟩
  refine (abreast.beside.hushed hushed (fun drone => ?_) ?_).mono ?_
  · rw [(listed.drones ref drone).2] at untold
    cases untold
  · rintro ⟨c, other, there⟩
    exact other (listed.single there found)
  · rintro r ⟨c, other, there⟩
    rw [World.client, talked.clients] at there
    exact ⟨c, other, there⟩

theorem Abreast.spare (abreast : p.Abreast conn q) (listed : p.world.Listed) (mine : h.From conn)
    (strange : p.Runs → p.Strange json conn h)
    (calm : p.Runs → ¬ p.Acts json conn h ∧ ¬ p.Kills json conn h) :
    (p.step json h).Abreast conn q := by
  by_cases runs : p.Runs
  · cases h with
    | message c msg out =>
        obtain rfl : c = conn := mine
        exact abreast.ignore listed runs (strange runs) (calm runs).1 (calm runs).2
    | rtmp | opened | closed | failed => exact mine.elim
  · rwa [step_ended runs]

end Process

theorem web_listed (json : JsonText) (setup : Setup) : (web json setup).start.world.Listed where
  below found := by cases found
  single found := by cases found
  drones r inside := absurd inside List.not_mem_nil

/-- As long as no handler acts on a message of a client that has not said hello, and the process
    survives them, all that the clients share is as in the run without that client's messages,
    whatever else happens in between; and the process goes on or ends as it does there. -/
theorem strangers_change_nothing (json : JsonText) (setup : Setup) (conn : ConnId)
    (labels : List Happening)
    (strange : (web json setup).Steps (fun p h => p.Runs → p.Strange json conn h) labels)
    (calm : (web json setup).Steps
      (fun p h => p.Runs → ¬ p.Acts json conn h ∧ ¬ p.Kills json conn h) labels) :
    ∀ done, done <+: labels →
      ((web json setup).run done).world.Shares ((web json setup).run (without conn done)).world ∧
        ((web json setup).run (without conn done)).terminated =
          ((web json setup).run done).terminated := by
  intro done inside
  have both : (web json setup).Steps (fun p h => (p.Runs → p.Strange json conn h) ∧
      (p.Runs → ¬ p.Acts json conn h ∧ ¬ p.Kills json conn h)) done :=
    fun before h within => ⟨strange before h (within.trans inside),
      calm before h (within.trans inside)⟩
  have related := both.filter (R := fun p q => p.world.Listed ∧ p.Abreast conn q)
    (fun h => ¬ h.From conn) ⟨web_listed json setup, .refl _, rfl⟩ ?_ ?_
  · exact ⟨related.2.beside.shares, related.2.terminated⟩
  · intro p q h holds _ other
    refine ⟨Process.step_listed holds.1, holds.2.step ?_⟩
    rintro msg out rfl
    simp [Happening.From] at other
  · intro p q h holds each mine
    have mine : h.From conn := by simpa using mine
    exact ⟨Process.step_listed holds.1, holds.2.spare holds.1 mine each.1 each.2⟩

/-- A client that has not said hello asks something about a drone's stream. -/
def strangerAsks (type : String) : List Happening :=
  [.opened 0 7, .message 0 (Requests.print (Requests.set type "1" true)) {}]

/-- The library, for this one request. -/
def askingLibrary (type : String) : JsonText := Requests.library [Requests.set type "1" true]

theorem askingLibrary_parse {type : String} {j : Json}
    (parsed : (askingLibrary type).parse (Requests.print (Requests.set type "1" true)) = some j) :
    j = Requests.set type "1" true := by
  simpa [askingLibrary, Requests.library, eq_comm] using parsed

theorem strangerAsks_strange (type : String) (setup : Setup) :
    (web (askingLibrary type) setup).Steps
      (fun p h => p.Runs → p.Strange (askingLibrary type) 0 h) (strangerAsks type) := by
  refine Machine.Checks.steps ⟨fun _ => trivial, fun _ _ => ⟨0, rfl, rfl, ?_⟩, trivial⟩
  intro j parsed asks well
  obtain rfl := askingLibrary_parse parsed
  obtain ⟨ctype, typed, _⟩ := well
  cases typed

theorem strangers_change_nothing_asking :
    let json := askingLibrary "media_record_get"
    let labels := strangerAsks "media_record_get"
    ∀ done, done <+: labels →
      ((web json {}).run done).world.Shares ((web json {}).run (without 0 done)).world ∧
        ((web json {}).run (without 0 done)).terminated = ((web json {}).run done).terminated := by
  refine strangers_change_nothing _ _ _ _ (strangerAsks_strange _ _) (Machine.Checks.steps ?_)
  refine ⟨fun _ => ⟨nofun, nofun⟩, fun _ => ⟨fun acts => ?_, ?_⟩, trivial⟩
  · obtain ⟨_, ref, _, h, _, j, parsed, acts⟩ := acts
    obtain rfl := askingLibrary_parse parsed
    have other : ∀ text, ascii "media_record_get" ≠ ascii text →
        ¬ (Requests.set "media_record_get" "1" true).Asks text := by
      rintro text apart ⟨type, read, is⟩
      cases read
      exact apart is
    cases h with
    | recorderController => exact other _ (by decide) acts.1
    | flightDatabaseController => exact other _ (by decide) acts.1
    | vehicleDetectionController => exact other _ (by decide) acts.1
    | flightDatabase db => exact other _ (by decide) acts.1
  · rintro ⟨_, ref, found, killed⟩
    cases found
    exact killed ((Process.after_survives rfl).mp (by decide +kernel))

/-- A client that has not said hello has a drone's stream watched. -/
theorem stranger_makes_detector :
    ¬ ∀ (json : JsonText) (setup : Setup) (conn : ConnId) (labels : List Happening),
      (web json setup).Steps (fun p h => p.Runs → p.Strange json conn h) labels →
      ∀ done, done <+: labels →
        ((web json setup).run done).world.Shares
          ((web json setup).run (without conn done)).world := by
  intro all
  let json := askingLibrary "vehicle_detection_set"
  let labels := strangerAsks "vehicle_detection_set"
  have same :=
    (all json {} 0 labels (strangerAsks_strange _ _) labels (List.prefix_refl _)).detectors
  have watched : (((web json {}).run labels).world.detectors 1).isSome = true ∧
      (((web json {}).run (without 0 labels)).world.detectors 1).isSome = false := by
    decide +kernel
  rw [same, watched.2] at watched
  cases watched.1

/-- A drone id that is too long for `std::stoul` ends the process for the clients to come. -/
example :
    let request := Requests.set "media_record_get" "fffffffffffffffff" true
    let json := Requests.library [request, Requests.helloOperator]
    let labels : List Happening := [.opened 0 7, .message 0 (Requests.print request) {},
      .opened 1 8, .message 1 (Requests.print Requests.helloOperator) {}]
    ((web json {}).run labels).world.pool.clients = [] ∧
      ((web json {}).run (without 0 labels)).world.pool.clients = [1] := by
  decide +kernel

end DroneServer
