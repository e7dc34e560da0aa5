import DroneServer.Websocket.Repeats

/-! # What is switched on

Recording a drone, detecting vehicles for a client and saving flight data are each kept
in their own way: as a recorder in a map, as an id in a detector's set, as a pointer.
To the clients they are switches that a request turns. Here is what a message makes of
them: it has the handlers take one turn at most, and nothing else it does is about what
the handlers hold.
-/

namespace DroneServer

open Handling

/-- What a client can turn on and off. -/
inductive Switch where
  | recording (drone : ClientId)
  /-- Each client has its own for a drone. -/
  | detecting (drone watcher : ClientId)
  | saving
  deriving DecidableEq

/-- A switch and the position asked for. -/
abbrev Turn := Switch × Bool

/-- The handler a switch belongs to. -/
def Switch.handler : Switch → StringHandler
  | .recording _ => .recorderController
  | .detecting _ _ => .vehicleDetectionController
  | .saving => .flightDatabaseController

/-- The types of the messages that turn it and read it, and of the answer to the latter. -/
def Switch.setType : Switch → String
  | .recording _ => "media_record_set"
  | .detecting _ _ => "vehicle_detection_set"
  | .saving => "flight_data_save_set"

def Switch.getType : Switch → String
  | .recording _ => "media_record_get"
  | .detecting _ _ => "vehicle_detection_get"
  | .saving => "flight_data_save_get"

def Switch.replyType : Switch → String
  | .recording _ => "media_record_get_resp"
  | .detecting _ _ => "vehicle_detection_get_resp"
  | .saving => "flight_data_save_get_resp"

namespace Json

/-- The switch this client asks for the position of. -/
def Reads (j : Json) (cid : ClientId) : Switch → Prop
  | .recording drone => j.Asks "media_record_get" ∧ j.droneId = .ok drone
  | .detecting drone watcher =>
      j.Asks "vehicle_detection_get" ∧ j.droneId = .ok drone ∧ watcher = cid
  | .saving => j.Asks "flight_data_save_get"

/-- The turn this client asks for, if its message can be read as one. -/
def turn (j : Json) (cid : ClientId) : Option Turn := do
  let type ← (j.field "type").toOption
  if type.Is "media_record_set" then
    pure (.recording (← j.droneId.toOption), ← j.droneState.toOption)
  else if type.Is "vehicle_detection_set" then
    pure (.detecting (← j.droneId.toOption) cid, ← j.droneState.toOption)
  else if type.Is "flight_data_save_set" then pure (.saving, ← j.saveState.toOption)
  else none

theorem turn_typed {j type : Json} (typed : j.field "type" = .ok type) (cid : ClientId) :
    j.turn cid =
      if type.Is "media_record_set" then do
        pure (.recording (← j.droneId.toOption), ← j.droneState.toOption)
      else if type.Is "vehicle_detection_set" then do
        pure (.detecting (← j.droneId.toOption) cid, ← j.droneState.toOption)
      else if type.Is "flight_data_save_set" then do pure (.saving, ← j.saveState.toOption)
      else none := by
  rw [turn, typed]
  rfl

end Json

namespace World

/-- Where the switches stand. -/
def on (w : World) : Switch → Bool
  | .recording drone => (w.recorders drone).isSome
  | .detecting drone watcher => VehicleDetectionController.watches w drone watcher
  | .saving => w.fdPtr.isSome

/-- What a turn needs is there or can be made: any request of a detector makes it, and only saving
    that starts makes a database. -/
def Equipped (w : World) (out : Outside) : Turn → Prop
  | (.recording _, _) => True
  | (.detecting drone _, _) => (w.detectors drone).isSome ∨ out.classifierThrows = false
  | (.saving, state) => w.fdPtr.isSome = state ∨ state = false ∨ out.connectThrows = false

instance (w : World) (out : Outside) : (t : Turn) → Decidable (w.Equipped out t)
  | (.recording _, _) => .isTrue trivial
  | (.detecting _ _, _) => inferInstanceAs (Decidable (_ ∨ _))
  | (.saving, _) => inferInstanceAs (Decidable (_ ∨ _ ∨ _))

/-- The turn a text from this client has the handlers make. -/
def turned (json : JsonText) (w : World) (out : Outside) (cid : ClientId) (text : Bytes) :
    Option Turn :=
  ((json.parse text).bind (·.turn cid)).filter fun t => t.1.handler ∈ w.recs ∧ w.Equipped out t

/-- The drone's detector, or the one that is made for it. -/
def detectorOf (w : World) (drone : ClientId) : VehicleDetector :=
  (w.detectors drone).getD { writer := w.nextWriter }

/-- What the handler of the switch makes of a turn. -/
def turn (w : World) : Turn → World
  | (.recording drone, state) => RecorderController.set w drone state
  | (.detecting drone watcher, state) =>
      VehicleDetectionController.put (if (w.detectors drone).isSome then w else w.attach drone) drone
        (VehicleDetectionController.set (w.detectorOf drone) watcher state)
  | (.saving, state) =>
      match w.fdPtr, state with
      | none, true => FlightDatabaseController.start w
      | some db, false => FlightDatabaseController.stop w db
      | _, _ => w

/-- The same if there is a turn, and nothing otherwise. -/
def take (w : World) : Option Turn → World
  | some t => w.turn t
  | none => w

end World

/-- The positions after a turn, if there was one. -/
def Switch.turn (on : Switch → Bool) : Option Turn → Switch → Bool
  | some t => Function.update on t.1 t.2
  | none => on

variable {json : JsonText} {out : Outside} {cid : ClientId} {msg : Bytes} {j type : Json}
  {w w' : World} {h : StringHandler}

section Turning

theorem RecorderController.set_on (w : World) (drone : ClientId) (state : Bool) :
    (set w drone state).on = Function.update w.on (.recording drone) state := by
  funext k
  by_cases own : k = .recording drone
  · subst own
    rw [Function.update_self]
    cases state <;> cases held : w.recorders drone <;>
      simp [World.on, set, held, start, stop]
  · rw [Function.update_of_ne own]
    cases k with
    | recording other =>
        have apart : other ≠ drone := fun same => own (same ▸ rfl)
        unfold set
        split <;> simp [World.on, start, stop, apart]
    | detecting | saving =>
        unfold set
        split <;> rfl

/-- Who watches is told by the detector that is stored; a new one has no watchers. -/
theorem VehicleDetectionController.put_on (w : World) (drone cid : ClientId) (state : Bool)
    {v : World} (same : v = w ∨ v = w.attach drone) :
    (put v drone (set (w.detectorOf drone) cid state)).on =
      Function.update w.on (.detecting drone cid) state := by
  have before : v.on = w.on ∧ v.detectors = w.detectors := by
    rcases same with rfl | rfl
    · exact ⟨rfl, rfl⟩
    · exact ⟨rfl, rfl⟩
  rw [← before.1]
  funext k
  cases k with
  | recording | saving => rfl
  | detecting other watcher =>
      by_cases here : other = drone
      · subst here
        by_cases own : watcher = cid
        · subst own
          rw [Function.update_self]
          cases state <;> by_cases watching : watcher ∈ (w.detectorOf other).dsts <;>
            simp [World.on, watches, put, set, VehicleDetector.count, VehicleDetector.add,
              VehicleDetector.del, watching]
        · rw [Function.update_of_ne (fun same => own (Switch.detecting.inj same).2)]
          have there : v.on (.detecting other watcher) = (w.detectorOf other).count watcher := by
            rw [World.on, watches, World.detectorOf, before.2]
            cases w.detectors other <;> rfl
          rw [there]
          cases state <;> by_cases watching : cid ∈ (w.detectorOf other).dsts <;>
            simp [World.on, watches, put, set, VehicleDetector.count, VehicleDetector.add,
              VehicleDetector.del, watching, own]
      · rw [Function.update_of_ne (fun same => here (Switch.detecting.inj same).1)]
        simp [World.on, watches, put, here]

theorem World.turn_on (w : World) (t : Turn) :
    (w.turn t).on = Function.update w.on t.1 t.2 := by
  obtain ⟨k, state⟩ := t
  cases k with
  | recording drone => exact RecorderController.set_on w drone state
  | detecting drone watcher =>
      refine VehicleDetectionController.put_on w drone watcher state ?_
      split
      · exact .inl rfl
      · exact .inr rfl
  | saving =>
      funext k
      cases state <;> cases held : w.fdPtr <;> cases k <;>
        simp [turn, held, on, VehicleDetectionController.watches, FlightDatabaseController.start,
          FlightDatabaseController.stop]

theorem World.take_on (w : World) (t : Option Turn) : (w.take t).on = Switch.turn w.on t := by
  cases t with
  | none => rfl
  | some t => exact w.turn_on t

end Turning

/-- Whether the computation returns or throws, the property holds where it ends. -/
abbrev Handling.Leads {α : Type} (m : Handling α) (w : World) (Q : World → Prop) : Prop :=
  Ends m w (fun _ => Q) fun _ => Q

section Handlers

variable {Q : World → Prop} {α : Type}

theorem Handling.unlessJson_leads {body : Handling Bool} (leads : Leads body w Q) :
    Leads (unlessJson body) w Q := by
  refine Ends.caught leads fun e w' holds => ?_
  split
  · exact holds
  · exact holds

theorem Handling.attempt_leads {β : Type} {read : Except Failure α} {next : α → Handling β}
    (failed : read.toOption = none → Q w)
    (found : ∀ value, read.toOption = some value → Leads (next value) w Q) :
    Leads (attempt read >>= next) w Q := by
  cases read with
  | error e => exact failed rfl
  | ok value => exact found value rfl

theorem Handling.answer_leads (sends : AllowsSending Q) (holds : Q w) (text : Bytes) :
    Leads (do answer out cid text; pure true) w Q :=
  ((answer_keeps out cid text sends).bind fun _ => .pure true) w holds

theorem Handling.answerCounted_leads (sends : AllowsSending Q) (holds : Q w) (text : Bytes) :
    Leads (do answerCounted out cid text; pure true) w Q :=
  ((answerCounted_keeps out cid text sends).bind fun _ => .pure true) w holds

theorem RecorderController.handleString_turns (sends : AllowsSending Q)
    (parsed : json.parse msg = some j) (typed : j.field "type" = .ok type)
    (is : type.Is "media_record_set")
    (holds : Q (w.take ((j.turn cid).filter fun t => w.Equipped out t))) :
    Leads (handleString json out cid msg) w Q := by
  have get := is.other (show ascii _ ≠ ascii "media_record_get" by decide)
  unfold handleString
  simp only [Handling.parse, parsed, pure_bind, typed, attempt, if_neg get, if_pos is]
  rw [Json.turn_typed typed, if_pos is] at holds
  refine unlessJson_leads (attempt_leads (fun failed => ?_) fun drone named => ?_)
  · rwa [failed] at holds
  refine attempt_leads (fun failed => ?_) fun state stated => ?_
  · rwa [named, failed] at holds
  rw [named, stated] at holds
  exact Ends.bind_iff.mpr (Ends.modify_iff.mpr (answer_leads sends holds _))

/-- Where there is no detector and none can be made, the request is left with nothing done. -/
theorem VehicleDetectionController.detector_found (drone : ClientId) :
    Ends (detector out drone) w
      (fun d w' => d = w.detectorOf drone ∧
        ((w.detectors drone).isSome ∨ out.classifierThrows = false) ∧ ∀ d',
          put w' drone d' = put (if (w.detectors drone).isSome then w else w.attach drone) drone d')
      fun _ w' => w' = w ∧ ¬ ((w.detectors drone).isSome ∨ out.classifierThrows = false) := by
  refine Ends.bind_iff.mpr (Ends.get_iff.mpr ?_)
  split
  · next d stored => simp [World.detectorOf, stored]
  · next missing =>
      split
      · next throws =>
          refine ⟨rfl, ?_⟩
          rw [missing, throws]
          decide
      · next fine =>
          refine ⟨by rw [World.detectorOf, missing]; rfl, .inr (Bool.eq_false_iff.mpr fine), ?_⟩
          intro d'
          rw [missing, if_neg (by decide)]
          simp [put]

theorem VehicleDetectionController.handleString_turns (sends : AllowsSending Q)
    (parsed : json.parse msg = some j) (typed : j.field "type" = .ok type)
    (is : type.Is "vehicle_detection_set")
    (holds : Q (w.take ((j.turn cid).filter fun t => w.Equipped out t))) :
    Leads (handleString json out cid msg) w Q := by
  have get := is.other (show ascii _ ≠ ascii "vehicle_detection_get" by decide)
  have record := is.other (show ascii _ ≠ ascii "media_record_set" by decide)
  unfold handleString
  simp only [Handling.parse, parsed, pure_bind, typed, attempt, if_neg get, if_pos is]
  rw [Json.turn_typed typed, if_neg record, if_pos is] at holds
  refine unlessJson_leads (attempt_leads (fun failed => ?_) fun drone named => ?_)
  · rwa [failed] at holds
  refine attempt_leads (fun failed => ?_) fun state stated => ?_
  · rwa [named, failed] at holds
  rw [named, stated] at holds
  change Q (w.take (Option.filter (fun t => w.Equipped out t)
    (some (.detecting drone cid, state)))) at holds
  rw [Option.filter_some] at holds
  refine (detector_found drone).bind ?_ ?_
  · rintro d w' ⟨rfl, equipped, stored⟩
    have turns : w.Equipped out (.detecting drone cid, state) := equipped
    rw [if_pos (decide_eq_true turns)] at holds
    refine Ends.bind_iff.mpr (Ends.modify_iff.mpr (answerCounted_leads sends ?_ _))
    rw [stored]
    exact holds
  · rintro e w' ⟨rfl, lacking⟩
    have stays : ¬ w'.Equipped out (.detecting drone cid, state) := lacking
    rwa [if_neg (fun turns => stays (of_decide_eq_true turns))] at holds

/-- Saving starts and stops as the message says; what is asked for when it is there already is refused
    and there all the same. -/
theorem FlightDatabaseController.handleString_turns (sends : AllowsSending Q)
    (parsed : json.parse msg = some j) (typed : j.field "type" = .ok type)
    (is : type.Is "flight_data_save_set")
    (holds : Q (w.take ((j.turn cid).filter fun t => w.Equipped out t))) :
    Leads (handleString json out cid msg) w Q := by
  have record := is.other (show ascii _ ≠ ascii "media_record_set" by decide)
  have detect := is.other (show ascii _ ≠ ascii "vehicle_detection_set" by decide)
  rw [handleString_set parsed typed is]
  rw [Json.turn_typed typed, if_neg record, if_neg detect, if_pos is] at holds
  refine Ends.caught (E := fun _ => Q)
    (attempt_leads (fun failed => ?_) fun state stated => ?_) fun e w' holds => ?_
  · rwa [failed] at holds
  · rw [stated] at holds
    change Q (w.take (Option.filter (fun t => w.Equipped out t) (some (.saving, state)))) at holds
    rw [Option.filter_some] at holds
    refine Ends.bind_iff.mpr (Ends.get_iff.mpr ?_)
    split
    · next off =>
        split
        · next throws =>
            have stays : ¬ w.Equipped out (.saving, true) := by
              simp [World.Equipped, off, throws]
            rwa [if_neg (fun turns => stays (of_decide_eq_true turns))] at holds
        · next connects =>
            have turns : w.Equipped out (.saving, true) :=
              .inr (.inr (Bool.eq_false_iff.mpr connects))
            have started : w.turn (.saving, true) = start w := by
              unfold World.turn
              simp only [off]
            rw [if_pos (decide_eq_true turns), World.take, started] at holds
            exact Ends.bind_iff.mpr (Ends.modify_iff.mpr (answer_leads sends holds _))
    · next db there =>
        have turns : w.Equipped out (.saving, false) := .inr (.inl rfl)
        have stopped : w.turn (.saving, false) = stop w db := by
          unfold World.turn
          simp only [there]
        rw [if_pos (decide_eq_true turns), World.take, stopped] at holds
        exact Ends.bind_iff.mpr (Ends.modify_iff.mpr (answer_leads sends holds _))
    · next state _ _ starts stops =>
        have there : w.fdPtr.isSome = state := unswitched starts stops
        have turns : w.Equipped out (.saving, state) := .inl there
        have same : w.turn (.saving, state) = w := by
          subst there
          cases held : w.fdPtr <;> simp [World.turn, held]
        rwa [if_pos (decide_eq_true turns), World.take, same] at holds
  · split
    · exact holds
    · exact holds
    · exact holds

/-- The handler is not asked to turn anything. -/
def StringHandler.Unasked (json : JsonText) (msg : Bytes) (h : StringHandler) : Prop :=
  ∀ j type, json.parse msg = some j → j.field "type" = .ok type →
    ∀ k : Switch, k.handler = h → ¬ type.Is k.setType

theorem StringHandler.handleString_unasked (unasked : h.Unasked json msg)
    (notes : ∀ w effect, Q w → Q (w.note effect)) :
    Keeps Q (h.handleString json out cid msg) := by
  have sends : AllowsSending Q := fun w effect _ => notes w effect
  cases h with
  | recorderController =>
      refine unlessJson_keeps (parsed_keeps json msg fun j parsed => read_keeps fun type typed => ?_)
      split
      · refine .bind (attempt_keeps _) fun drone => .bind .get fun w => ?_
        exact .bind (answerCounted_keeps out cid _ sends) fun _ => .pure true
      split
      · next is => exact absurd is (unasked j type parsed typed (.recording 0) rfl)
      · exact .pure false
  | vehicleDetectionController =>
      refine unlessJson_keeps (parsed_keeps json msg fun j parsed => read_keeps fun type typed => ?_)
      split
      · refine .bind (attempt_keeps _) fun drone => .bind .get fun w => ?_
        exact .bind (answerCounted_keeps out cid _ sends) fun _ => .pure true
      split
      · next is => exact absurd is (unasked j type parsed typed (.detecting 0 0) rfl)
      · exact .pure false
  | flightDatabaseController =>
      refine Keeps.caught (parsed_keeps json msg fun j parsed => read_keeps fun type typed => ?_)
        fun e => ?_
      · split
        · exact .bind .get fun w => .bind (answerCounted_keeps out cid _ sends) fun _ => .pure true
        split
        · next is => exact absurd is (unasked j type parsed typed .saving rfl)
        · exact .pure false
      · split
        · exact .pure _
        · exact .throw _
        · exact .pure _
  | flightDatabase db =>
      refine unlessJson_keeps (parsed_keeps json msg fun j parsed => read_keeps fun type typed => ?_)
      split
      · refine .bind (attempt_keeps _) fun ins => ?_
        split
        · exact .throw _
        · exact .bind (.modify fun w => notes w _) fun _ => .pure true
      · exact .pure false

/-- Which handler a message may turn something of is told by its type. -/
theorem StringHandler.handleString_turns (k : Switch) (sends : AllowsSending Q)
    (parsed : json.parse msg = some j) (typed : j.field "type" = .ok type)
    (is : type.Is k.setType)
    (holds : Q (w.take ((j.turn cid).filter fun t => w.Equipped out t))) :
    Leads (k.handler.handleString json out cid msg) w Q := by
  cases k with
  | recording => exact RecorderController.handleString_turns sends parsed typed is holds
  | detecting => exact VehicleDetectionController.handleString_turns sends parsed typed is holds
  | saving => exact FlightDatabaseController.handleString_turns sends parsed typed is holds

theorem Json.turn_is {t : Turn} (typed : j.field "type" = .ok type) (turn : j.turn cid = some t) :
    type.Is t.1.setType := by
  rw [turn_typed typed] at turn
  split at turn
  · next is =>
      simp only [Option.pure_def, Option.bind_eq_bind, Option.bind_eq_some_iff] at turn
      obtain ⟨_, _, _, _, ⟨⟩⟩ := turn
      exact is
  split at turn
  · next is =>
      simp only [Option.pure_def, Option.bind_eq_bind, Option.bind_eq_some_iff] at turn
      obtain ⟨_, _, _, _, ⟨⟩⟩ := turn
      exact is
  split at turn
  · next is =>
      simp only [Option.pure_def, Option.bind_eq_bind, Option.bind_eq_some_iff] at turn
      obtain ⟨_, _, ⟨⟩⟩ := turn
      exact is
  · cases turn

theorem Json.turn_typed_some {t : Turn} (turn : j.turn cid = some t) :
    ∃ type, j.field "type" = .ok type ∧ type.Is t.1.setType := by
  cases typed : j.field "type" with
  | error e =>
      rw [Json.turn, typed] at turn
      cases turn
  | ok type => exact ⟨type, rfl, turn_is typed turn⟩

theorem FlightDataManager.each_unasked (unasked : ∀ h : StringHandler, h.Unasked json msg)
    (notes : ∀ w effect, Q w → Q (w.note effect)) (hs : List StringHandler) :
    Keeps Q (each json out cid msg hs) := by
  induction hs with
  | nil => exact .pure false
  | cons h hs ih =>
      exact .bind (h.handleString_unasked (unasked h) notes) fun _ => .bind ih fun _ => .pure _

/-- Together the handlers take the turn the message asks for, and make the libraries do something. -/
theorem FlightDataManager.handle_turns (notes : ∀ w effect, Q w → Q (w.note effect))
    (holds : Q (w.take (w.turned json out cid msg))) :
    Leads (handle json out cid msg) w Q := by
  by_cases asked : ∃ j type, json.parse msg = some j ∧ j.field "type" = .ok type ∧
      ∃ k : Switch, type.Is k.setType
  · obtain ⟨j, type, parsed, typed, k, is⟩ := asked
    have apart : ∀ h' ≠ k.handler, ∀ other ∈ h'.texts, ascii k.setType ≠ ascii other := by
      intro h' other
      exact StringHandler.texts_apart (by cases k <;> nofun)
        (by cases k <;> exact .tail _ (.head _)) other
    have owner : ∀ t, j.turn cid = some t → t.1.handler = k.handler := by
      intro t turn
      by_contra other
      refine is.other (apart _ other _ ?_) (Json.turn_is typed turn)
      cases t.1 <;> exact .tail _ (.head _)
    have turned : w.turned json out cid msg =
        if k.handler ∈ w.recs then (j.turn cid).filter fun t => w.Equipped out t else none := by
      rw [World.turned, parsed, Option.bind_some]
      cases turn : j.turn cid with
      | none => split <;> rfl
      | some t =>
          rw [Option.filter_some, Option.filter_some, owner t turn]
          by_cases registered : k.handler ∈ w.recs <;> simp [registered]
    have own : handle json out cid msg w = _ := handle_own parsed typed is apart w
    unfold Leads Ends
    by_cases registered : k.handler ∈ w.recs
    · rw [own, if_pos registered]
      rw [turned, if_pos registered] at holds
      exact StringHandler.handleString_turns k (fun w effect _ => notes w effect) parsed typed is
        holds
    · rw [own, if_neg registered]
      rwa [turned, if_neg registered] at holds
  · have unasked : ∀ h : StringHandler, h.Unasked json msg :=
      fun h j type parsed typed k _ is => asked ⟨j, type, parsed, typed, k, is⟩
    have turned : w.turned json out cid msg = none := by
      unfold World.turned
      cases parsed : json.parse msg with
      | none => rfl
      | some j =>
          rw [Option.bind_some]
          cases turn : j.turn cid with
          | none => rfl
          | some t =>
              obtain ⟨type, typed, is⟩ := Json.turn_typed_some turn
              exact absurd ⟨j, type, parsed, typed, t.1, is⟩ asked
    rw [turned] at holds
    exact Keeps.bind .get (fun v => each_unasked unasked notes _) w holds

end Handlers

/-- The property is one of the handlers and of what they hold. -/
def World.Aside (Q : World → Prop) : Prop :=
  ∀ w host objects nextClient clients pool effects,
    Q w → Q { w with host, objects, nextClient, clients, pool, effects }

namespace WebsocketClient

/-- The text that goes to the handlers, if the client does not deal with the message alone. -/
def handed (json : JsonText) (c : WebsocketClient) (msg : Bytes) : Option Bytes := do
  let j ← json.parse msg
  let type ← (j.field "type").toOption
  if type.Is "hello" ∧ !c.handshakeDone then none
  else if type.Is "data_broadcast" ∧ c.handshakeDone then some (json.dump j)
  else if type.Is "drone_list" ∧ c.handshakeDone then none
  else some msg

variable {ref : ClientRef}

theorem hello_holds {I : World → Prop} (sends : AllowsSending I)
    (joined : ∀ w objects pool, I w → I { w with objects, pool }) (j : Json) :
    Keeps I (hello json out ref j) := by
  have assigns : ∀ f : WebsocketClient → WebsocketClient, Keeps I (assign ref f) :=
    fun f => .modify fun w holds => joined w _ w.pool holds
  have joins : Keeps I (do
      modify fun w : World => { w with pool := w.pool.add ref (w.objects ref) }
      assign ref fun c => { c with handshakeDone := true }
      onHello json out ref) := by
    refine .bind (.modify fun w holds => joined w w.objects _ holds) fun _ => ?_
    exact .bind (assigns _) fun _ => onHello_keeps sends ref
  unfold hello
  refine .bind (attempt_keeps _) fun ctype => .bind (assigns _) fun _ => ?_
  dsimp only
  split
  · refine .bind (attempt_keeps _) fun name => .bind (assigns _) fun _ => ?_
    exact .bind (attempt_keeps _) fun serial => .bind (assigns _) fun _ => joins
  · exact joins

theorem handed_typed {type : Json} (parsed : json.parse msg = some j)
    (typed : j.field "type" = .ok type) (c : WebsocketClient) :
    handed json c msg =
      if type.Is "hello" ∧ !c.handshakeDone then none
      else if type.Is "data_broadcast" ∧ c.handshakeDone then some (json.dump j)
      else if type.Is "drone_list" ∧ c.handshakeDone then none
      else some msg := by
  rw [handed, parsed]
  change (j.field "type").toOption.bind _ = _
  rw [typed]
  rfl

/-- A message takes the turn the handlers take for it; the rest of what it does is aside. -/
theorem handle_turns {Q : World → Prop} (aside : World.Aside Q)
    (holds : Q (w.take
      ((handed json (w.objects ref) msg).bind (w.turned json out (w.objects ref).id)))) :
    Leads (handle json out ref msg) w Q := by
  have notes : ∀ w effect, Q w → Q (w.note effect) :=
    fun w effect => aside w w.host w.objects w.nextClient w.clients w.pool _
  have joined : ∀ w objects pool, Q w → Q { w with objects, pool } :=
    fun w objects pool => aside w w.host objects w.nextClient w.clients pool w.effects
  have sends : AllowsSending Q := fun w effect _ => notes w effect
  have alone : handed json (w.objects ref) msg = none →
      ∀ {m : Handling Unit}, Keeps Q m → Leads m w Q := by
    intro unheard m keeps
    rw [unheard] at holds
    exact keeps w holds
  have told : ∀ text, handed json (w.objects ref) msg = some text →
      Leads (FlightDataManager.handle json out (w.objects ref).id text) w Q := by
    intro text heard
    rw [heard] at holds
    exact FlightDataManager.handle_turns notes holds
  refine Ends.caught (E := fun _ => Q) ?_ fun e w' holds => ?_
  · unfold parse
    cases parsed : json.parse msg with
    | none =>
        refine alone ?_ (.throw Failure.json)
        rw [handed, parsed]
        rfl
    | some j =>
        refine Ends.bind_iff.mpr (Ends.pure_iff.mpr ?_)
        cases typed : j.field "type" with
        | error e =>
            refine alone ?_ (.throw e)
            rw [handed, parsed]
            change (j.field "type").toOption.bind _ = _
            rw [typed]
            rfl
        | ok type =>
            rw [handed_typed parsed typed] at alone told
            refine Ends.bind_iff.mpr (Ends.pure_iff.mpr (Ends.bind_iff.mpr ?_))
            refine Ends.bind_iff.mpr (Ends.get_iff.mpr (Ends.pure_iff.mpr ?_))
            split
            · next greets => exact alone (if_pos greets) (hello_holds sends joined j)
            next new =>
            rw [if_neg new] at alone told
            split
            · next broadcasts =>
                refine (told _ (if_pos broadcasts)).bind (fun _ w' holds => ?_)
                  fun _ _ holds => holds
                refine Keeps.bind (I := Q) .get (fun w => .forM _ fun c => ?_) w' holds
                exact send_keeps out _ sends c
            next silent =>
            rw [if_neg silent] at alone told
            split
            · next lists =>
                exact alone (if_pos lists) (.bind .get fun w => send_keeps out _ sends ref)
            · next other =>
                refine (told _ (if_neg other)).bind (fun handled w' holds => ?_)
                  fun _ _ holds => holds
                split
                · exact holds
                · exact kick_keeps out sends ref _ _ w' holds
  · split
    · exact kick_keeps out sends ref _ _ w' holds
    · exact holds

end WebsocketClient

end DroneServer
