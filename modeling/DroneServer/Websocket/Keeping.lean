import DroneServer.Websocket.Client

/-! # What no handler breaks

A handler changes the process in a few ways only, whatever the text: it turns a
recording or the saving on or off, makes a detector or changes who watches, and
makes the libraries do something. `HandlersKeep` asks of a property that it
survives these; then it survives every text, returned from or thrown out of.
-/

namespace DroneServer

open Handling

/-- The rows inserted. -/
def rows (effects : List Effect) : List (DatabaseRef × Bytes) :=
  effects.filterMap fun
    | .inserted db statement => some (db, statement)
    | _ => none

/-- The property survives sending and closing. -/
def AllowsSending (I : World → Prop) : Prop :=
  ∀ w effect, rows [effect] = [] → I w → I (w.note effect)

/-- The property survives what the handlers do for this client. -/
structure HandlersKeep (I : World → Prop) (cid : ClientId) : Prop where
  note : ∀ {w} effect, I w → I (w.note effect)
  record : ∀ {w} drone state, I w → I (RecorderController.set w drone state)
  detect : ∀ {w} drone, I w →
    I (VehicleDetectionController.put (w.attach drone) drone { writer := w.nextWriter })
  watch : ∀ {w drone d} state, I w → w.detectors drone = some d →
    I (VehicleDetectionController.put w drone (VehicleDetectionController.set d cid state))
  save : ∀ {w}, I w → I (FlightDatabaseController.start w)
  unsave : ∀ {w} db, I w → I (FlightDatabaseController.stop w db)

variable {α : Type} {I : World → Prop} (json : JsonText) (out : Outside) (cid : ClientId)
  (msg : Bytes)

namespace Handling

theorem attempt_keeps (r : Except Failure α) : Keeps I (attempt r) := by
  cases r with
  | ok value => exact .pure value
  | error e => exact .throw e

theorem parse_keeps : Keeps I (parse json msg) := by
  unfold parse
  split
  · exact .pure _
  · exact .throw _

theorem read_keeps {β : Type} {r : Except Failure α} {k : α → Handling β}
    (next : ∀ a, r = .ok a → Keeps I (k a)) : Keeps I (attempt r >>= k) := by
  intro w holds
  cases r with
  | ok value => exact next value rfl w holds
  | error e => exact holds

theorem parsed_keeps {k : Json → Handling α} (next : ∀ j, json.parse msg = some j → Keeps I (k j)) :
    Keeps I (parse json msg >>= k) := by
  intro w holds
  unfold parse
  cases parsed : json.parse msg with
  | none => exact holds
  | some j => exact next j parsed w holds

theorem unlessJson_keeps {body : Handling Bool} (kept : Keeps I body) :
    Keeps I (unlessJson body) := by
  refine kept.caught fun e => ?_
  split
  · exact .pure _
  · exact .throw _

section Sending

variable (sends : AllowsSending I)
include sends

theorem kick_keeps (dst : ClientRef) (status : CloseStatus) (reason : Bytes) :
    Keeps I (WebsocketServer.kick out dst status reason) := by
  refine .bind .get fun w => .forM _ fun c => ?_
  split
  · split
    · exact .throw _
    · exact .modify fun w => sends w _ rfl
  · exact .pure _

theorem send_keeps (dst : ClientRef) : Keeps I (WebsocketServer.send out dst msg) := by
  refine .bind .get fun w => .forM _ fun c => ?_
  split
  · split
    · exact .modify fun w => sends w _ rfl
    · exact kick_keeps out sends dst _ _
  · exact .pure _

theorem answer_keeps : Keeps I (answer out cid msg) := by
  refine .bind .get fun w => .bind (attempt_keeps _) fun entry => ?_
  cases entry with
  | some ref => exact send_keeps out msg sends ref
  | none => exact .throw _

theorem answerCounted_keeps : Keeps I (answerCounted out cid msg) := by
  refine .bind .get fun w => ?_
  split
  · exact answer_keeps out cid msg sends
  · exact .pure _

end Sending

end Handling

section Handlers

variable {json out cid msg} (keep : HandlersKeep I cid)
include keep

theorem HandlersKeep.sends : AllowsSending I := fun _ effect _ => keep.note effect

theorem RecorderController.handleString_keeps :
    Keeps I (RecorderController.handleString json out cid msg) := by
  refine unlessJson_keeps (.bind (parse_keeps json msg) fun j =>
    .bind (attempt_keeps _) fun type => ?_)
  split
  · refine .bind (attempt_keeps _) fun drone => .bind .get fun w => ?_
    exact .bind (answerCounted_keeps out cid _ keep.sends) fun _ => .pure true
  split
  · refine .bind (attempt_keeps _) fun drone => .bind (attempt_keeps _) fun state => ?_
    refine .bind (.modify fun w => keep.record drone state) fun _ => ?_
    exact .bind (answer_keeps out cid _ keep.sends) fun _ => .pure true
  · exact .pure false

/-- The detector the request is about is the one that is stored. -/
theorem VehicleDetectionController.detector_stored (drone : ClientId) (w : World) (holds : I w) :
    Ends (VehicleDetectionController.detector out drone) w
      (fun d w' => I w' ∧ w'.detectors drone = some d) fun _ w' => I w' := by
  refine Ends.bind_iff.mpr (Ends.get_iff.mpr ?_)
  split
  · next d stored => exact ⟨holds, stored⟩
  · next fresh =>
      split
      · exact holds
      · exact ⟨keep.detect drone holds, Function.update_self ..⟩

theorem VehicleDetectionController.handleString_keeps :
    Keeps I (VehicleDetectionController.handleString json out cid msg) := by
  refine unlessJson_keeps (.bind (parse_keeps json msg) fun j =>
    .bind (attempt_keeps _) fun type => ?_)
  split
  · refine .bind (attempt_keeps _) fun drone => .bind .get fun w => ?_
    exact .bind (answerCounted_keeps out cid _ keep.sends) fun _ => .pure true
  split
  · refine .bind (attempt_keeps _) fun drone => .bind (attempt_keeps _) fun state => ?_
    intro w holds
    refine (detector_stored keep drone w holds).bind ?_ fun _ _ kept => kept
    rintro d w' ⟨holds, stored⟩
    refine Ends.bind_iff.mpr (Ends.modify_iff.mpr ?_)
    refine Keeps.bind (answerCounted_keeps out cid _ keep.sends) (fun _ => .pure true) _ ?_
    exact keep.watch state holds stored
  · exact .pure false

theorem FlightDatabase.handleString_keeps (db : DatabaseRef) :
    Keeps I (FlightDatabase.handleString json out db msg) := by
  refine unlessJson_keeps (.bind (parse_keeps json msg) fun j =>
    .bind (attempt_keeps _) fun type => ?_)
  split
  · refine .bind (attempt_keeps _) fun ins => ?_
    split
    · exact .throw _
    · exact .bind (.modify fun w => keep.note _) fun _ => .pure true
  · exact .pure false

theorem FlightDatabaseController.handleString_keeps :
    Keeps I (FlightDatabaseController.handleString json out cid msg) := by
  refine Keeps.caught (.bind (parse_keeps json msg) fun j => .bind (attempt_keeps _) fun type => ?_)
    fun e => ?_
  · split
    · refine .bind .get fun w => ?_
      exact .bind (answerCounted_keeps out cid _ keep.sends) fun _ => .pure true
    split
    · refine .bind (attempt_keeps _) fun state => .bind .get fun w => ?_
      split
      · split
        · exact .throw _
        · refine .bind (.modify fun w => keep.save) fun _ => ?_
          exact .bind (answer_keeps out cid _ keep.sends) fun _ => .pure true
      · next db _ _ =>
          refine .bind (.modify fun w => keep.unsave _) fun _ => ?_
          exact .bind (answer_keeps out cid _ keep.sends) fun _ => .pure true
      · exact .pure false
    · exact .pure false
  · split
    · exact .pure _
    · exact .throw _
    · exact .pure _

theorem StringHandler.handleString_keeps (h : StringHandler) :
    Keeps I (h.handleString json out cid msg) := by
  cases h with
  | recorderController => exact RecorderController.handleString_keeps keep
  | flightDatabaseController => exact FlightDatabaseController.handleString_keeps keep
  | vehicleDetectionController => exact VehicleDetectionController.handleString_keeps keep
  | flightDatabase db => exact FlightDatabase.handleString_keeps keep db

theorem FlightDataManager.each_keeps (hs : List StringHandler) :
    Keeps I (FlightDataManager.each json out cid msg hs) := by
  induction hs with
  | nil => exact .pure false
  | cons h rest ih =>
      exact .bind (h.handleString_keeps keep) fun _ => .bind ih fun _ => .pure _

theorem FlightDataManager.handle_keeps : Keeps I (FlightDataManager.handle json out cid msg) :=
  .bind .get fun _ => FlightDataManager.each_keeps keep _

end Handlers

namespace WebsocketClient

variable {json out msg} {ref : ClientRef} {w : World}

theorem this_keeps (ref : ClientRef) : Keeps I (this ref) := .bind .get fun _ => .pure _

theorem onHello_keeps (sends : AllowsSending I) (ref : ClientRef) :
    Keeps I (onHello json out ref) :=
  .bind (this_keeps ref) fun _ => .bind .get fun _ => send_keeps out _ sends ref

/-- Every branch but the hello keeps what the handlers keep, so the whole leads where the hello
    does. -/
theorem handle_leads {Q : World → Prop} (start : I w) (kept : ∀ w', I w' → Q w')
    (sends : AllowsSending I) (sends' : AllowsSending Q)
    (handlers : ∀ str, str = msg ∨ (w.objects ref).handshakeDone = true →
      Keeps I (FlightDataManager.handle json out (w.objects ref).id str))
    (hello : ∀ j type, json.parse msg = some j → j.field "type" = .ok type → type.Is "hello" →
      (w.objects ref).handshakeDone = false →
      Ends (hello json out ref j) w (fun _ => Q) fun _ => Q) :
    Ends (handle json out ref msg) w (fun _ => Q) fun _ => Q := by
  have others : ∀ {m : Handling Unit}, Keeps I m → Ends m w (fun _ => Q) fun _ => Q :=
    fun keeps => (keeps w start).mono (fun _ => kept) fun _ => kept
  refine Ends.caught (E := fun _ => Q) ?_ fun e w' holds => ?_
  · unfold parse
    cases parsed : json.parse msg with
    | none => exact kept w start
    | some j =>
        refine Ends.bind_iff.mpr (Ends.pure_iff.mpr ?_)
        cases typed : j.field "type" with
        | error e => exact kept w start
        | ok type =>
            refine Ends.bind_iff.mpr (Ends.pure_iff.mpr (Ends.bind_iff.mpr ?_))
            refine Ends.bind_iff.mpr (Ends.get_iff.mpr (Ends.pure_iff.mpr ?_))
            split
            · next greets => exact hello j type parsed typed greets.1 (by simpa using greets.2)
            split
            · next broadcasts =>
                refine others (.bind (handlers _ (.inr broadcasts.2)) fun _ => ?_)
                exact .bind .get fun w => .forM _ fun c => send_keeps out _ sends c
            split
            · exact others (.bind .get fun _ => send_keeps out _ sends ref)
            · refine others (.bind (handlers _ (.inl rfl)) fun handled => ?_)
              split
              · exact .pure _
              · exact kick_keeps out sends ref _ _
  · split
    · exact kick_keeps out sends' ref _ _ w' holds
    · exact holds

end WebsocketClient

/-- After a message the property holds whether the message was survived or not. -/
theorem Process.after_keeps {p : Process} {m : Handling Unit}
    (ends : Ends m p.world (fun _ => I) fun _ => I) : I (p.after (m p.world)).world := by
  unfold Ends at ends
  cases ran : m p.world with
  | ok a w =>
      rw [ran] at ends
      exact ends
  | error e w =>
      rw [ran] at ends
      exact ends

end DroneServer
