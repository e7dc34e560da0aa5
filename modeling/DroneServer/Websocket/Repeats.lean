import DroneServer.Websocket.Keeping
import DroneServer.Websocket.Requests
import DroneServer.Websocket.Survival

/-! # The same request once more

What a request to set something does the first time leaves nothing to do the second
time, and it is answered again: so it is with recording and with vehicle detection.
The flight database's controller takes a request that asks for what is there already
for one it does not know.
-/

namespace DroneServer

open Handling

namespace World

/-- More was sent and closed, and more rows were inserted; nothing else differs. -/
def add (w : World) (effects : List Effect) : World := { w with effects := w.effects ++ effects }

/-- Both worlds come from the two given by adding the same. -/
def Echoes (w₀ v₀ w v : World) : Prop := ∃ effects, w = w₀.add effects ∧ v = v₀.add effects

theorem Echoes.start (w v : World) : Echoes w v w v :=
  ⟨[], by simp [add], by simp [add]⟩

theorem echoes_sends {w₀ v₀ : World} (clients : v₀.clients = w₀.clients)
    (pool : v₀.pool = w₀.pool) : Sends (Echoes w₀ v₀) where
  clients := by
    rintro _ _ ⟨_, rfl, rfl⟩
    exact clients
  pool := by
    rintro _ _ ⟨_, rfl, rfl⟩
    exact pool
  note := by
    rintro _ _ effect ⟨effects, rfl, rfl⟩
    exact ⟨effects ++ [effect], by simp [add, note], by simp [add, note]⟩

/-- A computation that does not look at more than sending does adds the same wherever it runs. -/
theorem echo {α : Type} {m : Handling α} {a : α} {w w' v : World}
    (blind : Blind (Echoes w v) m) (ran : m w = .ok a w') :
    ∃ effects, w' = w.add effects ∧ m v = .ok a (v.add effects) := by
  have both := blind w v (.start w v)
  rw [ran] at both
  cases again : m v with
  | ok b v' =>
      rw [again] at both
      obtain ⟨rfl, effects, rfl, rfl⟩ := both
      exact ⟨effects, rfl, rfl⟩
  | error e v' =>
      rw [again] at both
      exact both.elim

theorem echo_again {α : Type} {m : Handling α} {a : α} {w w' : World}
    (blind : ∀ v : World, v.clients = w.clients → v.pool = w.pool → Blind (Echoes w v) m)
    (ran : m w = .ok a w') :
    ∃ effects, w' = w.add effects ∧ m w' = .ok a (w'.add effects) := by
  obtain ⟨effects, rfl, _⟩ := echo (blind w rfl rfl) ran
  exact echo (blind (w.add effects) rfl rfl) ran

end World

/-- The types of message a handler knows. -/
def StringHandler.texts : StringHandler → List String
  | .recorderController => ["media_record_get", "media_record_set"]
  | .flightDatabaseController => ["flight_data_save_get", "flight_data_save_set"]
  | .vehicleDetectionController => ["vehicle_detection_get", "vehicle_detection_set"]
  | .flightDatabase _ => ["data_broadcast"]

variable {json : JsonText} {out : Outside} {cid : ClientId} {msg : Bytes} {j type : Json}
  {w w' : World} {h : StringHandler} {text : String}

/-- Only the flight databases, of which there may be several, share a type. -/
theorem StringHandler.texts_apart {h' : StringHandler} (single : ∀ db, h ≠ .flightDatabase db)
    (known : text ∈ h.texts) (other : h' ≠ h) : ∀ text' ∈ h'.texts, ascii text ≠ ascii text' := by
  revert text
  cases h with
  | flightDatabase db => exact absurd rfl (single db)
  | recorderController | flightDatabaseController | vehicleDetectionController =>
      cases h' <;> first
        | exact absurd rfl other
        | (simp only [texts]; decide)

theorem Json.Asks.other {other : String} (asks : j.Asks text) (apart : ascii text ≠ ascii other) :
    ¬ j.Asks other := by
  obtain ⟨type, typed, is⟩ := asks
  rw [Json.asks_iff typed]
  exact is.other apart

theorem StringHandler.handleString_unknown (parsed : json.parse msg = some j)
    (typed : j.field "type" = .ok type) (unknown : ∀ text ∈ h.texts, ¬ type.Is text) (w : World) :
    h.handleString json out cid msg w = .ok false w := by
  cases h with
  | recorderController =>
      have get := unknown "media_record_get" (.head _)
      have set := unknown "media_record_set" (.tail _ (.head _))
      simp only [handleString, RecorderController.handleString, Handling.parse, parsed, pure_bind,
        typed, attempt, if_neg get, if_neg set]
      rfl
  | flightDatabaseController =>
      have get := unknown "flight_data_save_get" (.head _)
      have set := unknown "flight_data_save_set" (.tail _ (.head _))
      simp only [handleString, FlightDatabaseController.handleString, Handling.parse, parsed,
        pure_bind, typed, attempt, if_neg get, if_neg set]
      rfl
  | vehicleDetectionController =>
      have get := unknown "vehicle_detection_get" (.head _)
      have set := unknown "vehicle_detection_set" (.tail _ (.head _))
      simp only [handleString, VehicleDetectionController.handleString, Handling.parse, parsed,
        pure_bind, typed, attempt, if_neg get, if_neg set]
      rfl
  | flightDatabase db =>
      have broadcast := unknown "data_broadcast" (.head _)
      simp only [handleString, FlightDatabase.handleString, Handling.parse, parsed, pure_bind,
        typed, attempt, if_neg broadcast]
      rfl

namespace FlightDataManager

variable {hs : List StringHandler}

theorem each_unknown (unknown : ∀ h ∈ hs, ∀ w, h.handleString json out cid msg w = .ok false w)
    (w : World) : each json out cid msg hs w = .ok false w := by
  induction hs with
  | nil => rfl
  | cons h hs ih =>
      rw [each, run_bind (unknown h (.head _) w),
        run_bind (ih fun h inside => unknown h (.tail _ inside))]
      rfl

/-- Where only one handler knows the message, it decides alone. -/
theorem each_own (nodup : hs.Nodup) (own : h ∈ hs)
    (unknown : ∀ h' ∈ hs, h' ≠ h → ∀ w, h'.handleString json out cid msg w = .ok false w)
    (w : World) : each json out cid msg hs w = h.handleString json out cid msg w := by
  induction hs with
  | nil => cases own
  | cons first hs ih =>
      obtain ⟨fresh, nodup⟩ := List.nodup_cons.mp nodup
      have later := fun h' inside => unknown h' (.tail _ inside)
      by_cases here : first = h
      · subst here
        have rest : ∀ w, each json out cid msg hs w = .ok false w :=
          each_unknown fun h' inside => later h' inside fun same => fresh (same ▸ inside)
        rw [each]
        cases ran : first.handleString json out cid msg w with
        | ok handled w' =>
            rw [run_bind ran, run_bind (rest w'), Bool.or_false]
            rfl
        | error e w' => rw [run_bind_error ran]
      · obtain _ | ⟨_, own⟩ := own
        · exact absurd rfl here
        rw [each, run_bind (unknown first (.head _) here w)]
        cases ran : h.handleString json out cid msg w with
        | ok handled w' =>
            rw [run_bind ((ih nodup own later).trans ran), Bool.false_or]
            rfl
        | error e w' => rw [run_bind_error ((ih nodup own later).trans ran)]

theorem handle_own (parsed : json.parse msg = some j) (typed : j.field "type" = .ok type)
    (is : type.Is text) (apart : ∀ h' ≠ h, ∀ other ∈ h'.texts, ascii text ≠ ascii other)
    (w : World) :
    handle json out cid msg w =
      if h ∈ w.recs then h.handleString json out cid msg w else .ok false w := by
  have unknown : ∀ h' ≠ h, ∀ w, h'.handleString json out cid msg w = .ok false w :=
    fun h' other => h'.handleString_unknown parsed typed fun text' known =>
      is.other (apart h' other text' known)
  change each json out cid msg (w.recs.entries.map Prod.fst) w = _
  split
  · next own => exact each_own w.recs.nodup own (fun h' _ other => unknown h' other) w
  · next absent =>
      refine each_unknown (fun h' inside => unknown h' ?_) w
      rintro rfl
      exact absent inside

end FlightDataManager

/-- What the libraries answer on connections is the same. -/
def Outside.SameWire (out out' : Outside) : Prop :=
  out'.sendThrows = out.sendThrows ∧ out'.closeThrows = out.closeThrows

/-- The computation has left the world in a state where it adds the same as before, and nothing else
    changes. -/
def Repeats (first : World) (again : Handling Bool) (w : World) : Prop :=
  ∃ effects, w.effects = first.effects ++ effects ∧ again w = .ok true (w.add effects)

section Controllers

variable {out' : Outside} {a : Json} {α : Type}

theorem Handling.attempt_bind_ran {β : Type} {r : Except Failure α} {f : α → Handling β} {b : β} :
    (attempt r >>= f) w = .ok b w' ↔ ∃ value, r = .ok value ∧ f value w = .ok b w' := by
  cases r with
  | ok value =>
      constructor
      · exact fun ran => ⟨value, rfl, ran⟩
      · rintro ⟨_, ⟨⟩, ran⟩
        exact ran
  | error e => exact iff_of_false nofun fun ⟨_, read, _⟩ => nomatch read

theorem Handling.unlessJson_true {body : Handling Bool} :
    unlessJson body w = .ok true w' ↔ body w = .ok true w' := by
  change EStateM.tryCatch body _ w = _ ↔ _
  unfold EStateM.tryCatch
  simp only [EStateM.Backtrackable.save, EStateM.Backtrackable.restore]
  cases ran : body w with
  | ok handled w' => rfl
  | error e w' =>
      refine iff_of_false ?_ nofun
      dsimp only
      split <;> nofun

theorem Handling.answer_wire (same : out.SameWire out') (cid : ClientId) (msg : Bytes) :
    answer out' cid msg = answer out cid msg := by
  obtain ⟨sends, closes⟩ := same
  unfold answer WebsocketServer.send WebsocketServer.kick
  rw [sends, closes]

theorem Handling.answerCounted_wire (same : out.SameWire out') (cid : ClientId) (msg : Bytes) :
    answerCounted out' cid msg = answerCounted out cid msg := by
  unfold answerCounted
  rw [answer_wire same]

theorem RecorderController.set_again (w : World) (drone : ClientId) (state : Bool)
    (effects : List Effect) :
    set ((set w drone state).add effects) drone state = (set w drone state).add effects := by
  cases state <;> cases held : w.recorders drone <;>
    simp [set, held, start, stop, World.add, World.setMedia, World.attach]

theorem RecorderController.repeats (same : out.SameWire out') (parsed : json.parse msg = some j)
    (typed : j.field "type" = .ok type) (is : type.Is "media_record_set")
    (handled : handleString json out cid msg w = .ok true w') :
    Repeats w (handleString json out' cid msg) w' ∧ w'.objects = w.objects ∧ w'.recs = w.recs := by
  have reads : ∀ out w, handleString json out cid msg w = unlessJson (do
      let drone ← attempt j.droneId
      let state ← attempt j.droneState
      modify (set · drone state)
      answer out cid (json.dump (Json.reply "media_record_set_resp" .null))
      pure true) w := by
    intro out w
    have get := is.other (show ascii _ ≠ ascii "media_record_get" by decide)
    simp only [handleString, Handling.parse, parsed, pure_bind, typed, attempt, if_neg get,
      if_pos is]
  rw [reads, unlessJson_true] at handled
  obtain ⟨drone, named, handled⟩ := attempt_bind_ran.mp handled
  obtain ⟨state, stated, handled⟩ := attempt_bind_ran.mp handled
  obtain ⟨_, _, answered, returned⟩ := bind_ran.mp
    (show (answer out cid _ >>= fun _ => pure true) (set w drone state) = .ok true w' from handled)
  cases returned
  have kept : (set w drone state).effects = w.effects ∧ (set w drone state).objects = w.objects ∧
      (set w drone state).recs = w.recs := by
    unfold set
    split <;> exact ⟨rfl, rfl, rfl⟩
  obtain ⟨effects, rfl, again⟩ := World.echo_again
    (fun v clients pool => answer_blind (World.echoes_sends clients pool) _) answered
  refine ⟨⟨effects, congrArg (· ++ effects) kept.1, ?_⟩, kept.2⟩
  rw [reads, unlessJson_true]
  refine attempt_bind_ran.mpr ⟨drone, named, attempt_bind_ran.mpr ⟨state, stated, ?_⟩⟩
  change (answer out' cid _ >>= fun _ => pure true) (set _ drone state) = _
  rw [set_again, answer_wire same, run_bind again]
  rfl

theorem VehicleDetectionController.set_again (d : VehicleDetector) (cid : ClientId) (state : Bool) :
    set (set d cid state) cid state = set d cid state := by
  cases state with
  | true =>
      by_cases watching : cid ∈ d.dsts <;>
        simp [set, VehicleDetector.count, VehicleDetector.add, watching]
  | false =>
      by_cases watching : cid ∈ d.dsts <;>
        simp [set, VehicleDetector.count, VehicleDetector.del, watching]

theorem VehicleDetectionController.detector_again {drone : ClientId} {d : VehicleDetector}
    (stored : w.detectors drone = some d) : detector out drone w = .ok d w := by
  unfold detector
  rw [run_bind (show (get : Handling World) w = .ok w w from rfl), stored]
  rfl

theorem VehicleDetectionController.detector_quiet {drone : ClientId} {d : VehicleDetector}
    (found : detector out drone w = .ok d w') :
    w'.effects = w.effects ∧ w'.objects = w.objects ∧ w'.recs = w.recs := by
  cases stored : w.detectors drone with
  | some d' =>
      rw [detector_again stored] at found
      cases found
      exact ⟨rfl, rfl, rfl⟩
  | none =>
      unfold detector at found
      rw [run_bind (show (get : Handling World) w = .ok w w from rfl), stored] at found
      cases throws : out.classifierThrows <;> rw [throws] at found
      · cases found
        exact ⟨rfl, rfl, rfl⟩
      · cases found

theorem VehicleDetectionController.repeats (same : out.SameWire out')
    (parsed : json.parse msg = some j) (typed : j.field "type" = .ok type)
    (is : type.Is "vehicle_detection_set")
    (handled : handleString json out cid msg w = .ok true w') :
    Repeats w (handleString json out' cid msg) w' ∧ w'.objects = w.objects ∧ w'.recs = w.recs := by
  have reads : ∀ out w, handleString json out cid msg w = unlessJson (do
      let drone ← attempt j.droneId
      let state ← attempt j.droneState
      let d ← detector out drone
      modify fun w => put w drone (set d cid state)
      answerCounted out cid (json.dump (Json.reply "vehicle_detection_set_resp" .null))
      pure true) w := by
    intro out w
    have get := is.other (show ascii _ ≠ ascii "vehicle_detection_get" by decide)
    simp only [handleString, Handling.parse, parsed, pure_bind, typed, attempt, if_neg get,
      if_pos is]
  rw [reads, unlessJson_true] at handled
  obtain ⟨drone, named, handled⟩ := attempt_bind_ran.mp handled
  obtain ⟨state, stated, handled⟩ := attempt_bind_ran.mp handled
  obtain ⟨d, w₁, found, handled⟩ := bind_ran.mp handled
  obtain ⟨_, _, answered, returned⟩ := bind_ran.mp
    (show (answerCounted out cid _ >>= fun _ => pure true) (put w₁ drone (set d cid state)) =
      .ok true w' from handled)
  cases returned
  obtain ⟨effects, rfl, again⟩ := World.echo_again
    (fun v clients pool => answerCounted_blind (World.echoes_sends clients pool) _) answered
  obtain ⟨sent, kept⟩ := detector_quiet found
  refine ⟨⟨effects, congrArg (· ++ effects) sent, ?_⟩, kept⟩
  have stored : ((put w₁ drone (set d cid state)).add effects).detectors drone =
      some (set d cid state) := Function.update_self ..
  have settled : put ((put w₁ drone (set d cid state)).add effects) drone
      (set (set d cid state) cid state) = (put w₁ drone (set d cid state)).add effects := by
    rw [set_again, put, ← stored, Function.update_eq_self]
  rw [reads, unlessJson_true]
  refine attempt_bind_ran.mpr ⟨drone, named, attempt_bind_ran.mpr ⟨state, stated, ?_⟩⟩
  rw [run_bind (detector_again stored)]
  change (answerCounted out' cid _ >>= fun _ => pure true) (put _ drone _) = _
  rw [settled, answerCounted_wire same, run_bind again]
  rfl

namespace FlightDatabaseController

theorem handleString_set (parsed : json.parse msg = some j) (typed : j.field "type" = .ok type)
    (is : type.Is "flight_data_save_set") (out : Outside) :
    handleString json out cid msg = tryCatch (do
      let state ← attempt j.saveState
      let w ← get
      match w.fdPtr, state with
      | none, true =>
          if out.connectThrows then throw .database
          modify start
          answer out cid (json.dump (Json.reply "flight_data_save_set_resp" .null))
          pure true
      | some db, false =>
          modify (stop · db)
          answer out cid (json.dump (Json.reply "flight_data_save_set_resp" .null))
          pure true
      | _, _ => pure false) fun e =>
        match e with
        | .json => pure false
        | .nullDereference => throw .nullDereference
        | _ => pure true := by
  have get := is.other (show ascii _ ≠ ascii "flight_data_save_get" by decide)
  simp only [handleString, Handling.parse, parsed, pure_bind, typed, attempt]
  exact congrArg (tryCatch · _) ((if_neg get).trans (if_pos is))

/-- If anything was sent since, saving is as the message asks for. -/
def Settles (j : Json) (w w' : World) : Prop :=
  ∃ state, j.saveState = .ok state ∧ (w'.effects = w.effects ∨ w'.fdPtr.isSome = state)

theorem settles (parsed : json.parse msg = some j) (typed : j.field "type" = .ok type)
    (is : type.Is "flight_data_save_set") (w : World) :
    Ends (handleString json out cid msg) w (fun handled w' => handled = true → Settles j w w')
      fun _ _ => True := by
  rw [handleString_set parsed typed is]
  refine Ends.caught (E := fun e w' => e ≠ .json → Settles j w w') ?_ ?_
  · cases stated : j.saveState with
    | error e => exact fun other => absurd (j.saveState_plain e stated) other
    | ok state =>
        -- whatever comes of answering, saving stays as it was switched
        have switched : ∀ (w' : World) reply, w'.fdPtr.isSome = state →
            Ends (do answer out cid reply; pure true) w'
              (fun handled w'' => handled = true → Settles j w w'')
              fun e w'' => e ≠ .json → Settles j w w'' := by
          intro w' reply there
          have kept : Keeps (fun v : World => v.fdPtr.isSome = state) (answer out cid reply) :=
            answer_keeps out cid reply fun _ _ _ same => same
          exact ((kept.bind fun _ => .pure true) w' there).mono
            (fun _ _ there _ => ⟨state, stated, .inr there⟩) fun _ _ there _ =>
              ⟨state, stated, .inr there⟩
        refine Ends.bind_iff.mpr (attempt_ok.mpr (Ends.bind_iff.mpr (Ends.get_iff.mpr ?_)))
        split
        · split
          · exact fun _ => ⟨_, stated, .inl rfl⟩
          · exact Ends.bind_iff.mpr (Ends.modify_iff.mpr (switched _ _ rfl))
        · exact Ends.bind_iff.mpr (Ends.modify_iff.mpr (switched _ _ rfl))
        · exact fun handled => nomatch handled
  · intro e w' settled
    cases e with
    | json => exact fun handled => nomatch handled
    | nullDereference => trivial
    | outOfRange | endpoint | database | classifier => exact fun _ => settled (by decide)

/-- A message that was handled and answered is refused when it comes again. -/
theorem refuses (parsed : json.parse msg = some j) (typed : j.field "type" = .ok type)
    (is : type.Is "flight_data_save_set")
    (handled : handleString json out cid msg w = .ok true w') (sent : w'.effects ≠ w.effects)
    (cid' : ClientId) (v : World) : handleString json out' cid' msg w' ≠ .ok true v := by
  intro again
  have settled : Ends (handleString json out cid msg) w _ _ := settles parsed typed is w
  have judged := judged json out' cid' msg w'
  unfold Ends at settled
  unfold Judged Ends at judged
  rw [handled] at settled
  rw [again] at judged
  obtain ⟨state, stated, same | there⟩ := settled rfl
  · exact sent same
  obtain ⟨_, parsed', handles⟩ := judged.1.2.mp rfl
  cases parsed.symm.trans parsed'
  obtain get | ⟨_, state', stated', other⟩ := handles
  · have apart : ascii "flight_data_save_set" ≠ ascii "flight_data_save_get" := by decide
    exact is.other apart ((Json.asks_iff typed _).mp get)
  · cases stated.symm.trans stated'
    exact other there

end FlightDatabaseController

end Controllers

theorem WebsocketClient.handle_run {ref : ClientRef} (parsed : json.parse msg = some j)
    (typed : j.field "type" = .ok type) (is : type.Is text)
    (apart : ∀ own ∈ ["hello", "data_broadcast", "drone_list"], ascii text ≠ ascii own)
    (handled : FlightDataManager.handle json out (w.objects ref).id msg w = .ok true w') :
    handle json out ref msg w = .ok ⟨⟩ w' := by
  have greets := is.other (apart "hello" (.head _))
  have broadcasts := is.other (apart "data_broadcast" (.tail _ (.head _)))
  have lists := is.other (apart "drone_list" (.tail _ (.tail _ (.head _))))
  have body : (do
      let c ← this ref
      if ← FlightDataManager.handle json out c.id msg then pure ()
      else WebsocketServer.kick out ref .invalidPayload (ascii "unsupported request") :
        Handling Unit) w = .ok ⟨⟩ w' := by
    rw [run_bind (show this ref w = .ok (w.objects ref) w from rfl), run_bind handled]
    rfl
  unfold handle Handling.parse
  simp only [parsed, pure_bind, typed, attempt, greets, broadcasts, lists, false_and, if_false]
  exact run_catch body

/-- Handled again at once, while the connections behave as before, the request is answered as before
    and changes nothing else; so its sender is not kicked either. -/
def World.Idempotent (json : JsonText) (out : Outside) (ref : ClientRef) (msg : Bytes)
    (w w' : World) : Prop :=
  ∀ out', out.SameWire out' → ∃ effects, w'.effects = w.effects ++ effects ∧
    FlightDataManager.handle json out' (w'.objects ref).id msg w' = .ok true (w'.add effects) ∧
      WebsocketClient.handle json out' ref msg w' = .ok ⟨⟩ (w'.add effects)

def Effect.isSent : Effect → Bool
  | .sent _ _ => true
  | .closed _ _ _ | .inserted _ _ => false

/-- Something was sent. -/
def World.Replied (w w' : World) : Prop :=
  ∃ effect ∈ w'.effects.drop w.effects.length, effect.isSent = true

instance (w w' : World) : Decidable (w.Replied w') :=
  inferInstanceAs (Decidable (∃ effect ∈ w'.effects.drop w.effects.length, _))

/-- A request that one handler knows, and that this handler repeats, is answered once more. -/
theorem World.Idempotent.of_handler {ref : ClientRef} (h : StringHandler)
    (parsed : json.parse msg = some j) (typed : j.field "type" = .ok type) (is : type.Is text)
    (single : ∀ db, h ≠ .flightDatabase db) (known : text ∈ h.texts)
    (own : ∀ own ∈ ["hello", "data_broadcast", "drone_list"], ascii text ≠ ascii own)
    (handled : FlightDataManager.handle json out (w.objects ref).id msg w = .ok true w')
    (repeats : h.handleString json out (w.objects ref).id msg w = .ok true w' →
      ∀ out', out.SameWire out' → Repeats w (h.handleString json out' (w.objects ref).id msg) w' ∧
        w'.objects = w.objects ∧ w'.recs = w.recs) : w.Idempotent json out ref msg w' := by
  intro out' same
  have apart : ∀ h' ≠ h, ∀ other ∈ h'.texts, ascii text ≠ ascii other :=
    fun h' => StringHandler.texts_apart single known
  rw [FlightDataManager.handle_own parsed typed is apart] at handled
  split at handled
  · next registered =>
      obtain ⟨⟨effects, sent, again⟩, objects, recs⟩ := repeats handled out' same
      have handles : FlightDataManager.handle json out' (w'.objects ref).id msg w' =
          .ok true (w'.add effects) := by
        rw [FlightDataManager.handle_own parsed typed is apart, recs, if_pos registered, objects,
          again]
      exact ⟨effects, sent, handles, WebsocketClient.handle_run parsed typed is own handles⟩
  · cases handled

theorem World.Replied.sent (replied : w.Replied w') : w'.effects ≠ w.effects := by
  obtain ⟨effect, inside, _⟩ := replied
  intro same
  rw [same, List.drop_length] at inside
  cases inside

/-- Of every request to set something that was handled and answered: handled once more it is answered
    in the same way and changes nothing, exactly when it is not the flight database's. -/
theorem set_repeats_iff {json : JsonText} {out : Outside} {ref : ClientRef} {msg : Bytes} {j : Json}
    {w w' : World} (parsed : json.parse msg = some j)
    (sets : j.Asks "media_record_set" ∨ j.Asks "vehicle_detection_set" ∨
      j.Asks "flight_data_save_set")
    (handled : FlightDataManager.handle json out (w.objects ref).id msg w = .ok true w')
    (replied : w.Replied w') :
    w.Idempotent json out ref msg w' ↔ ¬ j.Asks "flight_data_save_set" := by
  obtain record | detect | save := sets
  · refine iff_of_true ?_ (record.other (by decide))
    obtain ⟨type, typed, is⟩ := record
    refine .of_handler .recorderController parsed typed is (by simp) (by decide) (by decide)
      handled ?_
    exact fun handled out' same => RecorderController.repeats same parsed typed is handled
  · refine iff_of_true ?_ (detect.other (by decide))
    obtain ⟨type, typed, is⟩ := detect
    refine .of_handler .vehicleDetectionController parsed typed is (by simp) (by decide) (by decide)
      handled ?_
    exact fun handled out' same => VehicleDetectionController.repeats same parsed typed is handled
  · obtain ⟨type, typed, is⟩ := save
    refine iff_of_false (fun repeats => ?_) fun other => other ⟨type, typed, is⟩
    have apart : ∀ h' ≠ StringHandler.flightDatabaseController, ∀ other ∈ h'.texts,
        ascii "flight_data_save_set" ≠ ascii other :=
      fun h' => StringHandler.texts_apart (by simp) (by decide)
    obtain ⟨effects, _, again, _⟩ := repeats out ⟨rfl, rfl⟩
    rw [FlightDataManager.handle_own parsed typed is apart] at handled again
    split at handled
    · split at again
      · exact FlightDatabaseController.refuses parsed typed is handled replied.sent _ _ again
      · cases again
    · cases handled

namespace Requests

/-- A request to save flight data. -/
def save : Json :=
  .object [(ascii "data", .boolean true), (ascii "type", Json.str "flight_data_save_set")]

/-- The library, for an operator who asks for a recording and for saving. -/
def operatorLibrary : JsonText := library [helloOperator, set "media_record_set" "1" true, save]

/-- An operator who has said hello. -/
def operatorKnown : World :=
  ((web operatorLibrary {}).run [.opened 0 7, .message 0 (print helloOperator) {}]).world

end Requests

open Requests

set_option maxRecDepth 8000 in
theorem set_repeats_iff_record :
    ∃ w', operatorKnown.Idempotent operatorLibrary {} 0
      (print (Requests.set "media_record_set" "1" true)) w' := by
  obtain ⟨handled, w', ran, rfl, replied⟩ : ∃ handled w',
      FlightDataManager.handle operatorLibrary {} (operatorKnown.objects 0).id
        (print (Requests.set "media_record_set" "1" true)) operatorKnown = .ok handled w' ∧
          handled = true ∧ operatorKnown.Replied w' := by
    decide +kernel
  have asks : (Requests.set "media_record_set" "1" true).Asks "media_record_set" :=
    ⟨_, rfl, rfl⟩
  have parsed : operatorLibrary.parse (print (Requests.set "media_record_set" "1" true)) =
      some (Requests.set "media_record_set" "1" true) := rfl
  exact ⟨w', (set_repeats_iff parsed (.inl asks) ran replied).mpr (asks.other (by decide))⟩

set_option maxRecDepth 8000 in
/-- An operator turns saving on, and does so again: the request is not handled then, which has the
    sender kicked. -/
theorem repeated_save_refused :
    ¬ ∀ (json : JsonText) (labels : List Happening) (out : Outside) (ref : ClientRef) (msg : Bytes)
      (j : Json) (w' : World), json.parse msg = some j → j.Asks "flight_data_save_set" →
        (((web json {}).run labels).world.pool.clientIds
          (((web json {}).run labels).world.objects ref).id) = some (some ref) →
        FlightDataManager.handle json out (((web json {}).run labels).world.objects ref).id msg
          ((web json {}).run labels).world = .ok true w' →
        ((web json {}).run labels).world.Replied w' →
          ((web json {}).run labels).world.Idempotent json out ref msg w' := by
  intro all
  have asks : save.Asks "flight_data_save_set" := ⟨_, rfl, rfl⟩
  obtain ⟨handled, w', ran, rfl, replied, refused⟩ : ∃ handled w',
      FlightDataManager.handle operatorLibrary {} (operatorKnown.objects 0).id (print save)
          operatorKnown = .ok handled w' ∧
        handled = true ∧ operatorKnown.Replied w' ∧ ∃ handled w'',
          FlightDataManager.handle operatorLibrary {} (w'.objects 0).id (print save) w' =
            .ok handled w'' ∧ handled = false := by
    decide +kernel
  obtain ⟨_, _, again, _⟩ := all operatorLibrary [.opened 0 7, .message 0 (print helloOperator) {}]
    {} 0 (print save) save w' rfl asks rfl ran replied {} ⟨rfl, rfl⟩
  obtain ⟨_, _, again', rfl⟩ := refused
  cases again.symm.trans again'

end DroneServer
