import DroneServer.Websocket.Endpoint
import DroneServer.Websocket.Registries

/-! # Two processes that differ in one client only

`Beside` puts next to a world another one, in which clients nobody looks at may have
different fields and other texts may have been sent. No handler sees the difference,
and neither does the `handle` of a client that is the same in both, so events other
than those clients' messages keep the two worlds side by side.
-/

namespace DroneServer

open Handling

namespace World

/-- The second world differs in what was sent and closed and in clients that are no drones of the
    pool, are none of those given, and have the same ids. -/
inductive Beside (known : ClientRef → Prop) (w : World) : World → Prop
  | intro {objects : ClientRef → WebsocketClient} {effects : List Effect}
      (inserts : rows effects = rows w.effects) (ids : ∀ r, (objects r).id = (w.objects r).id)
      (same : ∀ r, r ∈ w.pool.drones ∨ known r → objects r = w.objects r) :
      Beside known w { w with objects, effects }

namespace Beside

variable {known known' : ClientRef → Prop} {w v : World}

theorem refl (w : World) : Beside known w w := .intro rfl (fun _ => rfl) fun _ _ => rfl

theorem reads {β : Type} {f : World → β}
    (looks : ∀ w objects effects, f { w with objects, effects } = f w) :
    ∀ w v, Beside known w v → f v = f w := by
  rintro w _ ⟨_, _, _⟩
  exact looks w _ _

theorem sends : World.Sends (Beside known) where
  clients := reads (fun _ _ _ => rfl) _ _
  pool := reads (fun _ _ _ => rfl) _ _
  note effect beside := by
    obtain ⟨inserts, ids, same⟩ := beside
    refine .intro ?_ ids same
    rw [rows, List.filterMap_append, ← rows, inserts]
    exact List.filterMap_append.symm

theorem mono (beside : Beside known w v) (fewer : ∀ r, known' r → known r) :
    Beside known' w v := by
  obtain ⟨inserts, ids, same⟩ := beside
  exact .intro inserts ids fun r own => same r (own.imp_right (fewer r))

end Beside

end World

section Handlers

variable {json : JsonText} {out : Outside} {cid : ClientId} {msg : Bytes}
  {known : ClientRef → Prop}

namespace Handling

theorem parse_blind {R : World → World → Prop} : Blind R (parse json msg) := by
  unfold parse
  split
  · exact .pure _
  · exact .throw _

theorem unlessJson_blind {R : World → World → Prop} {body : Handling Bool} (blind : Blind R body) :
    Blind R (unlessJson body) := by
  refine blind.caught fun e => ?_
  split
  · exact .pure _
  · exact .throw _

end Handling

theorem RecorderController.set_beside (drone : ClientId) (state : Bool) (w v : World)
    (beside : w.Beside known v) : (set w drone state).Beside known (set v drone state) := by
  obtain ⟨inserts, ids, same⟩ := beside
  unfold set
  dsimp only
  split
  · exact .intro inserts ids same
  · exact .intro inserts ids same
  · exact .intro inserts ids same

theorem RecorderController.handleString_blind :
    Blind (World.Beside known) (RecorderController.handleString json out cid msg) := by
  refine unlessJson_blind (.bind parse_blind fun j => .bind (attempt_blind _) fun type => ?_)
  split
  · refine .bind (attempt_blind _) fun drone => ?_
    refine .get_bind (World.Beside.reads fun _ _ _ => rfl) fun w => ?_
    exact .bind (answerCounted_blind World.Beside.sends _) fun _ => .pure true
  split
  · refine .bind (attempt_blind _) fun drone => .bind (attempt_blind _) fun state => ?_
    refine .bind (.modify (RecorderController.set_beside drone state)) fun _ => ?_
    exact .bind (answer_blind World.Beside.sends _) fun _ => .pure true
  · exact .pure false

theorem VehicleDetectionController.detector_blind (drone : ClientId) :
    Blind (World.Beside known) (VehicleDetectionController.detector out drone) := by
  refine .get_bind (World.Beside.reads fun _ _ _ => rfl) fun w => ?_
  split
  · exact .pure _
  · split
    · exact .throw _
    · refine .bind (.modify ?_) fun _ => .pure _
      rintro w _ ⟨inserts, ids, same⟩
      exact .intro inserts ids same

theorem VehicleDetectionController.handleString_blind :
    Blind (World.Beside known) (VehicleDetectionController.handleString json out cid msg) := by
  refine unlessJson_blind (.bind parse_blind fun j => .bind (attempt_blind _) fun type => ?_)
  split
  · refine .bind (attempt_blind _) fun drone => ?_
    refine .get_bind (World.Beside.reads fun _ _ _ => rfl) fun w => ?_
    exact .bind (answerCounted_blind World.Beside.sends _) fun _ => .pure true
  split
  · refine .bind (attempt_blind _) fun drone => .bind (attempt_blind _) fun state => ?_
    refine .bind (VehicleDetectionController.detector_blind drone) fun d => ?_
    refine .bind (.modify ?_) fun _ => .bind (answerCounted_blind World.Beside.sends _) fun _ => .pure true
    rintro w _ ⟨inserts, ids, same⟩
    exact .intro inserts ids same
  · exact .pure false

theorem FlightDatabase.handleString_blind (db : DatabaseRef) :
    Blind (World.Beside known) (FlightDatabase.handleString json out db msg) := by
  refine unlessJson_blind (.bind parse_blind fun j => .bind (attempt_blind _) fun type => ?_)
  split
  · refine .bind (attempt_blind _) fun ins => ?_
    split
    · exact .throw _
    · exact .bind (note_blind World.Beside.sends _) fun _ => .pure true
  · exact .pure false

theorem FlightDatabaseController.handleString_blind :
    Blind (World.Beside known) (FlightDatabaseController.handleString json out cid msg) := by
  refine Blind.caught (.bind parse_blind fun j => .bind (attempt_blind _) fun type => ?_)
    fun e => ?_
  · split
    · refine .get_bind (World.Beside.reads fun _ _ _ => rfl) fun w => ?_
      exact .bind (answerCounted_blind World.Beside.sends _) fun _ => .pure true
    split
    · refine .bind (attempt_blind _) fun state => ?_
      refine .get_bind (World.Beside.reads fun _ _ _ => rfl) fun w => ?_
      split
      · split
        · exact .throw _
        · refine .bind (.modify ?_) fun _ => .bind (answer_blind World.Beside.sends _) fun _ => .pure true
          rintro w _ ⟨inserts, ids, same⟩
          exact .intro inserts ids same
      · refine .bind (.modify ?_) fun _ => .bind (answer_blind World.Beside.sends _) fun _ => .pure true
        rintro w _ ⟨inserts, ids, same⟩
        exact .intro inserts ids same
      · exact .pure false
    · exact .pure false
  · split
    · exact .pure _
    · exact .throw _
    · exact .pure _

theorem StringHandler.handleString_blind (h : StringHandler) :
    Blind (World.Beside known) (h.handleString json out cid msg) := by
  cases h with
  | recorderController => exact RecorderController.handleString_blind
  | flightDatabaseController => exact FlightDatabaseController.handleString_blind
  | vehicleDetectionController => exact VehicleDetectionController.handleString_blind
  | flightDatabase db => exact FlightDatabase.handleString_blind db

theorem FlightDataManager.each_blind (hs : List StringHandler) :
    Blind (World.Beside known) (FlightDataManager.each json out cid msg hs) := by
  induction hs with
  | nil => exact .pure false
  | cons h rest ih =>
      exact .bind h.handleString_blind fun _ => .bind ih fun _ => .pure _

theorem FlightDataManager.handle_blind :
    Blind (World.Beside known) (FlightDataManager.handle json out cid msg) := by
  exact .get_bind (World.Beside.reads fun _ _ _ => rfl) fun w => FlightDataManager.each_blind _

end Handlers

section Client

variable {json : JsonText} {out : Outside} {ref : ClientRef} {msg : Bytes}
  {known : ClientRef → Prop}

namespace WebsocketClient

theorem this_blind (own : known ref) : Blind (World.Beside known) (this ref) := by
  refine .get_bind ?_ fun w => .pure _
  rintro w _ ⟨_, _, same⟩
  exact congrArg pure (same ref (.inr own))

theorem assign_blind (own : known ref) (f : WebsocketClient → WebsocketClient) :
    Blind (World.Beside known) (assign ref f) := by
  refine .modify ?_
  rintro w _ ⟨inserts, ids, same⟩
  have here := same ref (.inr own)
  refine .intro inserts (fun r => ?_) fun r own' => ?_
  · dsimp only [World.update]
    rw [here, Function.update_apply, Function.update_apply]
    split
    · rfl
    · exact ids r
  · dsimp only [World.update]
    rw [here, Function.update_apply, Function.update_apply]
    split
    · rfl
    · exact same r own'

theorem onHello_blind (own : known ref) : Blind (World.Beside known) (onHello json out ref) :=
  .bind (this_blind own) fun _ =>
    .get_bind (World.Beside.reads fun _ _ _ => rfl) fun _ => send_blind World.Beside.sends ref _

theorem hello_blind (own : known ref) (j : Json) :
    Blind (World.Beside known) (hello json out ref j) := by
  have added : Blind (World.Beside known) (do
      modify fun w => { w with pool := w.pool.add ref (w.objects ref) }
      assign ref fun c => { c with handshakeDone := true }
      onHello json out ref : Handling Unit) := by
    refine .bind (.modify ?_) fun _ => .bind (assign_blind own _) fun _ => onHello_blind own
    rintro w _ ⟨inserts, ids, same⟩
    dsimp only
    rw [same ref (.inr own)]
    refine .intro inserts ids ?_
    rintro r (inside | own')
    · rcases ClientPool.drones_add inside with before | rfl
      · exact same r (.inl before)
      · exact same r (.inr own)
    · exact same r (.inr own')
  refine .bind (attempt_blind _) fun ctype => .bind (assign_blind own _) fun _ => ?_
  split
  · refine .bind (attempt_blind _) fun droneName => .bind (assign_blind own _) fun _ => ?_
    exact .bind (attempt_blind _) fun serial => .bind (assign_blind own _) fun _ => added
  · exact added

theorem onData_blind (data : Bytes) : Blind (World.Beside known) (onData out data) :=
  .get_bind (World.Beside.reads fun _ _ _ => rfl) fun _ =>
    .forM _ fun c => send_blind World.Beside.sends c data

theorem onDroneList_blind : Blind (World.Beside known) (onDroneList json out ref) := by
  refine .get_bind ?_ fun w => send_blind World.Beside.sends ref _
  rintro w _ ⟨_, _, same⟩
  have shown := List.map_congr_left fun r inside => congrArg toJson (same r (.inl inside))
  dsimp only
  rw [shown]

/-- A client that is the same in both worlds has its message handled in the same way. -/
theorem handle_blind (json : JsonText) (out : Outside) (msg : Bytes) (own : known ref) :
    Blind (World.Beside known) (handle json out ref msg) := by
  refine Blind.caught (.bind parse_blind fun j => .bind (attempt_blind _) fun type =>
    .bind (this_blind own) fun c => ?_) fun e => ?_
  · split
    · exact hello_blind own j
    split
    · exact .bind FlightDataManager.handle_blind fun _ => onData_blind _
    split
    · exact onDroneList_blind
    · refine .bind FlightDataManager.handle_blind fun handled => ?_
      split
      · exact .pure _
      · exact kick_blind World.Beside.sends _ _ _
  · split
    · exact kick_blind World.Beside.sends _ _ _
    · exact .throw _

end WebsocketClient

end Client

namespace World

/-- The client of another connection. -/
def Elsewhere (w : World) (conn : ConnId) (ref : ClientRef) : Prop :=
  ∃ c ≠ conn, w.client c = some ref

variable {w v : World} {conn c : ConnId}

theorem Beside.hosting (beside : Beside (w.Elsewhere conn) w v) (f : Host → Host) :
    Beside (World.Elsewhere { w with host := f w.host } conn) { w with host := f w.host }
      { v with host := f v.host } := by
  obtain ⟨inserts, ids, same⟩ := beside
  exact .intro inserts ids same

theorem Beside.opening {id : ClientId} (beside : Beside (w.Elsewhere conn) w v) :
    Beside ((w.onOpen c id).Elsewhere conn) (w.onOpen c id) (v.onOpen c id) := by
  obtain ⟨inserts, ids, same⟩ := beside
  refine .intro inserts (fun r => ?_) fun r own => ?_
  · by_cases new : r = w.nextClient
    · simp [onOpen, new]
    · simp [onOpen, new, ids]
  · by_cases new : r = w.nextClient
    · simp [onOpen, new]
    · have before := same r (own.imp_right ?_)
      · simp [onOpen, new, before]
      rintro ⟨c', other, found⟩
      rcases onOpen_client.mp found with ⟨_, drawn⟩ | ⟨_, found⟩
      · exact absurd drawn new
      · exact ⟨c', other, found⟩

theorem Beside.looking (beside : Beside (w.Elsewhere conn) w v) :
    Beside ((w.looked c).Elsewhere conn) (w.looked c) (v.looked c) := by
  obtain ⟨inserts, ids, same⟩ := beside
  refine .intro inserts ids fun r own => same r (own.imp_right ?_)
  rintro ⟨c', other, found⟩
  exact ⟨c', other, looked_client.mp found⟩

theorem Beside.closing (beside : Beside (w.Elsewhere conn) w v) :
    Beside ((w.onClose c).Elsewhere conn) (w.onClose c) (v.onClose c) := by
  have fewer : ∀ r, (w.onClose c).Elsewhere conn r → w.Elsewhere conn r := by
    rintro r ⟨c', other, found⟩
    exact ⟨c', other, (onClose_client.mp found).2⟩
  refine Beside.mono ?_ fewer
  have client := Beside.reads (f := (World.client · c)) (fun _ _ _ => rfl) _ _ beside
  obtain ⟨inserts, ids, same⟩ := beside
  cases found : w.client c with
  | none =>
      rw [onClose_missing found, onClose_missing (client.trans found)]
      exact .intro inserts ids same
  | some ref =>
      rw [onClose_found found, onClose_found (client.trans found)]
      dsimp only
      rw [ClientPool.del_same (ids ref) fun drone => same ref (.inl drone)]
      exact .intro inserts ids fun r own => same r (own.imp_left ClientPool.drones_del)

end World

/-- The second process runs beside the first, and differs from it in the client of this connection
    only. -/
structure Process.Abreast (conn : ConnId) (p q : Process) : Prop where
  beside : p.world.Beside (p.world.Elsewhere conn) q.world
  terminated : q.terminated = p.terminated

namespace Process

variable {json : JsonText} {conn : ConnId} {p q : Process}

theorem Abreast.runs (abreast : p.Abreast conn q) : q.Runs ↔ p.Runs := by
  have host := World.Beside.reads (f := World.host) (fun _ _ _ => rfl) _ _ abreast.beside
  rw [Runs, Runs, abreast.terminated, host]

theorem Abreast.after {r r' : EStateM.Result Failure World Unit} {known : ClientRef → Prop}
    (both : Matches (World.Beside known) r r') (terminated : q.terminated = p.terminated) :
    (p.after r).world.Beside known (q.after r').world ∧
      (q.after r').terminated = (p.after r).terminated := by
  cases r <;> cases r'
  case ok.ok => exact ⟨both.2, terminated⟩
  case error.error =>
    obtain ⟨rfl, beside⟩ := both
    exact ⟨beside, rfl⟩
  case ok.error | error.ok => exact both.elim

/-- An event that is none of this connection's messages. -/
theorem Abreast.step (abreast : p.Abreast conn q) {h : Happening}
    (other : ∀ msg out, h ≠ .message conn msg out) :
    (p.step json h).Abreast conn (q.step json h) := by
  by_cases runs : p.Runs
  swap
  · rw [step_ended runs, step_ended (mt abreast.runs.mp runs)]
    exact abreast
  rw [step_runs runs, step_runs (abreast.runs.mpr runs)]
  obtain ⟨beside, terminated⟩ := abreast
  cases h with
  | rtmp l => exact ⟨beside.hosting fun host => host.step l, terminated⟩
  | opened c id => exact ⟨beside.opening, terminated⟩
  | message c msg out =>
      have elsewhere : c ≠ conn := fun here => other msg out (here ▸ rfl)
      have client := World.Beside.reads (f := (World.client · c)) (fun _ _ _ => rfl) _ _ beside
      simp only [perform, onMessage, client]
      cases found : p.world.client c with
      | none => exact ⟨beside.looking, terminated⟩
      | some ref =>
          have own : p.world.Elsewhere conn ref := ⟨c, elsewhere, found⟩
          have both := WebsocketClient.handle_blind json out msg own _ _ beside
          obtain ⟨after, terminated⟩ := Abreast.after both terminated
          refine ⟨after.mono ?_, terminated⟩
          have talked :
              p.world.Talked ref (p.after (WebsocketClient.handle json out ref msg _)).world :=
            after_keeps WebsocketClient.handle_talks
          rintro r ⟨c', other, there⟩
          rw [World.client, talked.clients] at there
          exact ⟨c', other, there⟩
  | closed c | failed c => exact ⟨beside.closing, terminated⟩

end Process

end DroneServer
