import DroneServer.Rtmp.Pipes
import DroneServer.Websocket.Keeping
import DroneServer.Websocket.Requests

/-! # Recorders and detectors on the pipes of their drones

The controllers keep the recorders and the detectors they made, the media manager
keeps the pipes, and each goes by the drone's id on its own. What a controller does
keeps them in step; a publisher that leaves takes the pipe away, whatever the
controllers still hold for its drone.
-/

namespace DroneServer

open Handling

namespace World

/-- A controller holds this writer for the drone, as its recorder or as its detector. -/
def Holds (w : World) (drone : ClientId) (v : WriterId) : Prop :=
  w.recorders drone = some v ∨ ∃ d, w.detectors drone = some d ∧ d.writer = v

/-- What is held for a drone is on the drone's pipe. -/
def Attached (w : World) : Prop := ∀ drone v, w.Holds drone v → v ∈ w.media.writers drone

/-- A controller holds a writer for the drone. -/
def Held (w : World) (drone : ClientId) : Prop :=
  (w.recorders drone).isSome ∨ (w.detectors drone).isSome

instance (w : World) (drone : ClientId) : Decidable (w.Held drone) :=
  inferInstanceAs (Decidable (_ ∨ _))

/-- What the two controllers and the media manager keep between them: a recorder that is stopped must
    not be the detector, and a writer that is made must be a new one. -/
structure Coherent (w : World) : Prop where
  registry : Registry w.host.server
  fed : w.host.server.Fed
  attached : w.Attached
  made : ∀ drone v, w.Holds drone v → v < w.nextWriter
  apart : ∀ drone d, w.detectors drone = some d → w.recorders drone ≠ some d.writer

theorem Holds.held {w : World} {drone : ClientId} {v : WriterId} (holds : w.Holds drone v) :
    w.Held drone := by
  rcases holds with recorder | ⟨d, detector, _⟩
  · exact .inl (Option.isSome_of_eq_some recorder)
  · exact .inr (Option.isSome_of_eq_some detector)

end World

section

variable {w : World} {drone c : ClientId} {v : WriterId} {d d' : VehicleDetector}

theorem RecorderController.start_recorders :
    (RecorderController.start w drone).recorders c = some v ↔
      (c = drone ∧ v = w.nextWriter) ∨ (c ≠ drone ∧ w.recorders c = some v) := by
  by_cases here : c = drone
  · subst here
    simp [RecorderController.start, eq_comm]
  · simp [RecorderController.start, here]

theorem RecorderController.stop_recorders {recorder : WriterId} :
    (RecorderController.stop w drone recorder).recorders c = some v ↔
      c ≠ drone ∧ w.recorders c = some v := by
  by_cases here : c = drone
  · subst here
    simp [RecorderController.stop]
  · simp [RecorderController.stop, here]

theorem VehicleDetectionController.put_detectors :
    (VehicleDetectionController.put w drone d).detectors c = some d' ↔
      (c = drone ∧ d' = d) ∨ (c ≠ drone ∧ w.detectors c = some d') := by
  by_cases here : c = drone
  · subst here
    simp [VehicleDetectionController.put, eq_comm]
  · simp [VehicleDetectionController.put, here]

end

namespace World

namespace Coherent

variable {w w' : World} {drone : ClientId}

theorem same (coherent : w.Coherent) (server : w'.host.server = w.host.server)
    (recorders : w'.recorders = w.recorders) (detectors : w'.detectors = w.detectors) :
    w'.Coherent := by
  have before : ∀ drone v, w'.Holds drone v → w.Holds drone v := by
    intro drone v holds
    rwa [Holds, recorders, detectors] at holds
  constructor
  case registry => exact server ▸ coherent.registry
  case fed => exact server ▸ coherent.fed
  case attached =>
    intro drone v holds
    rw [media, server]
    exact coherent.attached drone v (before drone v holds)
  case made =>
    intro drone v holds
    rw [nextWriter, server]
    exact coherent.made drone v (before drone v holds)
  case apart =>
    rw [recorders, detectors]
    exact coherent.apart

theorem note (coherent : w.Coherent) (effect : Effect) : (w.note effect).Coherent :=
  coherent.same rfl rfl rfl

theorem attach (coherent : w.Coherent) (host : w'.host = (w.attach drone).host)
    (held : ∀ c v, w'.Holds c v → (c = drone ∧ v = w.nextWriter) ∨ w.Holds c v)
    (apart : ∀ c d, w'.detectors c = some d → w'.recorders c ≠ some d.writer) : w'.Coherent := by
  constructor
  case registry =>
    rw [host]
    exact coherent.registry.same rfl rfl fun _ entered => entered
  case fed =>
    rw [host]
    exact coherent.fed
  case attached =>
    intro c v holds
    have pipes : w'.media = w.media.addWriter drone w.nextWriter := by
      rw [media, host]
      rfl
    rw [pipes]
    exact MediaManager.mem_addWriter.mpr ((held c v holds).imp_right (coherent.attached c v))
  case made =>
    intro c v holds
    have next : w'.nextWriter = w.nextWriter + 1 := by
      rw [nextWriter, host]
      rfl
    rw [next]
    rcases held c v holds with ⟨_, rfl⟩ | before
    · exact Nat.lt_succ_self _
    · exact Nat.lt_succ_of_lt (coherent.made c v before)
  case apart => exact apart

theorem start (coherent : w.Coherent) (drone : ClientId) :
    (RecorderController.start w drone).Coherent := by
  refine coherent.attach rfl ?_ fun c d detector recorder => ?_
  · rintro c v (recorder | detector)
    · exact (RecorderController.start_recorders.mp recorder).imp_right fun other => .inl other.2
    · exact .inr (.inr detector)
  · rcases RecorderController.start_recorders.mp recorder with ⟨_, new⟩ | ⟨_, recorder⟩
    · have old := coherent.made c d.writer (.inr ⟨d, detector, rfl⟩)
      exact absurd new (Nat.ne_of_lt old)
    · exact coherent.apart c d detector recorder

theorem stop (coherent : w.Coherent) {recorder : WriterId}
    (started : w.recorders drone = some recorder) :
    (RecorderController.stop w drone recorder).Coherent := by
  have left : ∀ c v, (RecorderController.stop w drone recorder).Holds c v →
      w.Holds c v ∧ (c = drone → v ≠ recorder) := by
    rintro c v (holds | ⟨d, detector, rfl⟩)
    · obtain ⟨other, holds⟩ := RecorderController.stop_recorders.mp holds
      exact ⟨.inl holds, fun here => absurd here other⟩
    · refine ⟨.inr ⟨d, detector, rfl⟩, ?_⟩
      rintro rfl rfl
      exact coherent.apart c d detector started
  constructor
  case registry => exact coherent.registry.same rfl rfl fun _ entered => entered
  case fed => exact coherent.fed
  case attached =>
    intro c v holds
    obtain ⟨before, other⟩ := left c v holds
    exact MediaManager.mem_delWriter.mpr ⟨coherent.attached c v before, other⟩
  case made => exact fun c v holds => coherent.made c v (left c v holds).1
  case apart =>
    intro c d detector holds
    exact coherent.apart c d detector (RecorderController.stop_recorders.mp holds).2

theorem set (coherent : w.Coherent) (drone : ClientId) (state : Bool) :
    (RecorderController.set w drone state).Coherent := by
  unfold RecorderController.set
  split
  · exact coherent.start drone
  · next started => exact coherent.stop started
  · exact coherent

theorem detect (coherent : w.Coherent) (drone : ClientId) :
    (VehicleDetectionController.put (w.attach drone) drone { writer := w.nextWriter }).Coherent := by
  refine coherent.attach rfl ?_ fun c d detector recorder => ?_
  · rintro c v (recorder | ⟨d, detector, rfl⟩)
    · exact .inr (.inl recorder)
    · rcases VehicleDetectionController.put_detectors.mp detector with ⟨here, rfl⟩ | ⟨_, before⟩
      · exact .inl ⟨here, rfl⟩
      · exact .inr (.inr ⟨d, before, rfl⟩)
  · rcases VehicleDetectionController.put_detectors.mp detector with ⟨_, rfl⟩ | ⟨_, before⟩
    · have old := coherent.made c w.nextWriter (.inl recorder)
      exact absurd old (Nat.lt_irrefl _)
    · exact coherent.apart c d before recorder

theorem put (coherent : w.Coherent) {d d' : VehicleDetector} (stored : w.detectors drone = some d)
    (same : d'.writer = d.writer) : (VehicleDetectionController.put w drone d').Coherent := by
  have before : ∀ c e, (VehicleDetectionController.put w drone d').detectors c = some e →
      ∃ e', w.detectors c = some e' ∧ e'.writer = e.writer := by
    intro c e detector
    rcases VehicleDetectionController.put_detectors.mp detector with ⟨rfl, rfl⟩ | ⟨_, before⟩
    · exact ⟨d, stored, same.symm⟩
    · exact ⟨e, before, rfl⟩
  have held : ∀ c v, (VehicleDetectionController.put w drone d').Holds c v → w.Holds c v := by
    rintro c v (recorder | ⟨e, detector, rfl⟩)
    · exact .inl recorder
    · exact .inr (before c e detector)
  constructor
  case registry => exact coherent.registry
  case fed => exact coherent.fed
  case attached => exact fun c v holds => coherent.attached c v (held c v holds)
  case made => exact fun c v holds => coherent.made c v (held c v holds)
  case apart =>
    intro c e detector recorder
    obtain ⟨e', stored, same⟩ := before c e detector
    exact coherent.apart c e' stored (same ▸ recorder)

/-- A step of the streaming side that takes no pipe from under a controller. -/
theorem step (coherent : w.Coherent) {l : Label}
    (stays : ∀ drone, w.Held drone → w.host.withdraws l ≠ some drone) :
    ({ w with host := w.host.step l } : World).Coherent := by
  have acts := w.host.step_acts_close l
  have later : w.nextWriter ≤ (w.host.step l).server.nextWriter :=
    Server.Acts.invariant (P := fun srv => w.nextWriter ≤ srv.nextWriter)
      (fun _ _ before act => before.trans act.nextWriter) acts (le_refl _)
  constructor
  case registry => exact Server.Acts.invariant (fun _ _ reg act => reg.act act) acts coherent.registry
  case fed => exact Server.Acts.invariant (fun _ _ fed act => fed.act act) acts coherent.fed
  case attached =>
    intro drone v holds
    have before : w.Holds drone v := holds
    refine w.host.step_retains coherent.registry coherent.fed l (stays drone before.held) v ?_
    exact coherent.attached drone v before
  case made => exact fun drone v holds => (coherent.made drone v holds).trans_le later
  case apart => exact coherent.apart

end Coherent

end World

section

variable {α : Type} (json : JsonText) (out : Outside) (cid : ClientId) (msg : Bytes)

/-- The computation keeps the controllers and the pipes in step. -/
abbrev Handling.Coherent (m : Handling α) : Prop := Keeps World.Coherent m

theorem VehicleDetectionController.set_writer (d : VehicleDetector) (state : Bool) :
    (VehicleDetectionController.set d cid state).writer = d.writer := by
  unfold VehicleDetectionController.set VehicleDetector.add VehicleDetector.del
  split
  · split <;> rfl
  split <;> rfl

theorem World.Coherent.handlers : HandlersKeep World.Coherent cid where
  note effect coherent := coherent.note effect
  record drone state coherent := coherent.set drone state
  detect drone coherent := coherent.detect drone
  watch state coherent stored :=
    coherent.put stored (VehicleDetectionController.set_writer cid _ state)
  save coherent := coherent.same rfl rfl rfl
  unsave _ coherent := coherent.same rfl rfl rfl

namespace WebsocketClient

theorem assign_keeps (ref : ClientRef) (f : WebsocketClient → WebsocketClient) :
    (assign ref f).Coherent := .modify fun _ coherent => coherent.same rfl rfl rfl

theorem hello_keeps (ref : ClientRef) (j : Json) : (hello json out ref j).Coherent := by
  have added : (do
      modify fun w => { w with pool := w.pool.add ref (w.objects ref) }
      assign ref fun c => { c with handshakeDone := true }
      onHello json out ref : Handling Unit).Coherent :=
    .bind (.modify fun _ coherent => coherent.same rfl rfl rfl) fun _ =>
      .bind (assign_keeps ref _) fun _ =>
        onHello_keeps (fun _ effect _ coherent => coherent.note effect) ref
  refine .bind (attempt_keeps _) fun ctype => .bind (assign_keeps ref _) fun _ => ?_
  split
  · refine .bind (attempt_keeps _) fun droneName => .bind (assign_keeps ref _) fun _ => ?_
    exact .bind (attempt_keeps _) fun serial => .bind (assign_keeps ref _) fun _ => added
  · exact added

theorem handle_keeps (ref : ClientRef) : (handle json out ref msg).Coherent := fun _ coherent =>
  handle_leads coherent (fun _ kept => kept) (fun _ effect _ coherent => coherent.note effect)
    (fun _ effect _ coherent => coherent.note effect)
    (fun _ _ => FlightDataManager.handle_keeps (World.Coherent.handlers _))
    fun j _ _ _ _ _ => hello_keeps json out ref j _ coherent

end WebsocketClient

end

namespace Process

/-- The step takes the pipe of a drone for which a controller holds a writer. -/
def Loses (p : Process) : Happening → Prop
  | .rtmp l => p.terminated = none ∧ ∃ drone ∈ p.world.host.withdraws l, p.world.Held drone
  | _ => False

instance (p : Process) (h : Happening) : Decidable (p.Loses h) := by
  unfold Loses
  split <;> infer_instance

variable {json : JsonText} {p : Process}

theorem step_coherent (coherent : p.world.Coherent) (h : Happening) (stays : ¬ p.Loses h) :
    (p.step json h).world.Coherent := by
  unfold step
  split
  · next running =>
      cases h with
      | rtmp l =>
          refine coherent.step fun drone held withdraws => stays ⟨running.1, drone, withdraws, held⟩
      | opened conn id => exact coherent.same rfl rfl rfl
      | message conn msg out =>
          simp only [perform, onMessage]
          split
          · next ref _ =>
              exact after_keeps (WebsocketClient.handle_keeps json out msg ref _ coherent)
          · exact coherent.same rfl rfl rfl
      | closed conn | failed conn =>
          simp only [perform, World.onClose]
          split <;> exact coherent.same rfl rfl rfl
  · exact coherent

end Process

theorem web_coherent (json : JsonText) (setup : Setup) : (web json setup).start.world.Coherent where
  registry := .empty
  fed _ _ none := by cases none
  attached _ _ holds := by rcases holds with none | ⟨_, none, _⟩ <;> cases none
  made _ _ holds := by rcases holds with none | ⟨_, none, _⟩ <;> cases none
  apart _ _ none := by cases none

/-- As long as no publisher gives up its stream while a controller holds a writer for its drone, every
    recorder and every detector is on the pipe of its drone, whatever the clients ask for and in which
    order. -/
theorem writers_stay_attached (json : JsonText) (setup : Setup) (labels : List Happening)
    (stays : (web json setup).Steps (fun p h => ¬ p.Loses h) labels) :
    (web json setup).Always (fun p => p.world.Attached) labels := by
  have coherent := stays.always (I := fun p => p.world.Coherent) (web_coherent json setup)
    fun p h _ coherent stays => Process.step_coherent coherent h stays
  exact fun done before => (coherent done before).attached

/-- A session publishes for drone 1, and an operator turns its recording on. -/
def recordedDrone : List Happening :=
  (Peer.enter 1 "live" ++ Peer.deliver 1 (Peer.publish "1" "live")).map .rtmp ++
    [.opened 0 7, .message 0 (Requests.print Requests.helloOperator) {},
      .message 0 (Requests.print (Requests.set "media_record_set" "1" true)) {}]

/-- A viewer comes and goes, and the recording is turned off before the publisher leaves. -/
def recordedInTime : List Happening :=
  recordedDrone ++
    (Peer.enter 2 "live" ++ Peer.deliver 2 (Peer.named "play" "1") ++ [Label.close 2]).map .rtmp ++
    [.message 0 (Requests.print (Requests.set "media_record_set" "1" false)) {}, .rtmp (.close 1)]

/-- The library, for what the operator sends. -/
def recordingLibrary : JsonText :=
  Requests.library [Requests.helloOperator, Requests.set "media_record_set" "1" true,
    Requests.set "media_record_set" "1" false]

set_option maxRecDepth 4000 in
theorem writers_stay_attached_recordedInTime :
    (web recordingLibrary {}).Always (fun p => p.world.Attached) recordedInTime := by
  refine writers_stay_attached recordingLibrary {} recordedInTime (Machine.Checks.steps ?_)
  decide +kernel

set_option maxRecDepth 4000 in
/-- The publisher leaves while the recording is on: the recorder is still held, and on no pipe. -/
theorem recorder_lost_with_publisher :
    ¬ ∀ (json : JsonText) (setup : Setup) (labels : List Happening),
      (web json setup).Always (fun p => p.world.Attached) labels := by
  intro all
  have attached := all recordingLibrary {} (recordedDrone ++ [.rtmp (.close 1)]) _ (List.prefix_refl _)
  obtain ⟨held, gone⟩ :
      ((web recordingLibrary {}).run
        (recordedDrone ++ [.rtmp (.close 1)])).world.recorders 1 = some 0 ∧
      0 ∉ ((web recordingLibrary {}).run
        (recordedDrone ++ [.rtmp (.close 1)])).world.media.writers 1 := by
    decide +kernel
  exact gone (attached 1 0 (.inl held))

end DroneServer
