import DroneServer.Websocket.Endpoint

/-! # Which messages a client's thread survives

An exception that no clause catches, or a call through a null pointer, ends the
process. For each handler, what it withstands is said in terms of the message, the
pool and what the libraries answer: the drone's id has to fit `unsigned long`, an
entry of the pool may not be null where it is used, and what throws in sending,
closing, inserting or loading may not throw. The theorem at the end puts the
handlers together with the branches of `handle`.
-/

namespace DroneServer

open Handling

namespace Json

/-- The type of the message is this text. -/
def Asks (j : Json) (type : String) : Prop := ∃ t, j.field "type" = .ok t ∧ t.Is type

/-- The member that names the drone is a string. -/
def HasDrone (j : Json) : Prop := ∃ hex, j.droneHex = .ok hex

/-- `stoul` can represent the digits of the drone's id, if there is a string to read. -/
def DroneFits (j : Json) : Prop := ∀ hex, j.droneHex = .ok hex → hexValue 0 hex < 2 ^ 64

def HasState (j : Json) : Prop := ∃ state, j.droneState = .ok state

theorem asks_iff {j type : Json} (typed : j.field "type" = .ok type) (text : String) :
    j.Asks text ↔ type.Is text := by
  constructor
  · rintro ⟨t, read, is⟩
    rw [typed] at read
    cases read
    exact is
  · exact fun is => ⟨type, typed, is⟩

/-- A `json::exception` is all that reading this can throw. -/
def Plain {α : Type} (read : Except Failure α) : Prop := ∀ e, read = .error e → e = .json

theorem plain_bind {α β : Type} {read : Except Failure α} {next : α → Except Failure β}
    (first : Plain read) (later : ∀ a, Plain (next a)) : Plain (read >>= next) := by
  intro e failed
  cases read with
  | error e' =>
      cases failed
      exact first _ rfl
  | ok a => exact later a e failed

theorem plain_ok {α : Type} (a : α) : Plain (.ok a) := fun _ failed => by cases failed

theorem field_plain (j : Json) (key : String) : Plain (j.field key) := fun _ => field_error

theorem getString_plain (j : Json) : Plain j.getString := by
  intro e failed
  cases j <;> cases failed <;> rfl

theorem getBool_plain (j : Json) : Plain j.getBool := by
  intro e failed
  cases j <;> cases failed <;> rfl

theorem getInt_plain (j : Json) : Plain j.getInt := by
  intro e failed
  cases j <;> cases failed <;> rfl

theorem field₂_plain (j : Json) (outer inner : String) : Plain (j.field₂ outer inner) :=
  plain_bind (field_plain j outer) fun value => field_plain value inner

theorem dataString_plain (j : Json) (key : String) : Plain (j.dataString key) :=
  plain_bind (field₂_plain j _ _) getString_plain

theorem ctype_plain (j : Json) : Plain j.ctype :=
  plain_bind (field₂_plain j _ _) getInt_plain

theorem droneState_plain (j : Json) : Plain j.droneState :=
  plain_bind (field₂_plain j _ _) getBool_plain

theorem plain_mapM {α β : Type} {read : α → Except Failure β} (each : ∀ a, Plain (read a))
    (as : List α) : Plain (as.mapM read) := by
  induction as with
  | nil => exact plain_ok []
  | cons a as ih =>
      rw [List.mapM_cons]
      exact plain_bind (each a) fun b => plain_bind ih fun bs => plain_ok (b :: bs)

theorem saveState_plain (j : Json) : Plain j.saveState :=
  plain_bind (field_plain j _) getBool_plain

/-- What reading the drone's id comes to: there is no string, it does not fit, or there is an id. -/
inductive DroneRead (j : Json) : Except Failure ClientId → Prop where
  | missing (none : ¬ j.HasDrone) : DroneRead j (.error .json)
  | unfit {hex : Bytes} (named : j.droneHex = .ok hex) (far : ¬ hexValue 0 hex < 2 ^ 64) :
      DroneRead j (.error .outOfRange)
  | found {drone : ClientId} (named : j.HasDrone) (fits : j.DroneFits) : DroneRead j (.ok drone)

theorem droneId_read (j : Json) : DroneRead j j.droneId := by
  unfold droneId
  cases read : j.droneHex with
  | error e =>
      obtain rfl := dataString_plain j _ e read
      refine .missing ?_
      rintro ⟨hex, named⟩
      rw [read] at named
      cases named
  | ok hex =>
      simp only [bind, Except.bind, cidFromHex]
      by_cases fits : hexValue 0 hex < 2 ^ 64
      · simp only [if_pos fits]
        refine .found ⟨hex, read⟩ fun hex' again => ?_
        rw [read] at again
        cases again
        exact fits
      · simp only [if_neg fits]
        exact .unfit read fits

end Json

/-- What a handler leaves alone: the connections, the pool and what the other controllers hold. -/
structure StringHandler.Leaves (h : StringHandler) (w w' : World) : Prop where
  clients : w'.clients = w.clients
  pool : w'.pool = w.pool
  detectors : h ≠ .vehicleDetectionController → w'.detectors = w.detectors
  fdPtr : h ≠ .flightDatabaseController → w'.fdPtr = w.fdPtr

theorem World.Noted.leaves {w w' : World} (noted : w.Noted w') (h : StringHandler) :
    h.Leaves w w' := by
  obtain ⟨_, rfl⟩ := noted
  exact ⟨rfl, rfl, fun _ => rfl, fun _ => rfl⟩

section Leaves

variable {h : StringHandler} {w w' w'' : World}

theorem StringHandler.Leaves.noted (leaves : h.Leaves w w') (noted : w'.Noted w'') :
    h.Leaves w w'' := by
  obtain ⟨_, rfl⟩ := noted
  exact ⟨leaves.clients, leaves.pool, leaves.detectors, leaves.fdPtr⟩

theorem StringHandler.Leaves.answerable (leaves : h.Leaves w w') {out : Outside} {cid : ClientId} :
    w'.Answerable out cid ↔ w.Answerable out cid := by
  simp only [World.Answerable, World.Deliverable, World.Closable, leaves.clients, leaves.pool]

theorem StringHandler.Leaves.answerableIfCounted (leaves : h.Leaves w w') {out : Outside}
    {cid : ClientId} : w'.AnswerableIfCounted out cid ↔ w.AnswerableIfCounted out cid := by
  simp only [World.AnswerableIfCounted, leaves.answerable, leaves.pool]

end Leaves

namespace Handling

variable {α : Type} {w : World} {Q : α → World → Prop} {E : Failure → World → Prop}

theorem attempt_ends {read : Except Failure α} (only : Json.Plain read) (found : ∀ a, read = .ok a → Q a w)
    (failed : (∀ a, read ≠ .ok a) → E .json w) : Ends (attempt read) w Q E := by
  cases read with
  | ok a => exact found a rfl
  | error e =>
      obtain rfl := only e rfl
      exact failed fun _ same => by cases same

theorem droneId_ends {j : Json} {Q : ClientId → World → Prop} (missing : ¬ j.HasDrone → j.DroneFits → E .json w)
    (unfit : ¬ j.DroneFits → E .outOfRange w)
    (found : ∀ drone, j.droneId = .ok drone → j.HasDrone → j.DroneFits → Q drone w) :
    Ends (attempt j.droneId) w Q E := by
  have read := j.droneId_read
  generalize j.droneId = id at read found ⊢
  cases read with
  | missing none => exact missing none fun hex named => absurd ⟨hex, named⟩ none
  | unfit named far => exact unfit fun fits => far (fits _ named)
  | found named fits => exact found _ rfl named fits

variable {json : JsonText} {msg : Bytes} {S H : Json → Prop} {L : World → Prop}

/-- How every handler starts: the text is parsed and its type looked up. What surviving takes and
    what is handled are said of the value; a text that is no value, or has no type, takes nothing. -/
theorem read_ends {k : Json → Json → Handling Bool} {X : Prop → Prop → Failure → World → Prop}
    (thrown : ∀ S H : Prop, S → ¬ H → X S H .json w)
    (untyped : ∀ j, (∀ text, ¬ j.Asks text) → S j ∧ ¬ H j)
    (typed : ∀ j type, j.field "type" = .ok type →
      Ends (k j type) w (fun handled w' => (S j ∧ (handled = true ↔ H j)) ∧ L w')
        (X (S j) (H j))) :
    Ends (do
        let j ← parse json msg
        let type ← attempt (j.field "type")
        k j type) w
      (fun handled w' => ((∀ j, json.parse msg = some j → S j) ∧
        (handled = true ↔ ∃ j, json.parse msg = some j ∧ H j)) ∧ L w')
      (X (∀ j, json.parse msg = some j → S j) (∃ j, json.parse msg = some j ∧ H j)) := by
  rw [Ends.bind_iff, parse]
  cases json.parse msg with
  | none =>
      refine thrown _ _ (fun j none => by cases none) ?_
      rintro ⟨j, none, _⟩
      cases none
  | some j =>
      simp only [Option.some.injEq, forall_eq', exists_eq_left', Ends.pure_iff]
      refine Ends.bind_iff.mpr (attempt_ends (Json.field_plain j _) (typed j) fun failed => ?_)
      have silent : ∀ text, ¬ j.Asks text := by
        rintro text ⟨t, found, _⟩
        exact failed t found
      obtain ⟨withstands, unhandled⟩ := untyped j silent
      exact thrown _ _ withstands unhandled

end Handling

/-- Run in `w`, a handler throws exactly without what surviving takes, and never a `json::exception`;
    it returns whether the message was one it handles. -/
def Judged (m : Handling Bool) (w : World) (survives handles : Prop) (leaves : World → Prop) :
    Prop :=
  Ends m w (fun handled w' => (survives ∧ (handled = true ↔ handles)) ∧ leaves w')
    fun e _ => e ≠ .json ∧ ¬ survives

/-- What can be thrown below the clause for `json::exception`: that, before anything was done, or
    what nobody catches. -/
def Passed (w : World) (survives handles : Prop) (e : Failure) (w' : World) : Prop :=
  (e = .json ∧ w' = w ∧ survives ∧ ¬ handles) ∨ (e ≠ .json ∧ ¬ survives)

theorem unlessJson_judged {body : Handling Bool} {w : World} {survives handles : Prop}
    {leaves : World → Prop} (start : leaves w)
    (ends : Ends body w (fun handled w' => (survives ∧ (handled = true ↔ handles)) ∧ leaves w')
      (Passed w survives handles)) :
    Judged (unlessJson body) w survives handles leaves := by
  refine Ends.catch_iff.mpr (ends.mono (fun _ _ => id) ?_)
  rintro e w' (⟨rfl, rfl, holds, unhandled⟩ | ⟨other, fails⟩)
  · rw [if_pos rfl]
    exact ⟨⟨holds, by simp [unhandled]⟩, start⟩
  · rw [if_neg other]
    exact ⟨other, fails⟩

section

variable {h : StringHandler} {w w' : World} {survives handles answered handled : Prop} {j : Json}
  {L : World → Prop}

theorem replied_ends (leaves : h.Leaves w w') {reply : Handling Unit}
    {X : Failure → World → Prop}
    (sent : Ends reply w' (fun _ w'' => w'.Noted w'' ∧ answered)
      fun e w'' => (e ≠ .json ∧ X e w'') ∧ ¬ answered)
    (same : survives ↔ answered) (holds : handles) :
    Ends (do reply; pure true) w'
      (fun handled w'' => (survives ∧ (handled = true ↔ handles)) ∧ h.Leaves w w'')
      (Passed w survives handles) := by
  refine sent.bind ?_ ?_
  · rintro _ w'' ⟨noted, answered⟩
    exact ⟨⟨same.mpr answered, by simp only [holds]⟩, leaves.noted noted⟩
  · rintro e w'' ⟨⟨other, _⟩, stuck⟩
    exact .inr ⟨other, fun holds => stuck (same.mp holds)⟩

theorem named_ends {k : ClientId → Handling Bool}
    (survive : survives ↔ j.DroneFits ∧ (j.HasDrone → answered))
    (handle : handles ↔ j.HasDrone ∧ handled)
    (rest : ∀ drone, j.droneId = .ok drone →
      Ends (k drone) w (fun done w' => (answered ∧ (done = true ↔ handled)) ∧ L w')
        (Passed w answered handled)) :
    Ends (do let drone ← attempt j.droneId; k drone) w
      (fun done w' => (survives ∧ (done = true ↔ handles)) ∧ L w')
      (Passed w survives handles) := by
  refine Ends.bind_iff.mpr (droneId_ends ?_ ?_ fun drone found named fits => ?_)
  · intro missing fits
    exact .inl ⟨rfl, rfl, survive.mpr ⟨fits, fun named => absurd named missing⟩,
      fun holds => missing (handle.mp holds).1⟩
  · exact fun unfit => .inr ⟨by decide, fun holds => unfit (survive.mp holds).1⟩
  · refine (rest drone found).mono ?_ ?_
    · rintro done w' ⟨⟨holds, same⟩, leaves⟩
      refine ⟨⟨survive.mpr ⟨fits, fun _ => holds⟩, ?_⟩, leaves⟩
      rw [same, handle, and_iff_right named]
    · rintro e w' (⟨rfl, rfl, holds, unhandled⟩ | ⟨other, fails⟩)
      · exact .inl ⟨rfl, rfl, survive.mpr ⟨fits, fun _ => holds⟩,
          fun holds => unhandled (handle.mp holds).2⟩
      · exact .inr ⟨other, fun holds => fails ((survive.mp holds).2 named)⟩

theorem stated_ends {k : Bool → Handling Bool} (survive : survives ↔ (j.HasState → answered))
    (rest : ∀ state, j.droneState = .ok state →
      Ends (k state) w (fun done w' => (answered ∧ (done = true ↔ True)) ∧ L w')
        (Passed w answered True)) :
    Ends (do let state ← attempt j.droneState; k state) w
      (fun done w' => (survives ∧ (done = true ↔ j.HasState)) ∧ L w')
      (Passed w survives j.HasState) := by
  refine Ends.bind_iff.mpr (attempt_ends j.droneState_plain (fun state found => ?_) fun failed => ?_)
  · have stated : j.HasState := ⟨state, found⟩
    refine (rest state found).mono ?_ ?_
    · rintro done w' ⟨⟨holds, same⟩, leaves⟩
      exact ⟨⟨survive.mpr fun _ => holds, same.trans (iff_of_true trivial stated)⟩, leaves⟩
    · rintro e w' (⟨_, _, _, unhandled⟩ | ⟨other, fails⟩)
      · exact absurd trivial unhandled
      · exact .inr ⟨other, fun holds => fails (survive.mp holds stated)⟩
  · have none : ¬ j.HasState := fun ⟨state, found⟩ => failed state found
    exact .inl ⟨rfl, rfl, survive.mpr fun stated => absurd stated none, none⟩

theorem unknown_ends (survive : survives ↔ True) (handle : handles ↔ False) (start : L w) :
    Ends (pure false : Handling Bool) w
      (fun done w' => (survives ∧ (done = true ↔ handles)) ∧ L w') (Passed w survives handles) :=
  ⟨⟨survive.mpr trivial, by simp only [handle, Bool.false_eq_true]⟩, start⟩

end

namespace RecorderController

/-- What the recorder's controller withstands. -/
def Withstands (w : World) (out : Outside) (cid : ClientId) (j : Json) : Prop :=
  (j.Asks "media_record_get" →
    j.DroneFits ∧ (j.HasDrone → w.AnswerableIfCounted out cid)) ∧
  (j.Asks "media_record_set" →
    j.DroneFits ∧ (j.HasDrone → j.HasState → w.Answerable out cid))

def Handles (j : Json) : Prop :=
  j.Asks "media_record_get" ∧ j.HasDrone ∨
    j.Asks "media_record_set" ∧ j.HasDrone ∧ j.HasState

theorem set_leaves (w : World) (drone : ClientId) (state : Bool) :
    StringHandler.recorderController.Leaves w (set w drone state) := by
  unfold set
  split <;> exact ⟨rfl, rfl, fun _ => rfl, fun _ => rfl⟩

theorem judged (json : JsonText) (out : Outside) (cid : ClientId) (msg : Bytes) (w : World) :
    Judged (handleString json out cid msg) w (∀ j, json.parse msg = some j → Withstands w out cid j)
      (∃ j, json.parse msg = some j ∧ Handles j) (StringHandler.recorderController.Leaves w) := by
  refine unlessJson_judged ((World.Noted.refl w).leaves _) (read_ends ?_ ?_ ?_)
  · exact fun _ _ holds unhandled => .inl ⟨rfl, rfl, holds, unhandled⟩
  · intro j none
    simp only [Withstands, Handles, none, false_implies, and_self, false_and, or_self, not_false_eq_true]
  intro j type typed
  have get := Json.asks_iff typed "media_record_get"
  have set := Json.asks_iff typed "media_record_set"
  simp only [Withstands, Handles, get, set]
  split
  · next asks =>
      have other : ¬ type.Is "media_record_set" := asks.other (by decide)
      simp only [asks, other, true_implies, false_implies, and_true, true_and, false_and, or_false]
      refine named_ends .rfl (iff_of_eq (and_true _)).symm fun drone _ => ?_
      refine Ends.bind_iff.mpr (Ends.get_iff.mpr ?_)
      exact replied_ends ((World.Noted.refl w).leaves _) (answerCounted_ends out cid _ w) .rfl trivial
  split
  · next other asks =>
      simp only [asks, other, true_implies, false_implies, true_and, false_and, false_or]
      refine named_ends .rfl .rfl fun drone _ => stated_ends .rfl fun state _ => ?_
      refine Ends.bind_iff.mpr (Ends.modify_iff.mpr ?_)
      have leaves := set_leaves w drone state
      exact replied_ends leaves (answer_ends out cid _ _) leaves.answerable.symm trivial
  · next neither other =>
      exact unknown_ends (by simp [neither, other]) (by simp [neither, other])
        ((World.Noted.refl w).leaves _)

end RecorderController

namespace VehicleDetectionController

/-- The drone has a detector, or one can be made. -/
def CanDetect (w : World) (out : Outside) (j : Json) : Prop :=
  ∀ drone, j.droneId = .ok drone → w.detectors drone = none → out.classifierThrows = false

/-- What the vehicle detection's controller withstands. -/
def Withstands (w : World) (out : Outside) (cid : ClientId) (j : Json) : Prop :=
  (j.Asks "vehicle_detection_get" →
    j.DroneFits ∧ (j.HasDrone → w.AnswerableIfCounted out cid)) ∧
  (j.Asks "vehicle_detection_set" →
    j.DroneFits ∧ (j.HasDrone → j.HasState →
      CanDetect w out j ∧ w.AnswerableIfCounted out cid))

def Handles (j : Json) : Prop :=
  j.Asks "vehicle_detection_get" ∧ j.HasDrone ∨
    j.Asks "vehicle_detection_set" ∧ j.HasDrone ∧ j.HasState

theorem detector_ends (out : Outside) (drone : ClientId) (w : World) :
    Ends (detector out drone) w
      (fun _ w' => StringHandler.vehicleDetectionController.Leaves w w' ∧
        (w.detectors drone = none → out.classifierThrows = false))
      fun e _ => e = .classifier ∧ w.detectors drone = none ∧ out.classifierThrows = true := by
  refine Ends.bind_iff.mpr (Ends.get_iff.mpr ?_)
  split
  · next found =>
      refine ⟨(World.Noted.refl w).leaves _, fun none => ?_⟩
      rw [found] at none
      cases none
  · next none =>
      split
      · next throws => exact ⟨rfl, none, throws⟩
      · next fine =>
          refine ⟨⟨rfl, rfl, fun other => absurd rfl other, fun _ => rfl⟩, fun _ => ?_⟩
          exact Bool.eq_false_iff.mpr fine

theorem judged (json : JsonText) (out : Outside) (cid : ClientId) (msg : Bytes) (w : World) :
    Judged (handleString json out cid msg) w (∀ j, json.parse msg = some j → Withstands w out cid j)
      (∃ j, json.parse msg = some j ∧ Handles j)
      (StringHandler.vehicleDetectionController.Leaves w) := by
  refine unlessJson_judged ((World.Noted.refl w).leaves _) (read_ends ?_ ?_ ?_)
  · exact fun _ _ holds unhandled => .inl ⟨rfl, rfl, holds, unhandled⟩
  · intro j none
    simp [Withstands, Handles, none]
  intro j type typed
  have get := Json.asks_iff typed "vehicle_detection_get"
  have set := Json.asks_iff typed "vehicle_detection_set"
  simp only [Withstands, Handles, get, set]
  split
  · next asks =>
      have other : ¬ type.Is "vehicle_detection_set" := asks.other (by decide)
      simp only [asks, other, true_implies, false_implies, and_true, true_and, false_and, or_false]
      refine named_ends .rfl (iff_of_eq (and_true _)).symm fun drone _ => ?_
      refine Ends.bind_iff.mpr (Ends.get_iff.mpr ?_)
      exact replied_ends ((World.Noted.refl w).leaves _) (answerCounted_ends out cid _ w) .rfl trivial
  split
  · next other asks =>
      simp only [asks, other, true_implies, false_implies, true_and, false_and, false_or]
      refine named_ends .rfl .rfl fun drone found => stated_ends .rfl fun state _ => ?_
      have detects : CanDetect w out j ↔
          (w.detectors drone = none → out.classifierThrows = false) := by
        simp only [CanDetect, found, Except.ok.injEq, forall_eq']
      refine (detector_ends out drone w).bind ?_ ?_
      · rintro d w' ⟨leaves, fine⟩
        refine Ends.bind_iff.mpr (Ends.modify_iff.mpr ?_)
        have leaves' : StringHandler.vehicleDetectionController.Leaves w
            (put w' drone (VehicleDetectionController.set d cid state)) :=
          ⟨leaves.clients, leaves.pool, fun other => absurd rfl other, leaves.fdPtr⟩
        refine replied_ends leaves' (answerCounted_ends out cid _ _) ?_ trivial
        rw [leaves'.answerableIfCounted, detects]
        exact and_iff_right fine
      · rintro e w' ⟨rfl, none, throws⟩
        refine .inr ⟨by decide, fun holds => ?_⟩
        rw [detects.mp holds.1 none] at throws
        cases throws
  · next neither other =>
      exact unknown_ends (by simp [neither, other]) (by simp [neither, other])
        ((World.Noted.refl w).leaves _)

end VehicleDetectionController

namespace FlightDatabase

/-- What a database withstands: it has to take the row, if the message has all a row needs. -/
def Withstands (json : JsonText) (out : Outside) (db : DatabaseRef) (j : Json) : Prop :=
  j.Asks "data_broadcast" → ∀ ins, statement json j = .ok ins → out.insertThrows db = false

def Handles (json : JsonText) (j : Json) : Prop :=
  j.Asks "data_broadcast" ∧ ∃ ins, statement json j = .ok ins

theorem statement_plain (json : JsonText) (j : Json) : Json.Plain (statement json j) := by
  refine Json.plain_bind (Json.dataString_plain j _) fun clientId => ?_
  refine Json.plain_bind (Json.field₂_plain j _ _) fun altitude => ?_
  refine Json.plain_bind (Json.plain_mapM (fun column => ?_) columns) fun values => ?_
  · exact Json.plain_bind (Json.field₂_plain j _ _) fun group => Json.field_plain group column.2
  exact Json.plain_bind (Json.dataString_plain j _) fun timestamp => Json.plain_ok _

theorem judged (json : JsonText) (out : Outside) (db : DatabaseRef) (msg : Bytes) (w : World) :
    Judged (handleString json out db msg) w
      (∀ j, json.parse msg = some j → Withstands json out db j)
      (∃ j, json.parse msg = some j ∧ Handles json j)
      ((StringHandler.flightDatabase db).Leaves w) := by
  refine unlessJson_judged ((World.Noted.refl w).leaves _) (read_ends ?_ ?_ ?_)
  · exact fun _ _ holds unhandled => .inl ⟨rfl, rfl, holds, unhandled⟩
  · intro j none
    simp [Withstands, Handles, none]
  intro j type typed
  have broadcast := Json.asks_iff typed "data_broadcast"
  simp only [Withstands, Handles, broadcast]
  split
  · next asks =>
      simp only [asks, true_implies, true_and]
      refine Ends.bind_iff.mpr (attempt_ends (statement_plain json j) (fun ins built => ?_) ?_)
      · simp only [built, Except.ok.injEq, forall_eq', exists_eq', iff_true]
        split
        · next throws =>
            refine .inr ⟨by decide, fun fine => ?_⟩
            rw [fine] at throws
            cases throws
        · next fine =>
            have noted : w.Noted (w.note (.inserted db ins)) := ⟨_, rfl⟩
            exact ⟨⟨Bool.eq_false_iff.mpr fine, rfl⟩, noted.leaves _⟩
      · intro failed
        exact .inl ⟨rfl, rfl, fun ins built => absurd built (failed ins),
          fun ⟨ins, built⟩ => failed ins built⟩
  · next other =>
      exact unknown_ends (by simp [other]) (by simp [other]) ((World.Noted.refl w).leaves _)

end FlightDatabase

namespace FlightDatabaseController

/-- The message asks for the state that is not there, and a database can be connected to if it is to
    be turned on. -/
def Switches (w : World) (out : Outside) (j : Json) : Prop :=
  ∃ state, j.saveState = .ok state ∧ w.fdPtr.isSome ≠ state ∧
    (state = true → out.connectThrows = false)

/-- What the flight database's controller withstands: all but a null entry, where it answers. -/
def Withstands (w : World) (out : Outside) (cid : ClientId) (j : Json) : Prop :=
  (j.Asks "flight_data_save_get" → w.pool.clientIds cid ≠ some none) ∧
  (j.Asks "flight_data_save_set" → Switches w out j → w.pool.clientIds cid ≠ some none)

def Handles (w : World) (j : Json) : Prop :=
  j.Asks "flight_data_save_get" ∨
    j.Asks "flight_data_save_set" ∧ ∃ state, j.saveState = .ok state ∧ w.fdPtr.isSome ≠ state

/-- What can be thrown below the two clauses. -/
def Passed (w : World) (survives handles : Prop) (e : Failure) (w' : World) : Prop :=
  (e = .json ∧ w' = w ∧ survives ∧ ¬ handles) ∨ (e = .nullDereference ∧ ¬ survives) ∨
    ((e ≠ .json ∧ e ≠ .nullDereference) ∧ survives ∧ handles ∧
      StringHandler.flightDatabaseController.Leaves w w')

theorem replied_ends {w w' : World} {cid : ClientId} {survives handles answered : Prop}
    (leaves : StringHandler.flightDatabaseController.Leaves w w') {reply : Handling Unit}
    (sent : Ends reply w' (fun _ w'' => w'.Noted w'' ∧ answered)
      fun e w'' => (e ≠ .json ∧ w'.Noted w'' ∧
        (e = .nullDereference ↔ w'.pool.clientIds cid = some none)) ∧ ¬ answered)
    (there : answered → w'.pool.clientIds cid ≠ some none)
    (same : survives ↔ w.pool.clientIds cid ≠ some none) (holds : handles) :
    Ends (do reply; pure true) w'
      (fun handled w'' => (survives ∧ (handled = true ↔ handles)) ∧
        StringHandler.flightDatabaseController.Leaves w w'')
      (Passed w survives handles) := by
  rw [← leaves.pool] at same
  refine sent.bind ?_ ?_
  · rintro _ w'' ⟨noted, answered⟩
    exact ⟨⟨same.mpr (there answered), by simp only [holds]⟩, leaves.noted noted⟩
  · rintro e w'' ⟨⟨other, noted, null⟩, _⟩
    by_cases dereferenced : e = .nullDereference
    · exact .inr (.inl ⟨dereferenced, fun alive => same.mp alive (null.mp dereferenced)⟩)
    · have there := fun none => dereferenced (null.mpr none)
      exact .inr (.inr ⟨⟨other, dereferenced⟩, same.mpr there, holds, leaves.noted noted⟩)

theorem answered_there {w : World} {out : Outside} {cid : ClientId}
    (answered : w.Answerable out cid) : w.pool.clientIds cid ≠ some none := by
  obtain ⟨ref, entry, _⟩ := answered
  rw [entry]
  simp

theorem switches_iff {w : World} {out : Outside} {j : Json} {state : Bool}
    (found : j.saveState = .ok state) : Switches w out j ↔
      w.fdPtr.isSome ≠ state ∧ (state = true → out.connectThrows = false) := by
  simp only [Switches, found, Except.ok.injEq, exists_eq_left']

theorem unswitched {ptr : Option DatabaseRef} {state : Bool} (on : ptr = none → state = true → False)
    (off : ∀ db, ptr = some db → state = false → False) : ptr.isSome = state := by
  cases ptr with
  | none => exact (Bool.eq_false_of_not_eq_true (on rfl)).symm
  | some db => exact (Bool.eq_true_of_not_eq_false (off db rfl)).symm

theorem switched_ends {w w' : World} {out : Outside} {cid : ClientId} {j : Json} {state : Bool}
    (reply : Bytes) (found : j.saveState = .ok state) (switches : w.fdPtr.isSome ≠ state)
    (connects : state = true → out.connectThrows = false)
    (leaves : StringHandler.flightDatabaseController.Leaves w w') :
    Ends (do answer out cid reply; pure true) w'
      (fun handled w'' => ((Switches w out j → w.pool.clientIds cid ≠ some none) ∧
        (handled = true ↔ ∃ state, j.saveState = .ok state ∧ w.fdPtr.isSome ≠ state)) ∧
          StringHandler.flightDatabaseController.Leaves w w'')
      (Passed w (Switches w out j → w.pool.clientIds cid ≠ some none)
        (∃ state, j.saveState = .ok state ∧ w.fdPtr.isSome ≠ state)) := by
  refine replied_ends leaves (answer_ends out cid reply w') answered_there ?_
    ⟨state, found, switches⟩
  rw [switches_iff found]
  exact ⟨fun all => all ⟨switches, connects⟩, fun there _ => there⟩

theorem judged (json : JsonText) (out : Outside) (cid : ClientId) (msg : Bytes) (w : World) :
    Judged (handleString json out cid msg) w (∀ j, json.parse msg = some j → Withstands w out cid j)
      (∃ j, json.parse msg = some j ∧ Handles w j)
      (StringHandler.flightDatabaseController.Leaves w) := by
  have start : StringHandler.flightDatabaseController.Leaves w w := (World.Noted.refl w).leaves _
  refine Ends.catch_iff.mpr (Ends.mono (read_ends (X := Passed w) ?_ ?_ ?_) (fun _ _ => id) ?_)
  · exact fun _ _ holds unhandled => .inl ⟨rfl, rfl, holds, unhandled⟩
  · intro j none
    simp [Withstands, Handles, none]
  · intro j type typed
    have get := Json.asks_iff typed "flight_data_save_get"
    have set := Json.asks_iff typed "flight_data_save_set"
    simp only [Withstands, Handles, get, set]
    split
    · next asks =>
        have other : ¬ type.Is "flight_data_save_set" := asks.other (by decide)
        simp only [asks, other, true_implies, false_implies, and_true, false_and, or_false]
        refine Ends.bind_iff.mpr (Ends.get_iff.mpr ?_)
        refine replied_ends start (answerCounted_ends out cid _ w) (fun answered none => ?_) .rfl
          trivial
        exact answered_there (answered (by rw [none]; rfl)) none
    split
    · next other asks =>
        simp only [asks, other, true_implies, false_implies, true_and, false_or]
        refine Ends.bind_iff.mpr (attempt_ends j.saveState_plain (fun state found => ?_) ?_)
        · refine Ends.bind_iff.mpr (Ends.get_iff.mpr ?_)
          split
          · next off =>
              have switches : w.fdPtr.isSome ≠ true := by
                rw [off]
                decide
              split
              · next throws =>
                  refine .inr (.inr ⟨by decide, fun all => ?_, ⟨true, found, switches⟩, start⟩)
                  rw [((switches_iff found).mp all).2 rfl] at throws
                  cases throws
              · next connects =>
                  refine Ends.bind_iff.mpr (Ends.modify_iff.mpr ?_)
                  exact switched_ends _ found switches (fun _ => Bool.eq_false_iff.mpr connects)
                    ⟨rfl, rfl, fun _ => rfl, fun other => absurd rfl other⟩
          · next db on =>
              have switches : w.fdPtr.isSome ≠ false := by
                rw [on]
                exact Bool.noConfusion
              refine Ends.bind_iff.mpr (Ends.modify_iff.mpr ?_)
              exact switched_ends _ found switches (fun on => by cases on)
                ⟨rfl, rfl, fun _ => rfl, fun other => absurd rfl other⟩
          · next state _ _ on off =>
              have there : w.fdPtr.isSome = state := unswitched on off
              refine ⟨⟨fun all => absurd there ((switches_iff found).mp all).1, ?_⟩, start⟩
              simp only [found, Except.ok.injEq, exists_eq_left', there, ne_eq, not_true_eq_false,
                Bool.false_eq_true]
        · intro failed
          exact .inl ⟨rfl, rfl, fun ⟨state, found, _⟩ => absurd found (failed state),
            fun ⟨state, found, _⟩ => failed state found⟩
    · next neither other =>
        refine ⟨⟨by simp [neither, other], ?_⟩, start⟩
        simp [neither, other]
  · rintro e w' (⟨rfl, rfl, holds, unhandled⟩ | ⟨rfl, fails⟩ | ⟨⟨other, there⟩, holds, handled, leaves⟩)
    · exact ⟨⟨holds, by simp [unhandled]⟩, start⟩
    · exact ⟨by decide, fails⟩
    · split
      · exact absurd rfl other
      · exact absurd rfl there
      · exact ⟨⟨holds, by simp [handled]⟩, leaves⟩

end FlightDatabaseController

end DroneServer
