import DroneServer.Websocket.DroneList
import DroneServer.Websocket.Posts

/-! # The roster of drones

A drone joins with the hello that can be read to its end and leaves when its connection
does. The list a client is answered with is the drones that joined and have not left, in
the order they joined, each with the name and serial number of its hello.
-/

namespace DroneServer

open Handling

/-- A client that joined as a drone, and what its hello said. -/
structure Drone where
  ref : ClientRef
  id : ClientId
  droneName : Bytes
  serial : Bytes
  deriving DecidableEq

namespace Drone

/-- What the list says of it. -/
def listed (d : Drone) : Json :=
  WebsocketClient.toJson { id := d.id, droneName := d.droneName, serial := d.serial }

end Drone

/-- The name and the serial number in the hello of a drone, if they can be read. -/
def Json.hail (j : Json) : Option (Bytes × Bytes) :=
  match j.ctype, j.dataString "drone_name", j.dataString "serial" with
  | .ok ctype, .ok droneName, .ok serial =>
      if ClientType.ofInt ctype = .drone then some (droneName, serial) else none
  | _, _, _ => none

namespace World

/-- What is listed of a client. -/
def drone (w : World) (ref : ClientRef) : Drone :=
  let c := w.objects ref
  { ref, id := c.id, droneName := c.droneName, serial := c.serial }

theorem drone_listed (w : World) (ref : ClientRef) :
    (w.drone ref).listed = WebsocketClient.toJson (w.objects ref) := rfl

/-- The drone that joins with a hello, if it does. -/
def hailed (w : World) (ref : ClientRef) (j : Json) : Option Drone :=
  j.hail.map fun (droneName, serial) => { ref, id := (w.objects ref).id, droneName, serial }

/-- The drone that joins with a message, if it is a hello and its client's first. -/
def joins (w : World) (json : JsonText) (ref : ClientRef) (msg : Bytes) : Option Drone := do
  let j ← json.parse msg
  let type ← (j.field "type").toOption
  if type.Is "hello" ∧ !(w.objects ref).handshakeDone then w.hailed ref j else none

/-- The pool's drones are the ones of the roster. -/
def Rostered (roster : List Drone) (w : World) : Prop := w.pool.drones.map w.drone = roster

end World

namespace Process

/-- The drones that joined and have not left, as the events tell. -/
def roster (json : JsonText) (p : Process) (roster : List Drone) (event : Happening) :
    List Drone :=
  if p.Runs then
    match event with
    | .message conn msg _ =>
        roster ++ ((p.world.client conn).bind fun ref => p.world.joins json ref msg).toList
    | .closed conn | .failed conn =>
        roster.filter fun d => p.world.client conn ≠ some d.ref
    | .rtmp _ | .opened _ _ => roster
  else roster

end Process

section

variable {json : JsonText} {out : Outside} {msg : Bytes} {j : Json} {w w' : World}
  {ref : ClientRef} {roster : List Drone}

namespace World

theorem joins_typed {type : Json} (parsed : json.parse msg = some j)
    (typed : j.field "type" = .ok type) :
    w.joins json ref msg =
      if type.Is "hello" ∧ !(w.objects ref).handshakeDone then w.hailed ref j else none := by
  rw [joins, parsed]
  change (j.field "type").toOption.bind _ = _
  rw [typed]
  rfl

theorem Pooled.undroned (pooled : w.Pooled) (untold : (w.objects ref).handshakeDone = false) :
    ref ∉ w.pool.drones := by
  rw [pooled.drones, List.mem_filter]
  exact fun both => pooled.outside untold both.1

namespace Rostered

theorem note (rostered : w.Rostered roster) (effect : Effect) : (w.note effect).Rostered roster :=
  rostered

theorem idle (rostered : w.Rostered roster) (idle : w.Idle w') : w'.Rostered roster := by
  have same : w'.drone = w.drone := by
    funext ref
    rw [drone, idle.objects]
    rfl
  rw [Rostered, idle.pool, same]
  exact rostered

theorem besides (rostered : w.Rostered roster) (new : ref ∉ w.pool.drones)
    (besides : w.Besides ref w') : w'.Rostered roster := by
  refine Eq.trans ?_ rostered
  rw [besides.pool]
  refine List.map_congr_left fun r inside => ?_
  rw [drone, besides.others r (ne_of_mem_of_not_mem inside new)]
  rfl

theorem adding (rostered : w.Rostered roster) (new : ref ∉ w.pool.drones)
    (besides : w.Besides ref w') :
    Rostered (roster ++ if (w'.objects ref).type = .drone then [w'.drone ref] else [])
      ({ w' with pool := w'.pool.add ref (w'.objects ref) }.update ref
        { w'.objects ref with handshakeDone := true }) := by
  -- saying hello changes nothing that is listed
  have same : ({ w' with pool := w'.pool.add ref (w'.objects ref) }.update ref
      { w'.objects ref with handshakeDone := true }).drone = w'.drone := by
    funext r
    unfold drone
    rw [update_objects]
    split
    · next here => rw [here]
    · rfl
  have before : w'.pool.drones.map w'.drone = roster := rostered.besides new besides
  rw [Rostered, same]
  change (w'.pool.add ref (w'.objects ref)).drones.map w'.drone = _
  rw [ClientPool.add]
  dsimp only
  split
  · rw [List.map_append, before, List.map_singleton]
  · rw [before, List.append_nil]

theorem opening (rostered : w.Rostered roster) (pooled : w.Pooled) (conn : ConnId)
    (id : ClientId) : (w.onOpen conn id).Rostered roster := by
  refine Eq.trans (List.map_congr_left fun r inside => ?_) rostered
  have inside : r ∈ w.pool.clients := by
    change r ∈ w.pool.drones at inside
    rw [pooled.drones] at inside
    exact (List.mem_filter.mp inside).1
  rw [drone, onOpen_old (pooled.said r inside).1]
  rfl

theorem closing (rostered : w.Rostered roster) (pooled : w.Pooled) (conn : ConnId) :
    (w.onClose conn).Rostered (roster.filter fun d => w.client conn ≠ some d.ref) := by
  have same : (w.onClose conn).drone = w.drone := by
    funext r
    rw [drone, onClose_objects]
    rfl
  cases found : w.client conn with
  | none =>
      rw [Rostered, same, onClose_missing found]
      exact rostered.trans (List.filter_eq_self.mpr fun _ _ => rfl).symm
  | some ref =>
      rw [Rostered, same, onClose_found found, ← rostered, List.filter_map]
      change (w.pool.del ref (w.objects ref)).drones.map w.drone = _
      congr 1
      have left : (w.pool.drones.filter fun r => r ≠ ref) =
          w.pool.drones.filter ((fun d => decide (some ref ≠ some d.ref)) ∘ w.drone) := by
        refine List.filter_congr fun r _ => decide_eq_decide.mpr ?_
        simp [drone, eq_comm]
      rw [← left, ClientPool.del]
      dsimp only
      split
      · rfl
      · next other =>
          refine (List.filter_eq_self.mpr fun r inside => decide_eq_true ?_).symm
          rintro rfl
          rw [pooled.drones, List.mem_filter] at inside
          exact other (of_decide_eq_true inside.2)

end Rostered

end World

namespace WebsocketClient

/-- A hello that cannot be read to its end adds nobody, and one that can adds its client, which is
    listed if it is a drone. -/
theorem hello_rostered (rostered : w.Rostered roster) (new : ref ∉ w.pool.drones) (j : Json) :
    Ends (hello json out ref j) w (fun _ => World.Rostered (roster ++ (w.hailed ref j).toList))
      fun _ => World.Rostered (roster ++ (w.hailed ref j).toList) := by
  have joined : ∀ w', w.Besides ref w' →
      (w.hailed ref j).toList =
        (if (w'.objects ref).type = .drone then [w'.drone ref] else []) →
      Ends (do
        modify fun w => { w with pool := w.pool.add ref (w.objects ref) }
        assign ref fun c => { c with handshakeDone := true }
        onHello json out ref : Handling Unit) w'
        (fun _ => World.Rostered (roster ++ (w.hailed ref j).toList))
        fun _ => World.Rostered (roster ++ (w.hailed ref j).toList) := by
    intro w' besides same
    rw [same]
    refine Ends.bind_iff.mpr (Ends.modify_iff.mpr (Ends.bind_iff.mpr (Ends.modify_iff.mpr ?_)))
    refine onHello_keeps (fun _ effect _ rostered => rostered.note effect) ref _ ?_
    exact rostered.adding new besides
  have failed : ∀ w', w.Besides ref w' → w.hailed ref j = none →
      World.Rostered (roster ++ (w.hailed ref j).toList) w' := by
    intro w' besides silent
    rw [silent, Option.toList_none, List.append_nil]
    exact rostered.besides new besides
  unfold hello
  cases kind : j.ctype with
  | error e => exact failed w (.refl w ref) (by simp [World.hailed, Json.hail, kind])
  | ok ctype =>
      have typed := (World.Besides.refl w ref).assigned
        (f := fun c => { c with type := .ofInt ctype }) fun _ => rfl
      refine Ends.bind_iff.mpr (Ends.pure_iff.mpr (Ends.bind_iff.mpr (Ends.modify_iff.mpr ?_)))
      by_cases drone : ClientType.ofInt ctype = .drone
      · rw [if_pos drone]
        cases name : j.dataString "drone_name" with
        | error e => exact failed _ typed (by simp [World.hailed, Json.hail, kind, name])
        | ok droneName =>
            have named := typed.assigned (f := fun c => { c with droneName }) fun _ => rfl
            cases number : j.dataString "serial" with
            | error e => exact failed _ named (by simp [World.hailed, Json.hail, kind, name, number])
            | ok serial =>
                have numbered := named.assigned (f := fun c => { c with serial }) fun _ => rfl
                refine joined _ numbered ?_
                simp [World.hailed, Json.hail, kind, name, number, drone, World.drone,
                  World.update_objects]
      · rw [if_neg drone]
        refine joined _ typed ?_
        have silent : j.hail = none := by
          unfold Json.hail
          split <;> simp_all
        simp [World.hailed, silent, drone, World.update_objects]

theorem handle_rostered (rostered : w.Rostered roster) (pooled : w.Pooled) :
    Ends (handle json out ref msg) w
      (fun _ => World.Rostered (roster ++ (w.joins json ref msg).toList))
      fun _ => World.Rostered (roster ++ (w.joins json ref msg).toList) := by
  by_cases greets : ∃ j type, json.parse msg = some j ∧ j.field "type" = .ok type ∧
      type.Is "hello" ∧ (w.objects ref).handshakeDone = false
  · obtain ⟨j, type, parsed, typed, is, untold⟩ := greets
    have first : type.Is "hello" ∧ (!(w.objects ref).handshakeDone) = true :=
      ⟨is, by rw [untold]; rfl⟩
    rw [World.joins_typed parsed typed, if_pos first]
    refine Ends.caught (E := fun _ => World.Rostered (roster ++ (w.hailed ref j).toList)) ?_
      fun e w' holds => ?_
    · simp only [parse, parsed, pure_bind, typed, attempt]
      refine Ends.bind_iff.mpr (Ends.bind_iff.mpr (Ends.get_iff.mpr (Ends.pure_iff.mpr ?_)))
      rw [if_pos first]
      exact hello_rostered rostered (pooled.undroned untold) j
    · split
      · exact kick_keeps out (fun _ effect _ rostered => rostered.note effect) ref _ _ w' holds
      · exact holds
  · have nobody : w.joins json ref msg = none := by
      cases parsed : json.parse msg with
      | none =>
          rw [World.joins, parsed]
          rfl
      | some j =>
          cases typed : j.field "type" with
          | error e => simp [World.joins, parsed, typed, Except.toOption]
          | ok type =>
              rw [World.joins_typed parsed typed]
              refine if_neg fun both => greets ⟨j, type, parsed, typed, both.1, ?_⟩
              simpa using both.2
    rw [nobody, Option.toList_none, List.append_nil]
    refine handle_leads ⟨rfl, rfl, rfl, rfl⟩ (fun _ idle => rostered.idle idle)
      (fun _ effect _ idle => (World.Idle.handlers w 0).note effect idle)
      (fun _ effect _ rostered => rostered.note effect)
      (fun _ _ => FlightDataManager.handle_keeps (World.Idle.handlers w _))
      fun j type parsed typed is untold => absurd ⟨j, type, parsed, typed, is, untold⟩ greets

theorem handle_lists (said : (w.objects ref).handshakeDone = true)
    (parsed : json.parse msg = some j) (asks : j.Asks "drone_list") (reached : w.Reached out ref) :
    handle json out ref msg w = .ok ⟨⟩ (w.add (w.posts ref (json.dump
      (Json.reply "drone_list_resp"
        (.array (w.pool.drones.map fun r => (w.drone r).listed)))))) := by
  obtain ⟨type, typed, is⟩ := asks
  have greets := is.other (show ascii _ ≠ ascii "hello" by decide)
  have broadcasts := is.other (show ascii _ ≠ ascii "data_broadcast" by decide)
  have body : (do
      let c ← this ref
      if type.Is "hello" ∧ !c.handshakeDone then hello json out ref j
      else if type.Is "data_broadcast" ∧ c.handshakeDone then
        let str := json.dump j
        let _ ← FlightDataManager.handle json out c.id str
        onData out str
      else if type.Is "drone_list" ∧ c.handshakeDone then onDroneList json out ref
      else if ← FlightDataManager.handle json out c.id msg then pure ()
      else WebsocketServer.kick out ref .invalidPayload (ascii "unsupported request") :
        Handling Unit) w = .ok ⟨⟩ (w.add (w.posts ref (json.dump
          (Json.reply "drone_list_resp"
            (.array (w.pool.drones.map fun r => toJson (w.objects r))))))) := by
    rw [run_bind (show this ref w = .ok (w.objects ref) w from rfl),
      if_neg (fun both => greets both.1), if_neg (fun both => broadcasts both.1),
      if_pos ⟨is, said⟩, onDroneList,
      run_bind (show (get : Handling World) w = .ok w w from rfl)]
    have sent := send_posts reached (json.dump (Json.reply "drone_list_resp"
      (.array (w.pool.drones.map fun r => toJson (w.objects r))))) []
    rwa [World.add_nil, List.nil_append] at sent
  simp only [World.drone_listed]
  unfold handle Handling.parse
  simp only [parsed, pure_bind, typed, attempt]
  exact run_catch body

end WebsocketClient

namespace Process

theorem step_rostered (json : JsonText) {p : Process} (rostered : p.world.Rostered roster)
    (pooled : p.world.Pooled) (event : Happening) :
    (p.step json event).world.Rostered (p.roster json roster event) := by
  unfold Process.roster
  by_cases runs : p.Runs
  · rw [step_runs runs, if_pos runs]
    cases event with
    | rtmp l => exact rostered
    | opened conn id => exact rostered.opening pooled conn id
    | closed conn | failed conn => exact rostered.closing pooled conn
    | message conn msg out =>
        cases found : p.world.client conn with
        | none =>
            simp only [perform, onMessage, found]
            exact (List.append_nil roster).symm ▸ rostered
        | some ref =>
            simp only [perform, onMessage, found]
            exact after_keeps (WebsocketClient.handle_rostered rostered pooled)
  · rw [step_ended runs, if_neg runs]
    exact rostered

end Process

end

/-- The process and its roster. -/
def rostering (json : JsonText) (setup : Setup) : Machine (Process × List Drone) Happening :=
  (web json setup).noting [] fun roster p event => p.roster json roster event

theorem rostering_rostered (json : JsonText) (setup : Setup) (labels : List Happening) :
    ((rostering json setup).run labels).1.world.Pooled ∧
      ((rostering json setup).run labels).1.world.Rostered
        ((rostering json setup).run labels).2 := by
  refine (Machine.Reachable.run (rostering json setup) labels).invariant
    (P := fun s => s.1.world.Pooled ∧ s.1.world.Rostered s.2) ⟨web_pooled json setup, rfl⟩ ?_
  rintro s event ⟨pooled, rostered⟩
  exact ⟨(Process.step_follows json pooled event).pooled,
    Process.step_rostered json rostered pooled event⟩

variable {json : JsonText} {out : Outside} {msg : Bytes} {j : Json}

/-- Whatever happened before, a client that said hello and asks for the list is answered, on its own
    connections and nowhere else, with the drones that joined and have not left, in the order they
    joined and each once; and asking changes nothing. -/
theorem drones_listed (json : JsonText) (setup : Setup) (labels : List Happening) {p : Process}
    {roster : List Drone} (ran : (rostering json setup).run labels = (p, roster)) (runs : p.Runs)
    {conn : ConnId} {asker : ClientRef} (entry : p.world.client conn = some asker)
    (said : (p.world.objects asker).handshakeDone = true) (parsed : json.parse msg = some j)
    (asks : j.Asks "drone_list") (reached : p.world.Reached out asker) :
    (rostering json setup).run (labels ++ [.message conn msg out]) =
        ({ p with world := p.world.add (p.world.posts asker (json.dump
          (Json.reply "drone_list_resp" (.array (roster.map Drone.listed))))) }, roster) ∧
      (roster.map Drone.ref).Nodup := by
  obtain ⟨pooled, rostered⟩ := rostering_rostered json setup labels
  rw [ran] at pooled rostered
  change p.world.pool.drones.map p.world.drone = roster at rostered
  have refs : roster.map Drone.ref = p.world.pool.drones := by
    rw [← rostered, List.map_map]
    exact List.map_id _
  have list : roster.map Drone.listed =
      p.world.pool.drones.map fun r => (p.world.drone r).listed := by
    rw [← rostered, List.map_map]
    rfl
  have nobody : p.world.joins json asker msg = none := by
    obtain ⟨type, typed, -⟩ := asks
    rw [World.joins_typed parsed typed, if_neg]
    simp [said]
  constructor
  · have same : p.roster json roster (.message conn msg out) = roster := by
      unfold Process.roster
      rw [if_pos runs]
      dsimp only
      rw [entry, Option.bind_some, nobody, Option.toList_none, List.append_nil]
    rw [Machine.run_snoc, ran]
    change (p.step json _, p.roster json roster _) = _
    rw [same, Process.step_runs runs, Process.perform, Process.onMessage, entry]
    dsimp only
    rw [WebsocketClient.handle_lists said parsed asks reached, list]
    rfl
  · rw [refs, pooled.drones]
    exact pooled.once.filter _

/-- A hello of a drone, with its name for a serial number too. -/
def helloDrone (name : String) : Json :=
  .object [(ascii "data", .object [(ascii "ctype", .unsigned 0),
    (ascii "drone_name", Json.str name), (ascii "serial", Json.str name)]),
    (ascii "type", Json.str "hello")]

def listRequest : Json := .object [(ascii "type", Json.str "drone_list")]

def rosterLibrary : JsonText :=
  Requests.library [Requests.helloOperator, helloDrone "a", helloDrone "b", listRequest]

/-- An operator and two drones say hello, and the first of the drones leaves. -/
def oneLeaves : List Happening :=
  [.opened 0 7, .opened 1 8, .opened 2 9, .message 1 (Requests.print (helloDrone "a")) {},
    .message 0 (Requests.print Requests.helloOperator) {},
    .message 2 (Requests.print (helloDrone "b")) {}, .closed 1]

/-- The operator is told of the second drone. -/
theorem drones_listed_one :
    ((rostering rosterLibrary {}).run (oneLeaves ++
        [.message 0 (Requests.print listRequest) {}])).1.world.effects.getLast? =
      some (.sent 0 (Requests.print (Json.reply "drone_list_resp"
        (.array [Drone.listed ⟨2, 9, ascii "b", ascii "b"⟩])))) := by
  have entry : ((rostering rosterLibrary {}).run oneLeaves).1.world.client 0 = some 0 := by
    decide +kernel
  have parsed : rosterLibrary.parse (Requests.print listRequest) = some listRequest := by rfl
  have asks : listRequest.Asks "drone_list" := ⟨Json.str "drone_list", by rfl, by rfl⟩
  rw [(drones_listed rosterLibrary {} oneLeaves rfl (by decide +kernel) entry
    (by decide +kernel) parsed asks (by decide +kernel)).1]
  decide +kernel

end DroneServer
