import DroneServer.Lib.Written
import DroneServer.Websocket.Posts
import DroneServer.Websocket.Registries
import DroneServer.Websocket.Switches

/-! # The bank of switches

The switches are off at first, a request turns one, and another request reads it. The
theorem at the end says that the process is such a bank of switches, whatever else
happens in between.
-/

namespace DroneServer

open Handling

variable {json : JsonText} {out : Outside} {cid : ClientId} {msg : Bytes} {j : Json} {w : World}

section Reading

variable {k : Switch} {ref : ClientRef}

/-- A request to read a switch is answered with where it stands, and nothing else comes of it. -/
theorem StringHandler.handleString_reads (parsed : json.parse msg = some j)
    (reads : j.Reads cid k) (named : w.pool.clientIds cid = some (some ref))
    (reached : w.Reached out ref) :
    k.handler.handleString json out cid msg w = .ok true
      (w.add (w.posts ref (json.dump (Json.reply k.replyType (.boolean (w.on k)))))) := by
  have replied : ∀ text, (do answerCounted out cid text; pure true : Handling Bool) w =
      .ok true (w.add (w.posts ref text)) := by
    intro text
    rw [run_bind (answerCounted_posts named reached text)]
    rfl
  have looks : (get : Handling World) w = .ok w w := rfl
  cases k with
  | recording drone =>
      obtain ⟨⟨type, typed, is⟩, read⟩ := reads
      simp only [Switch.handler, handleString, RecorderController.handleString, Handling.parse,
        parsed, pure_bind, typed, attempt, if_pos is]
      refine unlessJson_true.mpr (attempt_bind_ran.mpr ⟨drone, read, ?_⟩)
      rw [run_bind looks]
      exact replied _
  | detecting drone watcher =>
      obtain ⟨⟨type, typed, is⟩, read, rfl⟩ := reads
      simp only [Switch.handler, handleString, VehicleDetectionController.handleString,
        Handling.parse, parsed, pure_bind, typed, attempt, if_pos is]
      refine unlessJson_true.mpr (attempt_bind_ran.mpr ⟨drone, read, ?_⟩)
      rw [run_bind looks]
      exact replied _
  | saving =>
      obtain ⟨type, typed, is⟩ := reads
      simp only [Switch.handler, handleString, FlightDatabaseController.handleString,
        Handling.parse, parsed, pure_bind, typed, attempt, if_pos is]
      refine run_catch ?_
      rw [run_bind looks]
      exact replied _

theorem Json.Reads.asks (reads : j.Reads cid k) : j.Asks k.getType := by
  cases k with
  | recording | detecting => exact reads.1
  | saving => exact reads

theorem Json.Reads.unturned (reads : j.Reads cid k) (cid' : ClientId) : j.turn cid' = none := by
  obtain ⟨type, typed, is⟩ := reads.asks
  cases turn : j.turn cid' with
  | none => rfl
  | some t =>
      refine absurd (Json.turn_is typed turn) (is.other ?_)
      cases k <;> cases t.1 <;> (simp only [Switch.getType, Switch.setType]; decide)

theorem WebsocketClient.handed_reads (parsed : json.parse msg = some j) (reads : j.Reads cid k)
    (c : WebsocketClient) : handed json c msg = some msg := by
  obtain ⟨type, typed, is⟩ := reads.asks
  have own : ∀ own ∈ ["hello", "data_broadcast", "drone_list"], ¬ type.Is own := by
    intro own inside
    refine is.other ?_
    revert own
    cases k <;> (simp only [Switch.getType]; decide)
  rw [handed_typed parsed typed, if_neg (fun both => own "hello" (.head _) both.1),
    if_neg (fun both => own "data_broadcast" (.tail _ (.head _)) both.1),
    if_neg (fun both => own "drone_list" (.tail _ (.tail _ (.head _))) both.1)]

theorem WebsocketClient.handle_reads {asker : ClientRef} (parsed : json.parse msg = some j)
    (reads : j.Reads (w.objects asker).id k) (registered : k.handler ∈ w.recs)
    (named : w.pool.clientIds (w.objects asker).id = some (some ref))
    (reached : w.Reached out ref) :
    handle json out asker msg w = .ok ⟨⟩
      (w.add (w.posts ref (json.dump (Json.reply k.replyType (.boolean (w.on k)))))) := by
  obtain ⟨type, typed, is⟩ := reads.asks
  have apart : ∀ h' ≠ k.handler, ∀ other ∈ h'.texts, ascii k.getType ≠ ascii other := by
    intro h' other
    exact StringHandler.texts_apart (by cases k <;> nofun) (by cases k <;> exact .head _) other
  refine handle_run parsed typed is (by cases k <;> (simp only [Switch.getType]; decide)) ?_
  rw [FlightDataManager.handle_own parsed typed is apart, if_pos registered]
  exact StringHandler.handleString_reads parsed reads named reached

end Reading

namespace Process

/-- The turn that is made in an event, if one is. -/
def turned (json : JsonText) (p : Process) : Happening → Option Turn
  | .message conn msg out =>
      if p.Runs then do
        let ref ← p.world.client conn
        let c := p.world.objects ref
        p.world.turned json out c.id (← WebsocketClient.handed json c msg)
      else none
  | _ => none

variable {p : Process}

/-- Every event takes the turn it makes; the rest of what it does is aside. -/
theorem step_turns {json : JsonText} {Q : World → Prop} (aside : World.Aside Q)
    (event : Happening) (holds : Q (p.world.take (p.turned json event))) :
    Q (p.step json event).world := by
  by_cases runs : p.Runs
  · rw [step_runs runs]
    cases event with
    | rtmp l =>
        exact aside p.world _ p.world.objects p.world.nextClient p.world.clients p.world.pool
          p.world.effects holds
    | opened conn id => exact aside p.world p.world.host _ _ _ p.world.pool p.world.effects holds
    | closed conn | failed conn =>
        simp only [perform, World.onClose]
        split <;> exact aside p.world p.world.host _ _ _ _ p.world.effects holds
    | message conn msg out =>
        rw [turned, if_pos runs] at holds
        rw [perform, onMessage]
        cases entry : p.world.client conn with
        | none =>
            rw [entry] at holds
            exact aside p.world p.world.host _ _ _ _ p.world.effects holds
        | some ref =>
            rw [entry] at holds
            exact after_keeps (WebsocketClient.handle_turns aside holds)
  · rw [step_ended runs]
    cases event with
    | rtmp | opened | closed | failed => exact holds
    | message conn msg out => rwa [turned, if_neg runs] at holds

end Process

/-- The process and the turns made so far. -/
def turning (json : JsonText) (setup : Setup) : Machine (Process × List Turn) Happening :=
  (web json setup).noting [] fun turns p event => turns ++ (p.turned json event).toList

/-- Where the turns made leave a switch, which is off at first. -/
def Switch.last (turns : List Turn) (k : Switch) : Bool := (lastWritten k turns).getD false

theorem turning_on (json : JsonText) (setup : Setup) (labels : List Happening) :
    ((turning json setup).run labels).1.world.on =
      Switch.last ((turning json setup).run labels).2 := by
  induction labels using List.reverseRecOn with
  | nil =>
      funext k
      cases k <;> rfl
  | append_singleton labels event ih =>
      rw [Machine.run_snoc]
      change (Process.step json _ event).world.on = Switch.last (_ ++ Option.toList _)
      refine (Process.step_turns (Q := fun w => w.on = _) (fun _ _ _ _ _ _ _ same => same) event
        (World.take_on _ _)).trans ?_
      rw [ih]
      cases Process.turned json _ event with
      | none => simp [Switch.turn]
      | some t => exact (update_lastWritten t.1 t.2 false _).symm

/-- The controllers the program was built with are registered, and the database that is written to
    while saving is on. -/
structure World.Registered (setup : Setup) (w : World) : Prop where
  built : ∀ k : Switch, k.handler ∈ w.recs ↔ k.handler ∈ setup.recs
  databases : ∀ db, .flightDatabase db ∈ w.recs ↔ w.fdPtr = some db

theorem World.Registered.aside (setup : Setup) : Aside (Registered setup) :=
  fun _ _ _ _ _ _ _ registered => ⟨registered.built, registered.databases⟩

/-- A database is registered when saving starts and removed when it stops. -/
theorem World.Registered.turn {setup : Setup} (registered : w.Registered setup) (t : Turn) :
    (w.turn t).Registered setup := by
  obtain ⟨k, state⟩ := t
  have same : ∀ v : World, v.recs = w.recs → v.fdPtr = w.fdPtr → v.Registered setup := by
    intro v recs fdPtr
    exact ⟨by rw [recs]; exact registered.built, by rw [recs, fdPtr]; exact registered.databases⟩
  have others : ∀ (k : Switch) (db : DatabaseRef), k.handler ≠ .flightDatabase db := by
    intro k db same
    cases k <;> cases same
  cases k with
  | recording drone =>
      unfold World.turn RecorderController.set
      dsimp only
      split <;> exact same _ rfl rfl
  | detecting drone watcher =>
      refine same _ ?_ ?_ <;> (simp only [World.turn, VehicleDetectionController.put]; split <;> rfl)
  | saving =>
      unfold World.turn
      dsimp only
      split
      · next off =>
          constructor
          · intro k
            exact Table.mem_insertNew.trans ((or_iff_right (others k _)).trans (registered.built k))
          · intro db
            refine Iff.trans Table.mem_insertNew ?_
            rw [registered.databases db, off]
            simp [FlightDatabaseController.start, eq_comm]
      · next db there =>
          constructor
          · intro k
            exact Table.mem_erase.trans ((and_iff_right (others k db)).trans (registered.built k))
          · intro db'
            refine Iff.trans Table.mem_erase ?_
            rw [registered.databases db', there]
            simp [FlightDatabaseController.stop, eq_comm]
      · exact registered

theorem turning_registered (json : JsonText) (setup : Setup) (labels : List Happening) :
    ((turning json setup).run labels).1.world.Registered setup := by
  have reached := Machine.Reachable.run (turning json setup) labels
  refine reached.invariant (P := fun s => s.1.world.Registered setup) ?_ ?_
  · refine ⟨fun _ => .rfl, fun db => ?_⟩
    change .flightDatabase db ∈ setup.recs ↔ none = some db
    unfold Setup.recs
    refine iff_of_false ?_ nofun
    dsimp only
    split <;> split <;> split <;> simp
  · intro s event registered
    refine Process.step_turns (World.Registered.aside setup) event ?_
    cases Process.turned json s.1 event with
    | none => exact registered
    | some t => exact registered.turn t

/-- Whatever happened before, on either side and from any number of clients, a request to read a switch
    is answered with the position the last turn left it in, to the client that its sender's id names,
    and changes nothing. -/
theorem reads_last_turn (json : JsonText) (setup : Setup) (labels : List Happening)
    {p : Process} {turns : List Turn} (ran : (turning json setup).run labels = (p, turns))
    (runs : p.Runs) {conn : ConnId} {asker ref : ClientRef} {k : Switch}
    (entry : p.world.client conn = some asker) (parsed : json.parse msg = some j)
    (reads : j.Reads (p.world.objects asker).id k) (registered : k.handler ∈ setup.recs)
    (named : p.world.pool.clientIds (p.world.objects asker).id = some (some ref))
    (reached : p.world.Reached out ref) :
    (turning json setup).run (labels ++ [.message conn msg out]) =
      ({ p with world := p.world.add (p.world.posts ref
          (json.dump (Json.reply k.replyType (.boolean (Switch.last turns k))))) }, turns) := by
  have on := turning_on json setup labels
  have built := (turning_registered json setup labels).built
  rw [ran] at on built
  have unturned : p.turned json (.message conn msg out) = none := by
    rw [Process.turned, if_pos runs, entry]
    change (WebsocketClient.handed json _ msg).bind _ = none
    rw [WebsocketClient.handed_reads parsed reads, Option.bind_some, World.turned, parsed,
      Option.bind_some, reads.unturned]
    rfl
  rw [Machine.run_snoc, ran]
  change (p.step json _, turns ++ (p.turned json _).toList) = _
  rw [unturned, Process.step_runs runs, Process.perform, Process.onMessage, entry]
  dsimp only
  rw [WebsocketClient.handle_reads parsed reads ((built k).mpr registered) named reached, on]
  simp [Process.after]

/-- The texts of two clients: the first has a recording started, the second has it stopped and started
    again. A member that is not read does no harm. -/
def recordAgain : List Happening :=
  let text (j : Json) := Requests.print j
  [.opened 0 7, .opened 1 8, .message 0 (text Requests.helloOperator) {},
    .message 1 (text Requests.helloOperator) {},
    .message 0 (text (Requests.set "media_record_set" "1" true)) {},
    .message 1 (text (Requests.set "media_record_set" "1" false)) {},
    .message 1 (text (Requests.set "media_record_set" "1" true)) {}]

def recordLibrary : JsonText :=
  Requests.library [Requests.helloOperator, Requests.set "media_record_set" "1" true,
    Requests.set "media_record_set" "1" false, Requests.set "media_record_get" "1" true]

/-- The first client asks, and is told of the second one's turn. -/
theorem reads_last_turn_again :
    ((turning recordLibrary {}).run (recordAgain ++
        [.message 0 (Requests.print (Requests.set "media_record_get" "1" true))
          {}])).1.world.effects.getLast? =
      some (.sent 0 (Requests.print (Json.reply "media_record_get_resp" (.boolean true)))) := by
  have entry : ((turning recordLibrary {}).run recordAgain).1.world.client 0 = some 0 := by
    decide +kernel
  have named : ((turning recordLibrary {}).run recordAgain).1.world.pool.clientIds 7 =
      some (some 0) := by decide +kernel
  have parsed : recordLibrary.parse (Requests.print (Requests.set "media_record_get" "1" true)) =
      some (Requests.set "media_record_get" "1" true) := by rfl
  have asks : (Requests.set "media_record_get" "1" true).Asks "media_record_get" :=
    ⟨Json.str "media_record_get", by rfl, by rfl⟩
  have reads : (Requests.set "media_record_get" "1" true).Reads 7 (.recording 1) :=
    ⟨asks, by decide +kernel⟩
  rw [reads_last_turn recordLibrary {} recordAgain rfl (by decide +kernel) entry parsed reads
    (by decide) named (by decide +kernel)]
  decide +kernel

end DroneServer
