import DroneServer.Websocket.Client

/-! # Sending to and closing a client

Whether a send or a kick returns depends on what the endpoint answers on the
client's connections, and on nothing else; all it changes is what is noted.
-/

namespace DroneServer

open Handling

namespace World

/-- Every connection of the client can be closed. -/
def Closable (w : World) (out : Outside) (ref : ClientRef) : Prop :=
  ∀ conn, (conn, some ref) ∈ w.clients.entries → out.closeThrows conn = false

/-- Every connection of the client can be sent on, or those that cannot lead to a kick that goes
    through. -/
def Deliverable (w : World) (out : Outside) (ref : ClientRef) : Prop :=
  (∀ conn, (conn, some ref) ∈ w.clients.entries → out.sendThrows conn = none) ∨
    w.Closable out ref

/-- The id has an entry in the pool, it is not null, and the client gets what it is sent. -/
def Answerable (w : World) (out : Outside) (cid : ClientId) : Prop :=
  ∃ ref, w.pool.clientIds cid = some (some ref) ∧ w.Deliverable out ref

/-- The same of the entry of the id, if there is one. -/
def AnswerableIfCounted (w : World) (out : Outside) (cid : ClientId) : Prop :=
  (w.pool.clientIds cid).isSome → w.Answerable out cid

/-- Nothing but what the libraries were made to do differs. -/
def Noted (w w' : World) : Prop := ∃ effects, w' = { w with effects }

theorem Noted.refl (w : World) : w.Noted w := ⟨w.effects, rfl⟩

theorem Noted.trans {w w' w'' : World} (first : w.Noted w') (second : w'.Noted w'') :
    w.Noted w'' := by
  obtain ⟨_, rfl⟩ := first
  obtain ⟨effects, rfl⟩ := second
  exact ⟨effects, rfl⟩

theorem Noted.note {w w' : World} (noted : w.Noted w') (effect : Effect) :
    w.Noted (w'.note effect) := noted.trans ⟨_, rfl⟩

theorem Noted.clients {w w' : World} (noted : w.Noted w') : w'.clients = w.clients := by
  obtain ⟨_, rfl⟩ := noted
  rfl

/-- Who can be closed or sent to depends on the connections alone. -/
theorem closable_congr {w w' : World} (same : w'.clients = w.clients) {out : Outside}
    {ref : ClientRef} : w'.Closable out ref ↔ w.Closable out ref := by
  simp only [Closable, same]

theorem deliverable_congr {w w' : World} (same : w'.clients = w.clients) {out : Outside}
    {ref : ClientRef} : w'.Deliverable out ref ↔ w.Deliverable out ref := by
  simp only [Deliverable, Closable, same]

end World

namespace Handling

variable {α : Type} {w : World} {Q : α → World → Prop} {E : Failure → World → Prop}

theorem attempt_ok {value : α} : Ends (attempt (.ok value)) w Q E ↔ Q value w := .rfl

theorem attempt_error {e : Failure} : Ends (attempt (.error e)) w Q E ↔ E e w := .rfl

end Handling

section

variable {out : Outside} {w : World}

theorem kick_ends (out : Outside) (dst : ClientRef) (status : CloseStatus) (reason : Bytes)
    (w : World) :
    Ends (WebsocketServer.kick out dst status reason) w
      (fun _ w' => w.Noted w' ∧ w.Closable out dst)
      fun e w' => (e = .endpoint ∧ w.Noted w') ∧ ¬ w.Closable out dst := by
  have every : (∀ c ∈ w.clients.entries, c.2 = some dst → out.closeThrows c.1 = false) ↔
      w.Closable out dst :=
    ⟨fun all conn entry => all _ entry rfl, fun all c entry same => all c.1 (same ▸ entry)⟩
  rw [← every]
  refine Ends.bind_iff.mpr (Ends.get_iff.mpr (Ends.forM (I := w.Noted)
    (X := fun (e : Failure) w' => e = .endpoint ∧ w.Noted w') _ (fun c _ w' noted => ?_) (.refl w)))
  split
  · next own =>
      split
      · next throws =>
          refine ⟨⟨rfl, noted⟩, fun fine => ?_⟩
          rw [fine own] at throws
          cases throws
      · next fine => exact ⟨noted.note _, fun _ => Bool.eq_false_iff.mpr fine⟩
  · next other => exact ⟨noted, fun own => absurd own other⟩

theorem send_ends (out : Outside) (dst : ClientRef) (msg : Bytes) (w : World) :
    Ends (WebsocketServer.send out dst msg) w
      (fun _ w' => w.Noted w' ∧ w.Deliverable out dst)
      fun e w' => (e = .endpoint ∧ w.Noted w') ∧ ¬ w.Deliverable out dst := by
  have every : (∀ c ∈ w.clients.entries, c.2 = some dst →
      out.sendThrows c.1 = none ∨ w.Closable out dst) ↔ w.Deliverable out dst := by
    constructor
    · intro all
      by_cases closable : w.Closable out dst
      · exact .inr closable
      · exact .inl fun conn entry => (all _ entry rfl).resolve_right closable
    · rintro (sent | closable) c entry same
      · exact .inl (sent c.1 (same ▸ entry))
      · exact .inr closable
  rw [← every]
  refine Ends.bind_iff.mpr (Ends.get_iff.mpr (Ends.forM (I := w.Noted)
    (X := fun (e : Failure) w' => e = .endpoint ∧ w.Noted w') _ (fun c _ w' noted => ?_) (.refl w)))
  split
  · next own =>
      split
      · next sent => exact ⟨noted.note _, fun _ => .inl sent⟩
      · next what throws =>
          have closable_iff : w'.Closable out dst ↔ w.Closable out dst :=
            World.closable_congr noted.clients
          refine (kick_ends out dst .badGateway what w').mono ?_ ?_
          · rintro _ w'' ⟨later, closable⟩
            exact ⟨noted.trans later, fun _ => .inr (closable_iff.mp closable)⟩
          · rintro e w'' ⟨⟨rfl, later⟩, stuck⟩
            refine ⟨⟨rfl, noted.trans later⟩, fun passes => ?_⟩
            rcases passes own with sent | closable
            · rw [throws] at sent
              cases sent
            · exact stuck (closable_iff.mpr closable)
  · next other => exact ⟨noted, fun own => absurd own other⟩

/-- Answering by id throws what `at` and a null entry throw, or what sending does. -/
theorem answer_ends (out : Outside) (cid : ClientId) (msg : Bytes) (w : World) :
    Ends (answer out cid msg) w (fun _ w' => w.Noted w' ∧ w.Answerable out cid)
      fun e w' => (e ≠ .json ∧ w.Noted w' ∧
        (e = .nullDereference ↔ w.pool.clientIds cid = some none)) ∧ ¬ w.Answerable out cid := by
  unfold answer World.Answerable
  refine Ends.bind_iff.mpr (Ends.get_iff.mpr (Ends.bind_iff.mpr ?_))
  cases entry : w.pool.clientIds cid with
  | none =>
      rw [ClientPool.client, entry, attempt_error]
      simp [World.Noted.refl]
  | some entry' =>
      rw [ClientPool.client, entry, attempt_ok]
      cases entry' with
      | none =>
          refine ⟨⟨by decide, .refl w, by simp⟩, ?_⟩
          rintro ⟨_, named, _⟩
          cases named
      | some ref =>
          refine (send_ends out ref msg w).mono ?_ ?_
          · exact fun _ _ ⟨noted, delivered⟩ => ⟨noted, ref, rfl, delivered⟩
          · rintro e w' ⟨⟨rfl, noted⟩, stuck⟩
            refine ⟨⟨by decide, noted, by simp⟩, ?_⟩
            rintro ⟨_, named, delivered⟩
            cases named
            exact stuck delivered

theorem answerCounted_ends (out : Outside) (cid : ClientId) (msg : Bytes) (w : World) :
    Ends (answerCounted out cid msg) w
      (fun _ w' => w.Noted w' ∧ w.AnswerableIfCounted out cid)
      fun e w' => (e ≠ .json ∧ w.Noted w' ∧
        (e = .nullDereference ↔ w.pool.clientIds cid = some none)) ∧
          ¬ w.AnswerableIfCounted out cid := by
  unfold answerCounted World.AnswerableIfCounted
  refine Ends.bind_iff.mpr (Ends.get_iff.mpr ?_)
  split
  · next counted =>
      refine (answer_ends out cid msg w).mono ?_ ?_
      · exact fun _ _ ⟨noted, answered⟩ => ⟨noted, fun _ => answered⟩
      · exact fun e w' ⟨thrown, stuck⟩ => ⟨thrown, fun all => stuck (all counted)⟩
  · next absent => exact ⟨.refl w, fun counted => absurd counted absent⟩

end

/-- The relation leaves nothing open that sending looks at, and survives what sending notes. -/
structure World.Sends (R : World → World → Prop) : Prop where
  clients : ∀ {w v}, R w v → v.clients = w.clients
  pool : ∀ {w v}, R w v → v.pool = w.pool
  note : ∀ {w v} effect, R w v → R (w.note effect) (v.note effect)

namespace Handling

variable {out : Outside} {cid : ClientId} {R : World → World → Prop} (sends : World.Sends R)

theorem attempt_blind {α : Type} (r : Except Failure α) : Blind R (attempt r) := by
  cases r with
  | ok value => exact .pure value
  | error e => exact .throw e

include sends

theorem note_blind (effect : Effect) : Blind R (modify (·.note effect) : Handling Unit) :=
  .modify fun _ _ => sends.note effect

theorem kick_blind (dst : ClientRef) (status : CloseStatus) (reason : Bytes) :
    Blind R (WebsocketServer.kick out dst status reason) := by
  refine .get_bind (fun w v related => by rw [sends.clients related]) fun w => .forM _ fun c => ?_
  split
  · split
    · exact .throw _
    · exact note_blind sends _
  · exact .pure _

theorem send_blind (dst : ClientRef) (msg : Bytes) :
    Blind R (WebsocketServer.send out dst msg) := by
  refine .get_bind (fun w v related => by rw [sends.clients related]) fun w => .forM _ fun c => ?_
  split
  · split
    · exact note_blind sends _
    · exact kick_blind sends _ _ _
  · exact .pure _

theorem answer_blind (msg : Bytes) : Blind R (answer out cid msg) := by
  refine .get_bind (fun w v related => by rw [sends.pool related]) fun w => ?_
  refine .bind (attempt_blind _) fun entry => ?_
  cases entry with
  | some ref => exact send_blind sends ref msg
  | none => exact .throw _

theorem answerCounted_blind (msg : Bytes) : Blind R (answerCounted out cid msg) := by
  refine .get_bind (fun w v related => by rw [sends.pool related]) fun w => ?_
  split
  · exact answer_blind sends msg
  · exact .pure _

end Handling

end DroneServer
