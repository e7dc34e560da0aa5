import DroneServer.Websocket.Connections
import DroneServer.Websocket.Repeats

/-! # What sending posts

Where no connection of a client refuses, sending to it posts the text once on each of
its connections, in the order of the table, and does nothing else.
-/

namespace DroneServer

open Handling

namespace World

/-- The connections of a client. -/
def wires (w : World) (ref : ClientRef) : List ConnId :=
  (w.clients.entries.filter fun c => c.2 = some ref).map Prod.fst

/-- The text, once on each of them. -/
def posts (w : World) (ref : ClientRef) (text : Bytes) : List Effect :=
  (w.wires ref).map fun conn => .sent conn text

/-- Each of them can be sent on. -/
def Reached (w : World) (out : Outside) (ref : ClientRef) : Prop :=
  ∀ conn ∈ w.wires ref, out.sendThrows conn = none

instance (w : World) (out : Outside) (ref : ClientRef) : Decidable (w.Reached out ref) :=
  inferInstanceAs (Decidable (∀ conn ∈ w.wires ref, _))

variable {w : World} {out : Outside} {ref : ClientRef}

theorem mem_wires {conn : ConnId} : conn ∈ w.wires ref ↔ w.client conn = some ref := by
  rw [client_eq_some]
  simp [wires]

@[simp] theorem add_nil (w : World) : w.add [] = w := by
  simp [add]

end World

variable {w : World} {out : Outside} {ref : ClientRef}

/-- A loop whose rounds each post something posts all of it. -/
theorem Handling.forM_posts {α : Type} {f : α → Handling Unit} {g : α → List Effect}
    (entries : List α) (round : ∀ a ∈ entries, ∀ effects,
      f a (w.add effects) = .ok ⟨⟩ (w.add (effects ++ g a))) (effects : List Effect) :
    entries.forM f (w.add effects) = .ok ⟨⟩ (w.add (effects ++ entries.flatMap g)) := by
  induction entries generalizing effects with
  | nil =>
      rw [List.flatMap_nil, List.append_nil]
      rfl
  | cons a entries ih =>
      have rest := ih (fun b inside => round b (.tail _ inside)) (effects ++ g a)
      rw [List.append_assoc] at rest
      exact (run_bind (round a (.head _) effects)).trans rest

theorem send_posts (reached : w.Reached out ref) (text : Bytes) (effects : List Effect) :
    WebsocketServer.send out ref text (w.add effects) =
      .ok ⟨⟩ (w.add (effects ++ w.posts ref text)) := by
  let g : ConnId × Option ClientRef → List Effect :=
    fun c => if c.2 = some ref then [.sent c.1 text] else []
  have all : w.clients.entries.flatMap g = w.posts ref text := by
    unfold World.posts World.wires
    induction w.clients.entries with
    | nil => rfl
    | cons c entries ih =>
        rw [List.flatMap_cons, ih, List.filter_cons]
        by_cases own : c.2 = some ref <;> simp [g, own]
  rw [← all]
  refine Handling.forM_posts w.clients.entries (fun c inside effects => ?_) effects
  by_cases own : c.2 = some ref
  · have sent : out.sendThrows c.1 = none :=
      reached c.1 (World.mem_wires.mpr (World.client_eq_some.mpr (own ▸ inside)))
    simp only [own, if_true, sent, g]
    change EStateM.Result.ok PUnit.unit ((w.add effects).note (.sent c.1 text)) = _
    rw [World.add, World.add, World.note, List.append_assoc]
  · simp only [own, if_false, g, List.append_nil]
    rfl

theorem send_all (refs : List ClientRef) (reached : ∀ ref ∈ refs, w.Reached out ref)
    (text : Bytes) (effects : List Effect) :
    (refs.forM fun ref => WebsocketServer.send out ref text) (w.add effects) =
      .ok ⟨⟩ (w.add (effects ++ refs.flatMap fun ref => w.posts ref text)) :=
  Handling.forM_posts refs (fun ref inside => send_posts (reached ref inside) text) effects

theorem answer_posts {cid : ClientId} (named : w.pool.clientIds cid = some (some ref))
    (reached : w.Reached out ref) (text : Bytes) :
    answer out cid text w = .ok ⟨⟩ (w.add (w.posts ref text)) := by
  have sent := send_posts reached text []
  rw [World.add_nil, List.nil_append] at sent
  unfold answer
  rw [run_bind (show (get : Handling World) w = .ok w w from rfl), ClientPool.client, named]
  exact sent

theorem answerCounted_posts {cid : ClientId} (named : w.pool.clientIds cid = some (some ref))
    (reached : w.Reached out ref) (text : Bytes) :
    answerCounted out cid text w = .ok ⟨⟩ (w.add (w.posts ref text)) := by
  unfold answerCounted
  rw [run_bind (show (get : Handling World) w = .ok w w from rfl), ClientPool.count, named]
  exact answer_posts named reached text

end DroneServer
