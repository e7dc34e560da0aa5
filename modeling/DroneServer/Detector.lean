import DroneServer.Jobs
import DroneServer.Media.Frames
import DroneServer.Websocket.World
import Mathlib.Data.List.Chain

/-! # `VehicleDetector`: a writer that looks at a frame a second

The streaming thread clones a frame for the detector's worker if the last one it
looked at is a second old and somebody wants to know; the worker converts it, looks
for vehicles and tells every client in `dsts` that is in the client pool. Here the
worker, the streaming thread and the threads of the clients take turns as they like,
and `add_job` takes its own steps on the way.
-/

namespace DroneServer

/-- `ClientFramePacked`. -/
structure ClientFramePacked where
  cid : ClientId
  frame : AvFrame
  deriving DecidableEq, Repr

/-- Clock ticks in a second: `steady_clock` counts nanoseconds. -/
def second : Int := 1000000000

structure Detection where
  detector : VehicleDetector := { writer := 0 }
  handler : AsyncHandler ClientFramePacked := {}
  /-- When a frame was looked at last, or the detector made. -/
  last : Int
  /-- The frames `write_frame` cloned, each with its call of `add_job`. -/
  cloned : List ClientFramePacked := []
  /-- When it did. -/
  times : List Int := []
  /-- The frames `handle` freed: one it cannot convert it returns from early. -/
  freed : List ClientFramePacked := []
  /-- The clients `handle` sent to, in order. -/
  told : List ClientId := []

namespace Detection

/-- What can happen next. The clock shows any time; `sws_scale_frame` succeeds or does not; the pool
    is as it is when `handle` looks. -/
inductive Event where
  /-- `write_frame`, on the streaming thread. -/
  | writeFrame (now : Int) (job : ClientFramePacked)
  /-- The streaming thread goes on in `add_job`. -/
  | adder
  | worker (converts : Bool) (pool : ClientPool)
  | stopper
  | spurious
  /-- `add` and `del`, on a client's thread. -/
  | add (cid : ClientId)
  | del (cid : ClientId)

/-- The call of `add_job` made last. -/
def current (d : Detection) : Nat := d.cloned.length - 1

/-- The streaming thread is not inside `write_frame`. -/
def Idle (d : Detection) : Prop := d.cloned = [] ∨ d.handler.adders d.current = .returned

instance (d : Detection) : Decidable d.Idle := inferInstanceAs (Decidable (_ ∨ _))

/-- `write_frame`. The time is noted before `dsts` is looked at. -/
def writeFrame (d : Detection) (now : Int) (job : ClientFramePacked) : Detection :=
  if now - d.last < second then d
  else
    let d := { d with last := now }
    if d.detector.dsts = [] then d
    else
      { d with
        cloned := d.cloned ++ [job]
        times := d.times ++ [now]
        handler := d.handler.stepAdder d.cloned.length job }

/-- `cpool.count(c)`, and the entry is a client: every client is a `FlightDataClient`. -/
def reaches (pool : ClientPool) (c : ClientId) : Bool :=
  pool.count c && (pool.clientIds c).join.isSome

/-- `handle`. `dsts` goes by the size of the identifiers. -/
def handle (d : Detection) (converts : Bool) (pool : ClientPool) (job : ClientFramePacked) :
    Detection :=
  if !converts then d
  else
    { d with
      told := d.told ++ (d.detector.dsts.mergeSort (· ≤ ·)).filter (reaches pool)
      freed := d.freed ++ [job] }

/-- A step of the worker; the one that takes a job handles it. -/
def stepWorker (d : Detection) (converts : Bool) (pool : ClientPool) : Detection :=
  let d' := { d with handler := d.handler.stepWorker }
  match d.handler.worker, d.handler.msgQ with
  | .job, job :: _ => d'.handle converts pool job
  | _, _ => d'

def step (d : Detection) : Event → Detection
  | .writeFrame now job => if d.Idle then d.writeFrame now job else d
  | .adder =>
      match d.cloned[d.current]? with
      | some job => { d with handler := d.handler.stepAdder d.current job }
      | none => d
  | .worker converts pool => d.stepWorker converts pool
  | .stopper => { d with handler := d.handler.stepStopper }
  | .spurious => { d with handler := d.handler.notifyOne }
  | .add cid => { d with detector := d.detector.add cid }
  | .del cid => { d with detector := d.detector.del cid }

end Detection

/-- A detector from the time it is made. -/
def detection (start : Int) : Machine Detection Detection.Event where
  start := { last := start }
  step := Detection.step

namespace AsyncHandler

variable {α : Type}

theorem stepAdder_queue (h : AsyncHandler α) (n : Nat) (j : α) :
    (∀ m, m ≠ n → (h.stepAdder n j).adders m = h.adders m) ∧
    (h.stepAdder n j).handled = h.handled ∧
    ((h.adders n = .push ∧ (h.stepAdder n j).msgQ = h.msgQ ++ [j] ∧
        ((h.stepAdder n j).adders n).Pushed) ∨
      (h.stepAdder n j).msgQ = h.msgQ ∧
        (((h.stepAdder n j).adders n).Pushed ↔ (h.adders n).Pushed)) := by
  obtain ⟨adders, handled, msgQ⟩ := h.notifyOne_queue
  unfold stepAdder
  simp only
  split
  · next uncalled =>
      refine ⟨fun m other => Function.update_of_ne other .., rfl, .inr ⟨rfl, ?_⟩⟩
      simp [uncalled, AddAt.Pushed]
  · next locking =>
      split
      · refine ⟨fun m other => Function.update_of_ne other .., rfl, .inr ⟨rfl, ?_⟩⟩
        simp [locking, AddAt.Pushed]
      · exact ⟨fun _ _ => rfl, rfl, .inr ⟨rfl, .rfl⟩⟩
  · next pushing =>
      refine ⟨fun m other => Function.update_of_ne other .., rfl, .inl ⟨pushing, rfl, ?_⟩⟩
      simp [AddAt.Pushed]
  · next notifying =>
      refine ⟨fun m other => ?_, handled, .inr ⟨msgQ, ?_⟩⟩
      · simp only [adders]
        exact Function.update_of_ne other ..
      · simp [notifying, AddAt.Pushed]
  · next unlocking =>
      refine ⟨fun m other => Function.update_of_ne other .., rfl, .inr ⟨rfl, ?_⟩⟩
      simp [unlocking, AddAt.Pushed]
  · exact ⟨fun _ _ => rfl, rfl, .inr ⟨rfl, .rfl⟩⟩

theorem stepAdder_stopper (h : AsyncHandler α) (n : Nat) (j : α) :
    (h.stepAdder n j).stopper = h.stopper := by
  unfold stepAdder
  simp only
  split
  any_goals rfl
  · split <;> rfl
  · exact h.notifyOne_keeps.2.1

theorem stepWorker_idle {h : AsyncHandler α}
    (idle : ∀ job rest, h.worker = .job → h.msgQ ≠ job :: rest) :
    h.stepWorker.handled = h.handled := by
  unfold stepWorker
  split
  any_goals rfl
  · split <;> rfl
  · split <;> rfl
  · next at_job =>
      split
      · rfl
      · next waiting => exact absurd waiting (idle _ _ at_job)

end AsyncHandler

namespace Detection

variable {d : Detection} {start : Int}

/-- The frame whose `add_job` has not pushed it yet, if there is one. -/
def pending (d : Detection) : List ClientFramePacked :=
  if (d.handler.adders d.current).Pushed then [] else d.cloned.drop d.current

/-- What holds of a detector made at `start`: the frames cloned are handled, waiting or about to be
    pushed, in this order; they were cloned a second apart; and no client is told more often than
    frames were freed. -/
structure Sound (start : Int) (d : Detection) : Prop where
  later : ∀ n, d.cloned.length ≤ n → d.handler.adders n = .uncalled
  filed : d.handler.handled ++ d.handler.msgQ ++ d.pending = d.cloned
  counted : d.times.length = d.cloned.length
  spaced : (start :: d.times).IsChain fun a b => a + second ≤ b
  recent : (d.times.getLastD start) ≤ d.last
  freed : d.freed.Sublist d.handler.handled
  once : d.detector.dsts.Nodup
  told : ∀ c, d.told.count c ≤ d.freed.length

/-- A change of the handler that moves its jobs at most from the queue to those handled, with no
    caller of `add_job` pushing. -/
theorem Sound.moved {h : AsyncHandler ClientFramePacked} (sound : d.Sound start)
    (adders : h.adders = d.handler.adders)
    (queue : h.handled ++ h.msgQ = d.handler.handled ++ d.handler.msgQ)
    (handled : d.handler.handled <+: h.handled) : { d with handler := h }.Sound start where
  later n beyond := by
    simp only [adders]
    exact sound.later n beyond
  filed := by
    have same : { d with handler := h }.pending = d.pending := by
      unfold pending
      congr 2
      exact congrFun adders d.current
    rw [same, queue]
    exact sound.filed
  counted := sound.counted
  spaced := sound.spaced
  recent := sound.recent
  freed := sound.freed.trans handled.sublist
  once := sound.once
  told := sound.told

theorem Sound.worker (sound : d.Sound start) (converts : Bool) (pool : ClientPool) :
    (d.stepWorker converts pool).Sound start := by
  obtain ⟨adders, queue⟩ := d.handler.stepWorker_queue
  unfold stepWorker
  simp only
  split
  · next job rest at_job waiting =>
      -- this step takes the job at the front, and handles it
      have taken : d.handler.stepWorker.handled = d.handler.handled ++ [job] := by
        simp only [AsyncHandler.stepWorker, at_job, waiting]
      have moved := sound.moved adders queue (taken ▸ List.prefix_append _ _)
      unfold handle
      split
      · exact moved
      · refine ⟨moved.later, moved.filed, moved.counted, moved.spaced, moved.recent, ?_, moved.once,
          fun c => ?_⟩
        · simp only [taken]
          exact sound.freed.append (List.Sublist.refl [job])
        · have one : ((d.detector.dsts.mergeSort (· ≤ ·)).filter (reaches pool)).count c ≤ 1 :=
            List.nodup_iff_count_le_one.mp
              (((List.mergeSort_perm ..).nodup_iff.mpr sound.once).filter _) c
          have before := sound.told c
          simp only [List.count_append, List.length_append, List.length_singleton]
          omega
  · refine sound.moved adders queue ?_
    unfold AsyncHandler.stepWorker
    split
    any_goals exact List.prefix_refl _
    all_goals split
    any_goals exact List.prefix_refl _
    exact List.prefix_append _ _

theorem Sound.writeFrame (sound : d.Sound start) (idle : d.Idle) (now : Int)
    (job : ClientFramePacked) : (d.writeFrame now job).Sound start := by
  unfold Detection.writeFrame
  split
  · exact sound
  next old =>
    have last : d.last ≤ now := by
      unfold second at old
      omega
    simp only
    split
    · exact ⟨sound.later, sound.filed, sound.counted, sound.spaced, Int.le_trans sound.recent last,
        sound.freed, sound.once, sound.told⟩
    · have uncalled := sound.later _ (Nat.le_refl _)
      obtain ⟨others, handled, moves⟩ := d.handler.stepAdder_queue d.cloned.length job
      obtain ⟨pushing, _⟩ | ⟨msgQ, pushed⟩ := moves
      · rw [uncalled] at pushing
        cases pushing
      have none : d.pending = [] := by
        unfold pending
        rcases idle with empty | returned
        · simp [empty]
        · simp [returned, AddAt.Pushed]
      refine ⟨fun n beyond => ?_, ?_, ?_, ?_, ?_, ?_, sound.once, sound.told⟩
      · rw [List.length_append, List.length_singleton] at beyond
        rw [others n (by omega)]
        exact sound.later n (by omega)
      · have not_pushed : ¬ ((d.handler.stepAdder d.cloned.length job).adders
            d.cloned.length).Pushed := by
          rw [pushed, uncalled]
          exact id
        simp only [pending, current, List.length_append, List.length_singleton, Nat.add_sub_cancel,
          not_pushed, if_false, List.drop_left, handled, msgQ]
        have filed := sound.filed
        rw [none, List.append_nil] at filed
        rw [filed]
      · simp [sound.counted]
      · rw [← List.cons_append]
        refine List.isChain_append.mpr ⟨sound.spaced, List.isChain_singleton _, ?_⟩
        intro a final b first
        cases first
        have recent := sound.recent
        have same : d.times.getLastD start = a := by
          cases times : d.times with
          | nil =>
              rw [times] at final
              simpa using final
          | cons t rest =>
              rw [times] at final
              simp only [List.getLast?_cons_cons] at final
              rw [List.getLastD_eq_getLast?, final]
              rfl
        rw [same] at recent
        omega
      · simp
      · simp only [handled]
        exact sound.freed

theorem Sound.adder (sound : d.Sound start) : (d.step .adder).Sound start := by
  simp only [Detection.step]
  split
  next job here =>
    have inside : d.current < d.cloned.length := (List.getElem?_eq_some_iff.mp here).1
    obtain ⟨others, handled, moves⟩ := d.handler.stepAdder_queue d.current job
    have rest : d.cloned.drop d.current = [job] := by
      rw [List.drop_eq_getElem_cons inside, (List.getElem?_eq_some_iff.mp here).2]
      unfold current
      simp only [List.cons.injEq, true_and]
      exact List.drop_eq_nil_of_le (by omega)
    refine ⟨fun n beyond => ?_, ?_, sound.counted, sound.spaced, sound.recent,
      by simp only [handled]; exact sound.freed, sound.once, sound.told⟩
    · simp only at beyond ⊢
      rw [others n (by omega)]
      exact sound.later n beyond
    · have filed := sound.filed
      simp only [pending] at filed ⊢
      have same : ({ d with handler := d.handler.stepAdder d.current job } : Detection).current =
          d.current := rfl
      rw [same]
      simp only [rest] at filed ⊢
      obtain ⟨pushing, msgQ, pushed⟩ | ⟨msgQ, pushed⟩ := moves
      · rw [if_neg (by rw [pushing]; exact id)] at filed
        rw [if_pos pushed, handled, msgQ, List.append_nil, ← List.append_assoc]
        exact filed
      · rw [handled, msgQ]
        by_cases before : (d.handler.adders d.current).Pushed
        · rw [if_pos before] at filed
          rwa [if_pos (pushed.mpr before)]
        · rw [if_neg before] at filed
          rwa [if_neg (before ∘ pushed.mp)]
  · exact sound

theorem Sound.step (sound : d.Sound start) (e : Event) : (d.step e).Sound start := by
  cases e with
  | writeFrame now job =>
      simp only [Detection.step]
      split
      · next idle => exact sound.writeFrame idle now job
      · exact sound
  | adder => exact sound.adder
  | worker converts pool => exact sound.worker converts pool
  | stopper =>
      obtain ⟨adders, queue⟩ := d.handler.stepStopper_queue
      refine sound.moved adders queue ?_
      unfold AsyncHandler.stepStopper
      split
      any_goals exact List.prefix_refl _
      · simp only [d.handler.notifyOne_queue.2.1]
        exact List.prefix_refl _
      · split <;> exact List.prefix_refl _
  | spurious =>
      obtain ⟨adders, handled, msgQ⟩ := d.handler.notifyOne_queue
      exact sound.moved adders (by rw [handled, msgQ]) (by rw [handled])
  | add cid =>
      refine ⟨sound.later, sound.filed, sound.counted, sound.spaced, sound.recent, sound.freed, ?_,
        sound.told⟩
      simp only [Detection.step, VehicleDetector.add]
      split
      · exact sound.once
      · next fresh =>
          refine List.nodup_append.mpr ⟨sound.once, List.nodup_singleton cid, ?_⟩
          rintro x inside y last rfl
          exact fresh (List.mem_singleton.mp last ▸ inside)
  | del cid =>
      exact ⟨sound.later, sound.filed, sound.counted, sound.spaced, sound.recent, sound.freed,
        sound.once.filter _, sound.told⟩

theorem Sound.run (start : Int) (events : List Event) :
    ((detection start).run events).Sound start := by
  refine (Machine.Reachable.run (detection start) events).invariant ?_
    fun _ e sound => sound.step e
  exact ⟨fun _ _ => rfl, by simp [detection, pending], rfl, List.isChain_singleton _, Int.le_refl _,
    List.nil_sublist _, List.nodup_nil, fun c => by simp [detection]⟩

theorem spaced_length {times : List Int}
    (spaced : (start :: times).IsChain fun a b => a + second ≤ b) :
    times.length * second ≤ times.getLastD start - start := by
  induction times generalizing start with
  | nil => simp
  | cons t times ih =>
      obtain ⟨first, rest⟩ := List.isChain_cons_cons.mp spaced
      have later := ih rest
      have same : (t :: times).getLastD start = times.getLastD t := by
        cases times <;> simp [List.getLastD]
      rw [same, List.length_cons]
      push_cast
      rw [Int.add_mul, Int.one_mul]
      omega

end Detection

/-- However fast the frames come and whatever the clock shows, the frames looked at are a second
    apart at least, counted from when the detector was made; and no client is told of vehicles more
    often than once a second over the whole run. -/
theorem detections_limited (start : Int) (events : List Detection.Event) (cid : ClientId) :
    ((start :: ((detection start).run events).times).IsChain fun a b => a + second ≤ b) ∧
      ((detection start).run events).told.count cid * second ≤
        ((detection start).run events).last - start := by
  have sound := Detection.Sound.run start events
  generalize (detection start).run events = d at sound ⊢
  refine ⟨sound.spaced, ?_⟩
  have told : d.told.count cid ≤ d.times.length := by
    have filed := congrArg List.length sound.filed
    simp only [List.length_append] at filed
    have := sound.told cid
    have := sound.freed.length_le
    have := sound.counted
    omega
  have length := Detection.spaced_length sound.spaced
  have recent := sound.recent
  have few : (d.told.count cid : Int) * second ≤ d.times.length * second :=
    Int.mul_le_mul_of_nonneg_right (by exact_mod_cast told) (by decide)
  omega

namespace Detection

variable {d : Detection}

theorem step_handler (d : Detection) (e : Event) : (d.step e).handler = d.handler ∨
    ∃ jobs e', (d.step e).handler = d.handler.step jobs e' := by
  cases e with
  | writeFrame now job =>
      simp only [Detection.step, writeFrame]
      split
      · split
        · exact .inl rfl
        · split
          · exact .inl rfl
          · exact .inr ⟨fun _ => job, .thread (.adder d.cloned.length), rfl⟩
      · exact .inl rfl
  | adder =>
      simp only [Detection.step]
      split
      · next job _ => exact .inr ⟨fun _ => job, .thread (.adder d.current), rfl⟩
      · exact .inl rfl
  | worker converts pool =>
      refine .inr ⟨fun _ => { cid := 0, frame := {} }, .thread .worker, ?_⟩
      simp only [Detection.step, stepWorker]
      split
      · unfold handle
        split <;> rfl
      · rfl
  | stopper => exact .inr ⟨fun _ => { cid := 0, frame := {} }, .thread .stopper, rfl⟩
  | spurious => exact .inr ⟨fun _ => { cid := 0, frame := {} }, .spurious, rfl⟩
  | add cid | del cid => exact .inl rfl

theorem step_joined (joined : d.handler.Joined) (e : Event) : (d.step e).handler.Joined := by
  obtain same | ⟨jobs, e', step⟩ := d.step_handler e
  · rwa [same]
  · rw [step]
    exact joined.step e'

/-- A detector whose `stop` has returned frees nothing more and tells nobody. -/
theorem step_returned (joined : d.handler.Joined) (returned : d.handler.stopper = .returned)
    (e : Event) : (d.step e).handler.stopper = .returned ∧ (d.step e).freed = d.freed ∧
      (d.step e).told = d.told := by
  have done := joined.done returned
  cases e with
  | writeFrame now job =>
      simp only [Detection.step, writeFrame]
      split
      · split
        · exact ⟨returned, rfl, rfl⟩
        · split
          · exact ⟨returned, rfl, rfl⟩
          · exact ⟨(d.handler.stepAdder_stopper ..).trans returned, rfl, rfl⟩
      · exact ⟨returned, rfl, rfl⟩
  | adder =>
      simp only [Detection.step]
      split
      · exact ⟨(d.handler.stepAdder_stopper ..).trans returned, rfl, rfl⟩
      · exact ⟨returned, rfl, rfl⟩
  | worker converts pool =>
      simp [Detection.step, stepWorker, AsyncHandler.stepWorker, done, returned]
  | stopper => simp [Detection.step, AsyncHandler.stepStopper, returned]
  | spurious => exact ⟨d.handler.notifyOne_keeps.2.1.trans returned, rfl, rfl⟩
  | add cid | del cid => exact ⟨returned, rfl, rfl⟩

end Detection

namespace Detection

/-- For each call of `handle`, in order, whether the frame was converted. -/
def noteOutcome (outcomes : List Bool) (d : Detection) : Event → List Bool
  | .worker converts _ =>
      match d.handler.worker, d.handler.msgQ with
      | .job, _ :: _ => outcomes ++ [converts]
      | _, _ => outcomes
  | _ => outcomes

def outcomes (start : Int) (events : List Event) : List Bool :=
  (((detection start).noting [] noteOutcome).run events).2

/-- The frames handled that were converted. -/
def converted (handled : List ClientFramePacked) (outcomes : List Bool) : List ClientFramePacked :=
  ((handled.zip outcomes).filter (·.2)).map (·.1)

variable {d : Detection} {results : List Bool}

/-- There is an outcome for each frame handled, and those converted are freed. -/
structure Freed (d : Detection) (results : List Bool) : Prop where
  each : results.length = d.handler.handled.length
  freed : d.freed = converted d.handler.handled results

theorem converted_snoc {handled : List ClientFramePacked}
    (each : results.length = handled.length) (job : ClientFramePacked) (converts : Bool) :
    converted (handled ++ [job]) (results ++ [converts]) =
      converted handled results ++ if converts then [job] else [] := by
  unfold converted
  rw [List.zip_append each.symm, List.filter_append, List.map_append]
  cases converts <;> rfl

theorem Freed.same (freed : d.Freed results) {d' : Detection}
    (handled : d'.handler.handled = d.handler.handled) (still : d'.freed = d.freed) :
    d'.Freed results :=
  ⟨by rw [handled]; exact freed.each, by rw [still, handled]; exact freed.freed⟩

theorem Freed.step (freed : d.Freed results) (e : Event) :
    (d.step e).Freed (noteOutcome results d e) := by
  cases e with
  | worker converts pool =>
      simp only [Detection.step, stepWorker, noteOutcome]
      split
      · next job rest at_job waiting =>
          -- the frame at the front is handled, and freed if it is converted
          have taken : d.handler.stepWorker.handled = d.handler.handled ++ [job] := by
            simp only [AsyncHandler.stepWorker, at_job, waiting]
          have before := freed.freed
          have snoc := converted_snoc freed.each job converts
          unfold handle
          cases converts with
          | false =>
              rw [if_neg (by decide), List.append_nil] at snoc
              refine ⟨?_, ?_⟩
              · simp [taken, freed.each]
              · simp only [Bool.not_false, if_true, taken, snoc]
                exact before
          | true =>
              rw [if_pos rfl] at snoc
              refine ⟨?_, ?_⟩
              · simp [taken, freed.each]
              · simp only [Bool.not_true, Bool.false_eq_true, if_false, taken, snoc, before]
      · next idle => exact freed.same (AsyncHandler.stepWorker_idle idle) rfl
  | writeFrame now job =>
      simp only [Detection.step, noteOutcome]
      split
      · unfold writeFrame
        split
        · exact freed
        · simp only
          split
          · exact freed.same rfl rfl
          · exact freed.same (d.handler.stepAdder_queue ..).2.1 rfl
      · exact freed
  | adder =>
      simp only [Detection.step, noteOutcome]
      split
      · exact freed.same (d.handler.stepAdder_queue ..).2.1 rfl
      · exact freed
  | stopper =>
      refine freed.same ?_ rfl
      simp only [Detection.step, AsyncHandler.stepStopper]
      split
      any_goals rfl
      · exact d.handler.notifyOne_queue.2.1
      · split <;> rfl
  | spurious => exact freed.same d.handler.notifyOne_queue.2.1 rfl
  | add cid | del cid => exact freed.same rfl rfl

theorem Freed.run (start : Int) (events : List Event) :
    ((detection start).run events).Freed (outcomes start events) := by
  have noted := (Machine.Reachable.run ((detection start).noting [] noteOutcome) events).invariant
    (P := fun s => Freed s.1 s.2) ⟨rfl, rfl⟩ fun _ e freed => freed.step e
  rwa [Machine.noting_run] at noted

end Detection

/-- Every frame cloned is accounted for, and nowhere twice: in the order in which they were cloned
    the frames are handled, in the queue, or, one at most, on their way to it. Freed are, of those
    handled, exactly the ones that were converted; and once `stop` has returned nothing more is freed
    and nobody told, so that the frames in the queue, and those not converted, stay allocated. -/
theorem frames_accounted (start : Int) (events more : List Detection.Event) :
    let d := (detection start).run events
    let outcomes := Detection.outcomes start events
    (∃ coming : List ClientFramePacked, coming.length ≤ 1 ∧
      d.handler.handled ++ d.handler.msgQ ++ coming = d.cloned) ∧
    (outcomes.length = d.handler.handled.length ∧
      d.freed = Detection.converted d.handler.handled outcomes) ∧
    (d.handler.stopper = .returned →
      ((detection start).run (events ++ more)).freed = d.freed ∧
      ((detection start).run (events ++ more)).told = d.told) := by
  have sound := Detection.Sound.run start events
  have freed := Detection.Freed.run start events
  have joined := (Machine.Reachable.run (detection start) events).invariant
    (P := fun d => d.handler.Joined) ⟨by simp [detection], by simp [detection]⟩
    fun _ e joined => Detection.step_joined joined e
  have later : (detection start).run (events ++ more) =
      (detection start).exec ((detection start).run events) more := by
    rw [Machine.run, Machine.exec_append]
    rfl
  simp only [later]
  generalize (detection start).run events = d at *
  refine ⟨⟨d.pending, ?_, sound.filed⟩, ⟨freed.each, freed.freed⟩, fun returned => ?_⟩
  · unfold Detection.pending
    split
    · exact Nat.zero_le _
    · rw [List.length_drop, Detection.current]
      omega
  · clear later sound freed
    induction more generalizing d with
    | nil => exact ⟨rfl, rfl⟩
    | cons e more ih =>
        obtain ⟨returned', freed, told⟩ := Detection.step_returned joined returned e
        obtain ⟨freed', told'⟩ := ih (d.step e) (Detection.step_joined joined e) returned'
        exact ⟨freed'.trans freed, told'.trans told⟩

end DroneServer
