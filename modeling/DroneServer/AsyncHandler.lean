import DroneServer.Core
import DroneServer.Lib.Machine

/-! # `async_handler`: a worker thread with a queue of jobs

The worker tests `!msg_q.empty() || !run` under the mutex and then waits, which
releases the mutex and blocks in one step. `add_job` pushes and notifies with the
mutex held; `stop` stores `run` and notifies without it, so that its notification
can come between the worker's test and its wait, where it wakes nobody.

Each lock, test, wait, store and notification is a step of its own, and any thread
may take the next one.
-/

namespace DroneServer

/-- Where the worker is in its loop; it is in the waiter set of `cv` exactly when it is blocked. -/
inductive WorkerAt where
  /-- `while (run)`. -/
  | check
  | lock
  /-- With the mutex, at the predicate of `cv.wait`. -/
  | test
  /-- The predicate was false. -/
  | wait
  | blocked
  /-- Notified, or woken without cause. -/
  | relock
  /-- With the mutex, past `cv.wait`. -/
  | job
  | unlock
  | done
  deriving DecidableEq, Repr

inductive StopAt where
  | uncalled
  | store
  | notify
  | join
  | returned
  deriving DecidableEq, Repr

inductive AddAt where
  | uncalled
  | lock
  | push
  | notify
  | unlock
  | returned
  deriving DecidableEq, Repr

/-- The worker, the caller of `stop`, and the `n`-th caller of `add_job`. -/
inductive Thread where
  | worker
  | stopper
  | adder (n : Nat)
  deriving DecidableEq, Repr

structure AsyncHandler (α : Type) where
  run : Bool := true
  msgQ : List α := []
  /-- Who holds `msg_qm`. -/
  mutex : Option Thread := none
  worker : WorkerAt := .check
  stopper : StopAt := .uncalled
  adders : Nat → AddAt := fun _ => .uncalled
  /-- The jobs `handle` was called with. -/
  handled : List α := []

namespace AsyncHandler

variable {α : Type}

/-- `cv.notify_one()`. -/
def notifyOne (h : AsyncHandler α) : AsyncHandler α :=
  if h.worker = .blocked then { h with worker := .relock } else h

def stepWorker (h : AsyncHandler α) : AsyncHandler α :=
  match h.worker with
  | .check => { h with worker := if h.run then .lock else .done }
  | .lock | .relock =>
      if h.mutex = none then { h with mutex := some .worker, worker := .test } else h
  | .test => { h with worker := if !h.msgQ.isEmpty || !h.run then .job else .wait }
  | .wait => { h with mutex := none, worker := .blocked }
  | .job =>
      match h.msgQ with
      | [] => { h with worker := .unlock }
      | j :: rest => { h with msgQ := rest, handled := h.handled ++ [j], worker := .unlock }
  | .unlock => { h with mutex := none, worker := .check }
  | .blocked | .done => h

def stepStopper (h : AsyncHandler α) : AsyncHandler α :=
  match h.stopper with
  | .uncalled => { h with stopper := .store }
  | .store => { h with run := false, stopper := .notify }
  | .notify => { h.notifyOne with stopper := .join }
  | .join => if h.worker = .done then { h with stopper := .returned } else h
  | .returned => h

def stepAdder (h : AsyncHandler α) (n : Nat) (j : α) : AsyncHandler α :=
  let at' (h : AsyncHandler α) (place : AddAt) : AsyncHandler α :=
    { h with adders := Function.update h.adders n place }
  match h.adders n with
  | .uncalled => at' h .lock
  | .lock => if h.mutex = none then at' { h with mutex := some (.adder n) } .push else h
  | .push => at' { h with msgQ := h.msgQ ++ [j] } .notify
  | .notify => at' h.notifyOne .unlock
  | .unlock => at' { h with mutex := none } .returned
  | .returned => h

/-- A step of a thread, or a wakeup without cause. -/
inductive Event where
  | thread (t : Thread)
  | spurious
  deriving DecidableEq, Repr

/-- A thread that cannot go on stays where it is. -/
def step (jobs : Nat → α) (h : AsyncHandler α) : Event → AsyncHandler α
  | .thread .worker => h.stepWorker
  | .thread .stopper => h.stepStopper
  | .thread (.adder n) => h.stepAdder n (jobs n)
  | .spurious => h.notifyOne

/-- `stop` has stored `run` and sent its notification. -/
def Notified (h : AsyncHandler α) : Prop := h.stopper = .join ∨ h.stopper = .returned

/-- The worker is blocked although `stop` has sent its notification. -/
def Missed (h : AsyncHandler α) : Prop := h.Notified ∧ h.worker = .blocked

instance (h : AsyncHandler α) : Decidable h.Missed := inferInstanceAs (Decidable ((_ ∨ _) ∧ _))

/-- If `stop` sends its notification, the worker is not between its test and its wait. -/
def InTime (h : AsyncHandler α) (e : Event) : Prop :=
  e = .thread .stopper → h.stopper = .notify → h.worker ≠ .wait

/-- Once `stop` has sent its notification the worker neither waits nor is about to: its next test
    sees that `run` is false. -/
structure Stoppable (h : AsyncHandler α) : Prop where
  stored : h.stopper = .notify ∨ h.Notified → h.run = false
  awake : h.Notified → h.worker ≠ .wait ∧ h.worker ≠ .blocked

end AsyncHandler

/-- A handler with its worker just started; `jobs n` is what the `n`-th `add_job` adds. -/
def asyncHandler {α : Type} (jobs : Nat → α) : Machine (AsyncHandler α) AsyncHandler.Event where
  start := {}
  step := AsyncHandler.step jobs

namespace AsyncHandler

variable {α : Type} {h : AsyncHandler α}

theorem notifyOne_keeps (h : AsyncHandler α) :
    h.notifyOne.run = h.run ∧ h.notifyOne.stopper = h.stopper ∧ h.notifyOne.worker ≠ .blocked ∧
      (h.worker ≠ .wait → h.notifyOne.worker ≠ .wait) := by
  unfold notifyOne
  split
  · exact ⟨rfl, rfl, by simp, by simp⟩
  · next other => exact ⟨rfl, rfl, other, id⟩

theorem Stoppable.of_same {h' : AsyncHandler α} (stoppable : h.Stoppable) (run : h'.run = h.run)
    (stopper : h'.stopper = h.stopper)
    (worker : h'.worker = h.worker ∨ h'.worker = h.notifyOne.worker) : h'.Stoppable := by
  have notified : h'.Notified → h.Notified := by
    unfold Notified
    rw [stopper]
    exact id
  constructor
  · intro sent
    rw [run]
    exact stoppable.stored (sent.imp (stopper ▸ ·) notified)
  · intro sent
    obtain ⟨not_wait, not_blocked⟩ := stoppable.awake (notified sent)
    obtain ⟨_, _, awake, ready⟩ := h.notifyOne_keeps
    obtain same | same := worker <;> rw [same]
    · exact ⟨not_wait, not_blocked⟩
    · exact ⟨ready not_wait, awake⟩

theorem Stoppable.worker (stoppable : h.Stoppable) : h.stepWorker.Stoppable := by
  have moved : ∀ {h' : AsyncHandler α}, h'.run = h.run → h'.stopper = h.stopper →
      (h.Notified → h'.worker ≠ .wait ∧ h'.worker ≠ .blocked) → h'.Stoppable := by
    intro h' run stopper awake
    refine ⟨fun sent => ?_, fun sent => awake ?_⟩
    · rw [run]
      unfold Notified at sent
      rw [stopper] at sent
      exact stoppable.stored sent
    · unfold Notified at sent ⊢
      rwa [stopper] at sent
  unfold stepWorker
  split
  · exact moved rfl rfl fun _ => by split <;> simp
  · split
    · exact moved rfl rfl fun _ => by simp
    · exact stoppable
  · split
    · exact moved rfl rfl fun _ => by simp
    · exact stoppable
  · -- the test after the notification sees `run` false
    refine moved rfl rfl fun sent => ?_
    rw [stoppable.stored (.inr sent)]
    simp
  · next waits => exact moved rfl rfl fun sent => absurd waits (stoppable.awake sent).1
  · split <;> exact moved rfl rfl fun _ => by simp
  · exact moved rfl rfl fun _ => by simp
  · exact stoppable
  · exact stoppable

theorem Stoppable.stopper (stoppable : h.Stoppable) (inTime : h.InTime (.thread .stopper)) :
    h.stepStopper.Stoppable := by
  unfold stepStopper
  split
  · exact ⟨fun sent => by simp [Notified] at sent, fun sent => by simp [Notified] at sent⟩
  · exact ⟨fun _ => rfl, fun sent => by simp [Notified] at sent⟩
  · next sending =>
      obtain ⟨run, _, awake, ready⟩ := h.notifyOne_keeps
      refine ⟨fun _ => run.trans (stoppable.stored (.inl sending)), fun _ => ?_⟩
      exact ⟨ready (inTime rfl sending), awake⟩
  · next joining =>
      split
      · refine ⟨fun _ => stoppable.stored (.inr (.inl joining)), fun _ => ?_⟩
        exact stoppable.awake (.inl joining)
      · exact stoppable
  · exact stoppable

theorem Stoppable.adder (stoppable : h.Stoppable) (n : Nat) (j : α) :
    (h.stepAdder n j).Stoppable := by
  obtain ⟨run, stopper, _⟩ := h.notifyOne_keeps
  unfold stepAdder
  simp only
  split
  · exact stoppable.of_same rfl rfl (.inl rfl)
  · split
    · exact stoppable.of_same rfl rfl (.inl rfl)
    · exact stoppable
  · exact stoppable.of_same rfl rfl (.inl rfl)
  · exact stoppable.of_same run stopper (.inr rfl)
  · exact stoppable.of_same rfl rfl (.inl rfl)
  · exact stoppable

theorem Stoppable.step {jobs : Nat → α} {e : Event} (stoppable : h.Stoppable)
    (inTime : h.InTime e) : (h.step jobs e).Stoppable := by
  cases e with
  | spurious =>
      obtain ⟨run, stopper, _⟩ := h.notifyOne_keeps
      exact stoppable.of_same run stopper (.inr rfl)
  | thread t =>
      cases t with
      | worker => exact stoppable.worker
      | stopper => exact stoppable.stopper inTime
      | adder n => exact stoppable.adder n (jobs n)

theorem Stoppable.not_missed (stoppable : h.Stoppable) : ¬ h.Missed :=
  fun ⟨sent, blocked⟩ => (stoppable.awake sent).2 blocked

/-- A notification between the worker's test and its wait is lost: the next step of the worker
    blocks it. -/
theorem missed_of_late {jobs : Nat → α} {e : Event} (late : ¬ h.InTime e) :
    ((h.step jobs e).step jobs (.thread .worker)).Missed := by
  unfold InTime at late
  push Not at late
  obtain ⟨rfl, sending, waits⟩ := late
  have stays : h.notifyOne = h := by
    rw [notifyOne, waits]
    rfl
  have sent : h.step jobs (.thread .stopper) = { h with stopper := .join } := by
    simp only [step, stepStopper, sending, stays]
  rw [sent]
  simp only [step, stepWorker, waits]
  exact ⟨.inl rfl, rfl⟩

/-- Once its notification is lost `stop` waits for ever, unless a job is added or the worker wakes
    without cause. -/
theorem missed_for_good {jobs : Nat → α} (missed : h.Missed) (joining : h.stopper = .join)
    (events : List Event)
    (only : ∀ e ∈ events, e = .thread .worker ∨ e = .thread .stopper) :
    (asyncHandler jobs).exec h events = h := by
  have worker : h.stepWorker = h := by simp only [stepWorker, missed.2]
  have stopper : h.stepStopper = h := by simp [stepStopper, joining, missed.2]
  induction events with
  | nil => rfl
  | cons e events ih =>
      have still : (asyncHandler jobs).step h e = h := by
        obtain rfl | rfl := only e List.mem_cons_self
        · exact worker
        · exact stopper
      rw [Machine.exec_cons, still]
      exact ih fun e later => only e (List.mem_cons_of_mem _ later)

end AsyncHandler

/-- In a run in which `stop` never sends its notification between the worker's test and its wait,
    and in no other, the notification is never missed, nor about to be by the worker's next step. -/
theorem stop_not_missed {α : Type} (jobs : Nat → α) (events : List AsyncHandler.Event) :
    (asyncHandler jobs).Always
        (fun h => ¬ h.Missed ∧ ¬ (h.step jobs (.thread .worker)).Missed) events ↔
      (asyncHandler jobs).Steps AsyncHandler.InTime events := by
  refine Machine.always_iff (I := AsyncHandler.Stoppable) ?_ ?_ ?_ ?_
  · exact ⟨fun sent => by simp [AsyncHandler.Notified, asyncHandler] at sent,
      fun sent => by simp [AsyncHandler.Notified, asyncHandler] at sent⟩
  · intro h stoppable
    have next : (h.step jobs (.thread .worker)).Stoppable := stoppable.step fun same => by cases same
    exact ⟨stoppable.not_missed, next.not_missed⟩
  · exact fun h e stoppable inTime => stoppable.step inTime
  · exact fun h e _ late safe => safe.2 (AsyncHandler.missed_of_late late)

/-- The worker tests, `stop` stores and notifies, the worker waits. -/
theorem stop_missed_between_test_and_wait :
    ¬ ∀ events : List AsyncHandler.Event, ¬ ((asyncHandler fun n : Nat => n).run events).Missed := by
  intro never
  exact never [.thread .worker, .thread .worker, .thread .worker, .thread .stopper,
    .thread .stopper, .thread .stopper, .thread .worker] (by decide)

end DroneServer
