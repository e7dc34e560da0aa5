import DroneServer.AsyncHandler
import DroneServer.Lib.Lock
import Mathlib.Data.List.Nodup

/-! # What becomes of the jobs of an `async_handler`

The queue is only touched with `msg_qm` held, so the jobs are handled one at a
time and in the order in which their `add_job` pushed them. No wakeup of a worker
with something to do is lost, and a worker left alone empties its queue. Once
`stop` has stored `run` the worker takes one more job at most, and the rest of the
queue is dropped without a word.
-/

namespace DroneServer

/-- The worker has `msg_qm`. -/
def WorkerAt.Inside : WorkerAt → Prop
  | .test | .wait | .job | .unlock => True
  | .check | .lock | .blocked | .relock | .done => False

/-- The caller of `add_job` has `msg_qm`. -/
def AddAt.Inside : AddAt → Prop
  | .push | .notify | .unlock => True
  | .uncalled | .lock | .returned => False

/-- The caller of `add_job` has pushed its job. -/
def AddAt.Pushed : AddAt → Prop
  | .notify | .unlock | .returned => True
  | .uncalled | .lock | .push => False

instance : (place : AddAt) → Decidable place.Pushed
  | .notify | .unlock | .returned => isTrue trivial
  | .uncalled | .lock | .push => isFalse id

namespace AsyncHandler

variable {α : Type} {h : AsyncHandler α} {jobs : Nat → α}

/-- The thread has taken `msg_qm` and not given it back. -/
def Inside (h : AsyncHandler α) : Thread → Prop
  | .worker => h.worker.Inside
  | .stopper => False
  | .adder n => (h.adders n).Inside

/-- The mutex is held by whoever is inside, and a worker that sleeps has nothing to do, or is about
    to be told. -/
structure Attended (h : AsyncHandler α) : Prop where
  exclusive : Guards h.mutex h.Inside
  waits : h.worker = .wait → h.msgQ = []
  sleeps : h.worker = .blocked → h.msgQ ≠ [] → ∃ n, h.adders n = .notify
  ended : h.worker = .done → h.run = false

theorem notifyOne_inside (h : AsyncHandler α) (t : Thread) : h.notifyOne.Inside t ↔ h.Inside t := by
  unfold notifyOne
  split
  · next blocked => cases t <;> simp [Inside, blocked, WorkerAt.Inside]
  · rfl

theorem Attended.notifyOne (attended : h.Attended) : h.notifyOne.Attended := by
  obtain ⟨_, _, awake, ready⟩ := h.notifyOne_keeps
  have same : h.notifyOne.mutex = h.mutex ∧ h.notifyOne.msgQ = h.msgQ ∧
      (h.notifyOne.worker = .wait → h.worker = .wait) ∧
      (h.notifyOne.worker = .done → h.worker = .done) := by
    unfold AsyncHandler.notifyOne
    split <;> simp
  obtain ⟨mutex, msgQ, waiting, done⟩ := same
  refine ⟨?_, fun waits => ?_, fun blocked => absurd blocked awake, fun ended => ?_⟩
  · rw [mutex]
    exact attended.exclusive.stay h.notifyOne_inside
  · rw [msgQ]
    exact attended.waits (waiting waits)
  · rw [h.notifyOne_keeps.1]
    exact attended.ended (done ended)

theorem Attended.worker (attended : h.Attended) : h.stepWorker.Attended := by
  obtain ⟨exclusive, waits, sleeps, ended⟩ := attended
  -- the lock is the worker's whenever the worker is inside
  have holds : h.worker.Inside → h.mutex = some .worker := (exclusive .worker).mp
  unfold stepWorker
  split
  · next at_check =>
      refine ⟨exclusive.stay fun t => ?_, ?_, ?_, ?_⟩
      · cases t <;> by_cases run : h.run <;> simp [Inside, at_check, run, WorkerAt.Inside]
      all_goals by_cases run : h.run <;> simp [run]
  · next at_lock =>
      split
      · next free =>
          rw [free] at exclusive
          refine ⟨exclusive.take fun t => ?_, by simp, by simp, by simp⟩
          cases t <;> simp [Inside, at_lock, WorkerAt.Inside]
      · exact ⟨exclusive, waits, sleeps, ended⟩
  · next at_relock =>
      split
      · next free =>
          rw [free] at exclusive
          refine ⟨exclusive.take fun t => ?_, by simp, by simp, by simp⟩
          cases t <;> simp [Inside, at_relock, WorkerAt.Inside]
      · exact ⟨exclusive, waits, sleeps, ended⟩
  · next at_test =>
      refine ⟨exclusive.stay fun t => ?_, fun waiting => ?_, ?_, ?_⟩
      · cases t <;> by_cases go : (!h.msgQ.isEmpty || !h.run) <;>
          simp only [Inside, at_test, go, WorkerAt.Inside, if_true, if_false, Bool.false_eq_true]
      · by_cases empty : h.msgQ = []
        · exact empty
        · simp [empty] at waiting
      all_goals by_cases go : (!h.msgQ.isEmpty || !h.run) <;> simp [go]
  · next at_wait =>
      rw [holds (by rw [at_wait]; trivial)] at exclusive
      refine ⟨exclusive.release fun t => ?_, by simp, fun _ some => ?_, by simp⟩
      · cases t <;> simp [Inside, WorkerAt.Inside]
      · exact absurd (waits at_wait) some
  · next at_job =>
      have stays : Guards h.mutex { h with worker := .unlock }.Inside := by
        refine exclusive.stay fun t => ?_
        cases t <;> simp [Inside, at_job, WorkerAt.Inside]
      split <;> exact ⟨stays, by simp, by simp, by simp⟩
  · next at_unlock =>
      rw [holds (by rw [at_unlock]; trivial)] at exclusive
      refine ⟨exclusive.release fun t => ?_, by simp, by simp, by simp⟩
      cases t <;> simp [Inside, WorkerAt.Inside]
  · exact ⟨exclusive, waits, sleeps, ended⟩
  · exact ⟨exclusive, waits, sleeps, ended⟩

theorem Attended.stopper (attended : h.Attended) : h.stepStopper.Attended := by
  obtain ⟨exclusive, waits, sleeps, ended⟩ := attended
  unfold stepStopper
  split
  · exact ⟨exclusive, waits, sleeps, ended⟩
  · exact ⟨exclusive, waits, sleeps, fun _ => rfl⟩
  · obtain ⟨exclusive', waits', sleeps', ended'⟩ :=
      (Attended.mk exclusive waits sleeps ended).notifyOne
    exact ⟨exclusive', waits', sleeps', ended'⟩
  · split <;> exact ⟨exclusive, waits, sleeps, ended⟩
  · exact ⟨exclusive, waits, sleeps, ended⟩

theorem inside_adder {h' : AsyncHandler α} (n : Nat) (place : AddAt)
    (worker : h'.worker = h.worker) (adders : h'.adders = Function.update h.adders n place)
    (t : Thread) :
    h'.Inside t ↔ (t = .adder n ∧ place.Inside) ∨ (t ≠ .adder n ∧ h.Inside t) := by
  cases t with
  | worker => simp [Inside, worker]
  | stopper => simp [Inside]
  | adder m =>
      by_cases same : m = n
      · simp [Inside, adders, same]
      · simp [Inside, adders, same]

theorem Attended.adder (attended : h.Attended) (n : Nat) (j : α) :
    (h.stepAdder n j).Attended := by
  have outside : (h.adders n).Inside → h.mutex = some (.adder n) :=
    (attended.exclusive (.adder n)).mp
  -- no caller that is to notify is overwritten by the step of another
  have others : ∀ {place : AddAt}, h.adders n ≠ .notify → (∃ m, h.adders m = .notify) →
      ∃ m, Function.update h.adders n place m = .notify := by
    rintro place here ⟨m, notifies⟩
    refine ⟨m, ?_⟩
    rwa [Function.update_of_ne]
    rintro rfl
    exact here notifies
  obtain ⟨exclusive, waits, sleeps, ended⟩ := id attended
  unfold stepAdder
  simp only
  split
  · next uncalled =>
      refine ⟨exclusive.stay fun t => ?_, waits, fun blocked some => ?_, ended⟩
      · refine Iff.trans (inside_adder (h := h) n .lock (by rfl) (by rfl) t) ?_
        by_cases same : t = .adder n <;> simp [same, Inside, uncalled, AddAt.Inside]
      · exact others (by simp [uncalled]) (sleeps blocked some)
  · next locking =>
      split
      · next free =>
          rw [free] at exclusive
          refine ⟨exclusive.take fun t => ?_, waits, fun blocked some => ?_, ended⟩
          · refine Iff.trans (inside_adder (h := h) n .push (by rfl) (by rfl) t) ?_
            by_cases same : t = .adder n <;> simp [same, AddAt.Inside]
          · exact others (by simp [locking]) (sleeps blocked some)
      · exact attended
  · next pushing =>
      refine ⟨exclusive.stay fun t => ?_, fun waiting => ?_, fun _ _ => ⟨n, ?_⟩, ended⟩
      · refine Iff.trans (inside_adder (h := h) n .notify (by rfl) (by rfl) t) ?_
        by_cases same : t = .adder n <;> simp [same, Inside, pushing, AddAt.Inside]
      · -- the worker cannot be about to wait: both would be inside
        have waiting : h.worker = .wait := waiting
        have worker : h.Inside .worker := by
          rw [Inside, waiting]
          trivial
        have adder : h.Inside (.adder n) := by
          rw [Inside, pushing]
          trivial
        cases exclusive.alone worker adder
      · exact Function.update_self ..
  · next notifying =>
      obtain ⟨exclusive', waits', sleeps', ended'⟩ := attended.notifyOne
      have adders : h.notifyOne.adders = h.adders := by
        unfold AsyncHandler.notifyOne
        split <;> rfl
      refine ⟨exclusive'.stay fun t => ?_, waits', fun blocked => ?_, ended'⟩
      · refine Iff.trans (inside_adder (h := h.notifyOne) n .unlock (by rfl) (by rw [adders]) t) ?_
        by_cases same : t = .adder n <;> simp [same, Inside, adders, notifying, AddAt.Inside]
      · exact absurd blocked h.notifyOne_keeps.2.2.1
  · next unlocking =>
      rw [outside (by rw [unlocking]; trivial)] at exclusive
      refine ⟨exclusive.release fun t => ?_, waits, fun blocked some => ?_, ended⟩
      · refine Iff.trans (inside_adder (h := h) n .returned (by rfl) (by rfl) t) ?_
        by_cases same : t = .adder n <;> simp [same, AddAt.Inside]
      · exact others (by simp [unlocking]) (sleeps blocked some)
  · exact attended

theorem Attended.step (attended : h.Attended) (e : Event) : (h.step jobs e).Attended := by
  cases e with
  | spurious => exact attended.notifyOne
  | thread t =>
      cases t with
      | worker => exact attended.worker
      | stopper => exact attended.stopper
      | adder n => exact attended.adder n (jobs n)

theorem Attended.run (jobs : Nat → α) (events : List Event) :
    ((asyncHandler jobs).run events).Attended := by
  refine (Machine.Reachable.run (asyncHandler jobs) events).invariant ?_
    fun _ e attended => attended.step e
  refine ⟨fun t => ?_, by simp [asyncHandler], by simp [asyncHandler], by simp [asyncHandler]⟩
  cases t <;> simp [Inside, asyncHandler, WorkerAt.Inside, AddAt.Inside]

/-- The callers that have pushed, in the order in which they did. -/
def noteOrder (order : List Nat) (h : AsyncHandler α) : Event → List Nat
  | .thread (.adder n) => if h.adders n = .push then order ++ [n] else order
  | .thread .worker | .thread .stopper | .spurious => order

/-- Every job pushed was handled, or waits behind those that were. -/
structure Queued (jobs : Nat → α) (h : AsyncHandler α) (order : List Nat) : Prop where
  pushed : ∀ n, n ∈ order ↔ (h.adders n).Pushed
  once : order.Nodup
  jobs : h.handled ++ h.msgQ = order.map jobs

theorem Queued.of_same {h' : AsyncHandler α} {order : List Nat} (queued : Queued jobs h order)
    (pushed : ∀ n, (h'.adders n).Pushed ↔ (h.adders n).Pushed)
    (same : h'.handled ++ h'.msgQ = h.handled ++ h.msgQ) : Queued jobs h' order :=
  ⟨fun n => (queued.pushed n).trans (pushed n).symm, queued.once, same.trans queued.jobs⟩

theorem notifyOne_queue (h : AsyncHandler α) :
    h.notifyOne.adders = h.adders ∧ h.notifyOne.handled = h.handled ∧
      h.notifyOne.msgQ = h.msgQ := by
  unfold notifyOne
  split <;> exact ⟨rfl, rfl, rfl⟩

/-- The worker takes a job from the front of the queue at most, and calls `handle` with it. -/
theorem stepWorker_queue (h : AsyncHandler α) : h.stepWorker.adders = h.adders ∧
    h.stepWorker.handled ++ h.stepWorker.msgQ = h.handled ++ h.msgQ := by
  unfold stepWorker
  split
  · exact ⟨rfl, rfl⟩
  · split <;> exact ⟨rfl, rfl⟩
  · split <;> exact ⟨rfl, rfl⟩
  · exact ⟨rfl, rfl⟩
  · exact ⟨rfl, rfl⟩
  · split
    · exact ⟨rfl, rfl⟩
    · next j rest waiting =>
        refine ⟨rfl, ?_⟩
        rw [waiting, List.append_assoc]
        rfl
  · exact ⟨rfl, rfl⟩
  · exact ⟨rfl, rfl⟩
  · exact ⟨rfl, rfl⟩

theorem stepStopper_queue (h : AsyncHandler α) : h.stepStopper.adders = h.adders ∧
    h.stepStopper.handled ++ h.stepStopper.msgQ = h.handled ++ h.msgQ := by
  obtain ⟨adders, handled, msgQ⟩ := h.notifyOne_queue
  unfold stepStopper
  split
  · exact ⟨rfl, rfl⟩
  · exact ⟨rfl, rfl⟩
  · exact ⟨adders, by simp only [handled, msgQ]⟩
  · split <;> exact ⟨rfl, rfl⟩
  · exact ⟨rfl, rfl⟩

theorem Queued.adder {order : List Nat} (queued : Queued jobs h order) (n : Nat) :
    Queued jobs (h.stepAdder n (jobs n)) (noteOrder order h (.thread (.adder n))) := by
  obtain ⟨adders, handled, msgQ⟩ := h.notifyOne_queue
  -- the caller moves on without pushing
  have moved : ∀ {place : AddAt}, (place.Pushed ↔ (h.adders n).Pushed) → ∀ m,
      (Function.update h.adders n place m).Pushed ↔ (h.adders m).Pushed := by
    intro place same m
    by_cases here : m = n
    · rw [here, Function.update_self, same]
    · rw [Function.update_of_ne here]
  unfold stepAdder
  simp only [noteOrder]
  split
  · next uncalled =>
      simp only [uncalled, reduceCtorEq, if_false]
      exact queued.of_same (moved (by simp [uncalled, AddAt.Pushed])) rfl
  · next locking =>
      simp only [locking, reduceCtorEq, if_false]
      split
      · exact queued.of_same (moved (by simp [locking, AddAt.Pushed])) rfl
      · exact queued
  · next pushing =>
      have absent : n ∉ order := by
        rw [queued.pushed n, pushing]
        exact id
      simp only [pushing, if_true]
      refine ⟨fun m => ?_, ?_, ?_⟩
      · rw [List.mem_append, List.mem_singleton, queued.pushed m]
        by_cases here : m = n
        · simp [here, AddAt.Pushed]
        · simp [here]
      · exact List.nodup_append.mpr ⟨queued.once, List.nodup_singleton n, by
          rintro m inside k last rfl
          exact absent (List.mem_singleton.mp last ▸ inside)⟩
      · rw [List.map_append, ← queued.jobs, List.append_assoc]
        rfl
  · next notifying =>
      simp only [notifying, reduceCtorEq, if_false]
      refine queued.of_same (fun m => ?_) (by simp only [handled, msgQ])
      simp only [adders]
      exact moved (by simp [notifying, AddAt.Pushed]) m
  · next unlocking =>
      simp only [unlocking, reduceCtorEq, if_false]
      exact queued.of_same (moved (by simp [unlocking, AddAt.Pushed])) rfl
  · next returned =>
      simp only [returned, reduceCtorEq, if_false]
      exact queued

theorem Queued.step {order : List Nat} (queued : Queued jobs h order) (e : Event) :
    Queued jobs (h.step jobs e) (noteOrder order h e) := by
  obtain ⟨adders, handled, msgQ⟩ := h.notifyOne_queue
  cases e with
  | spurious =>
      refine queued.of_same (fun _ => ?_) ?_
      · simp only [AsyncHandler.step, adders]
      · simp only [AsyncHandler.step, handled, msgQ]
  | thread t =>
      cases t with
      | worker =>
          obtain ⟨adders, same⟩ := h.stepWorker_queue
          exact queued.of_same (fun _ => by simp only [AsyncHandler.step, adders]) same
      | stopper =>
          obtain ⟨adders, same⟩ := h.stepStopper_queue
          exact queued.of_same (fun _ => by simp only [AsyncHandler.step, adders]) same
      | adder n => exact queued.adder n

/-- The callers that pushed their job in a run, in the order in which they did. -/
def order (jobs : Nat → α) (events : List Event) : List Nat :=
  (((asyncHandler jobs).noting [] noteOrder).run events).2

theorem Queued.run (jobs : Nat → α) (events : List Event) :
    Queued jobs ((asyncHandler jobs).run events) (order jobs events) := by
  have noted := (Machine.Reachable.run ((asyncHandler jobs).noting [] noteOrder) events).invariant
    (P := fun s => Queued jobs s.1 s.2) ⟨by simp [Machine.noting, asyncHandler, AddAt.Pushed],
      List.nodup_nil, rfl⟩ fun _ e queued => queued.step e
  rwa [Machine.noting_run] at noted

theorem order_prefix (jobs : Nat → α) (events more : List Event) :
    order jobs events <+: order jobs (events ++ more) := by
  unfold order
  rw [Machine.run, Machine.run, Machine.exec_append]
  refine Machine.exec_related (R := fun s s' : AsyncHandler α × List Nat => s.2 <+: s'.2) (fun _ => List.prefix_refl _)
    (fun first second => first.trans second) (fun s e => ?_) _ more
  show s.2 <+: noteOrder s.2 s.1 e
  unfold noteOrder
  split
  · split
    · exact List.prefix_append _ _
    · exact List.prefix_refl _
  all_goals exact List.prefix_refl _

end AsyncHandler

/-- However the threads take turns, two of them are never inside the critical section together; and
    the jobs handled and those waiting are, in this order, the jobs of the calls that pushed, each
    once, as they pushed. A call that pushes later comes later in every queue that follows. -/
theorem jobs_in_order {α : Type} (jobs : Nat → α) (events more : List AsyncHandler.Event) :
    (∀ t t', ((asyncHandler jobs).run events).Inside t →
      ((asyncHandler jobs).run events).Inside t' → t = t') ∧
    (AsyncHandler.order jobs events).Nodup ∧
    (∀ n, n ∈ AsyncHandler.order jobs events ↔
      (((asyncHandler jobs).run events).adders n).Pushed) ∧
    ((asyncHandler jobs).run events).handled ++ ((asyncHandler jobs).run events).msgQ =
      (AsyncHandler.order jobs events).map jobs ∧
    AsyncHandler.order jobs events <+: AsyncHandler.order jobs (events ++ more) := by
  have attended := AsyncHandler.Attended.run jobs events
  have queued := AsyncHandler.Queued.run jobs events
  exact ⟨fun t t' one other => attended.exclusive.alone one other, queued.once, queued.pushed,
    queued.jobs, AsyncHandler.order_prefix jobs events more⟩

namespace AsyncHandler

variable {α : Type} {h : AsyncHandler α} {jobs : Nat → α}

theorem exec_alone (h : AsyncHandler α) (k : Nat) :
    (asyncHandler jobs).exec h (List.replicate k (.thread .worker)) = stepWorker^[k] h := by
  induction k generalizing h with
  | zero => rfl
  | succ k ih => exact ih h.stepWorker

/-- One round of the worker's loop with a job waiting. -/
theorem round {j : α} {rest : List α} (at_check : h.worker = .check) (run : h.run = true)
    (free : h.mutex = none) (waiting : h.msgQ = j :: rest) :
    stepWorker^[5] h = { h with msgQ := rest, handled := h.handled ++ [j] } := by
  simp only [Function.iterate_succ, Function.iterate_zero, Function.comp_apply, id, stepWorker,
    at_check, run, free, waiting, if_true, List.isEmpty_cons, Bool.not_false, Bool.true_or]

theorem rounds (at_check : h.worker = .check) (run : h.run = true) (free : h.mutex = none) :
    stepWorker^[5 * h.msgQ.length] h =
      { h with msgQ := [], handled := h.handled ++ h.msgQ } := by
  generalize waiting : h.msgQ = queue
  induction queue generalizing h with
  | nil =>
      obtain ⟨⟩ := h
      cases waiting
      simp
  | cons j rest ih =>
      have first := round at_check run free waiting
      have later := ih (h := { h with msgQ := rest, handled := h.handled ++ [j] }) at_check run free
        rfl
      rw [List.length_cons, Nat.mul_add, Nat.mul_one, Function.iterate_add_apply, first, later]
      simp

/-- Wherever the worker is with a job waiting, it soon comes back to its loop's head, with that job
    handled on the way if it was past the head. -/
theorem Attended.returns (attended : h.Attended) (run : h.run = true)
    (free : ∀ n, h.mutex ≠ some (.adder n)) (some : h.msgQ ≠ []) :
    ∃ k, (stepWorker^[k] h).worker = .check ∧ (stepWorker^[k] h).run = true ∧
      (stepWorker^[k] h).mutex = none ∧
      (stepWorker^[k] h).handled ++ (stepWorker^[k] h).msgQ = h.handled ++ h.msgQ ∧
      k + 5 * (stepWorker^[k] h).msgQ.length ≤ 5 * h.msgQ.length + 1 := by
  have lock : ¬ h.worker.Inside → h.mutex = none := by
    intro outside
    cases holder : h.mutex with
    | none => rfl
    | some t =>
        have inside := (attended.exclusive t).mpr holder
        cases t with
        | worker => exact absurd inside outside
        | stopper => cases inside
        | adder n => exact absurd holder (free n)
  obtain ⟨j, rest, waiting⟩ := List.exists_cons_of_ne_nil some
  cases at_ : h.worker with
  | check => exact ⟨0, at_, run, lock (by rw [at_]; exact id), rfl, by simp⟩
  | lock | relock =>
      have free := lock (by rw [at_]; exact id)
      refine ⟨4, ?_⟩
      simp [Function.iterate_succ, stepWorker, at_, free, waiting, run]
      omega
  | test =>
      refine ⟨3, ?_⟩
      simp [Function.iterate_succ, stepWorker, at_, waiting, run]
      omega
  | wait => exact absurd (attended.waits at_) some
  | blocked =>
      obtain ⟨n, notifies⟩ := attended.sleeps at_ some
      have inside : h.Inside (.adder n) := by
        rw [Inside, notifies]
        trivial
      exact absurd ((attended.exclusive _).mp inside) (free n)
  | job =>
      refine ⟨2, ?_⟩
      simp [Function.iterate_succ, stepWorker, at_, waiting, run]
      omega
  | unlock =>
      refine ⟨1, ?_⟩
      simp [stepWorker, at_, waiting, run]
      omega
  | done =>
      have ended := attended.ended at_
      rw [run] at ended
      cases ended

end AsyncHandler

/-- No wakeup for a job is lost: whatever has happened, as long as `stop` has not stored `run` and no
    caller of `add_job` holds the mutex, the worker handles everything in its queue in order without
    a step of anybody else, in five steps a job and one more at most. -/
theorem queue_worked_off {α : Type} (jobs : Nat → α) (events : List AsyncHandler.Event)
    (running : ((asyncHandler jobs).run events).run = true)
    (free : ∀ n, ((asyncHandler jobs).run events).mutex ≠ some (.adder n)) :
    ∃ k ≤ 5 * ((asyncHandler jobs).run events).msgQ.length + 1,
      ((asyncHandler jobs).run (events ++ List.replicate k (.thread .worker))).msgQ = [] ∧
      ((asyncHandler jobs).run (events ++ List.replicate k (.thread .worker))).handled =
        ((asyncHandler jobs).run events).handled ++ ((asyncHandler jobs).run events).msgQ := by
  have attended := AsyncHandler.Attended.run jobs events
  have later : ∀ k, (asyncHandler jobs).run (events ++ List.replicate k (.thread .worker)) =
      AsyncHandler.stepWorker^[k] ((asyncHandler jobs).run events) := by
    intro k
    rw [Machine.run, Machine.exec_append, AsyncHandler.exec_alone]
    rfl
  simp only [later]
  generalize (asyncHandler jobs).run events = h at *
  by_cases empty : h.msgQ = []
  · exact ⟨0, Nat.zero_le _, empty, by simp [empty]⟩
  · obtain ⟨k, at_check, run, lock, same, few⟩ := attended.returns running free empty
    have rest := AsyncHandler.rounds at_check run lock
    refine ⟨5 * (AsyncHandler.stepWorker^[k] h).msgQ.length + k, by omega, ?_, ?_⟩
    · rw [Function.iterate_add_apply, rest]
    · rw [Function.iterate_add_apply, rest]
      exact same

/-- Two jobs come while the worker is on its way to the first. -/
theorem queue_worked_off_two :
    ∃ k ≤ 11, ((asyncHandler fun n : Nat => n).run
      ([.thread .worker, .thread (.adder 7), .thread (.adder 7), .thread (.adder 7),
        .thread (.adder 7), .thread (.adder 7), .thread (.adder 5), .thread (.adder 5),
        .thread (.adder 5), .thread (.adder 5), .thread (.adder 5)] ++
        List.replicate k (.thread .worker))).handled = [7, 5] := by
  obtain ⟨k, few, _, handled⟩ := queue_worked_off (fun n : Nat => n)
    [.thread .worker, .thread (.adder 7), .thread (.adder 7), .thread (.adder 7),
      .thread (.adder 7), .thread (.adder 7), .thread (.adder 5), .thread (.adder 5),
      .thread (.adder 5), .thread (.adder 5), .thread (.adder 5)] rfl (fun n => by
        intro held
        cases held)
  exact ⟨k, few, handled⟩

namespace AsyncHandler

variable {α : Type} {h : AsyncHandler α} {jobs : Nat → α}

/-- The jobs the worker may still take once `run` is false: none when the next test is that of the
    loop. -/
def mayTake (h : AsyncHandler α) : Nat :=
  match h.worker with
  | .check | .unlock | .done => 0
  | .lock | .test | .wait | .blocked | .relock | .job => 1

/-- What a step can do after `run` was stored: nothing is taken from what was handled, the jobs
    handled and yet to be taken do not grow in number, and `stop` returns to find the worker done. -/
structure Winding (h h' : AsyncHandler α) : Prop where
  stored : h'.run = false
  kept : h.handled <+: h'.handled
  few : h'.handled.length + h'.mayTake ≤ h.handled.length + h.mayTake
  done : h.worker = .done → h'.worker = .done

theorem Winding.refl (stored : h.run = false) : h.Winding h :=
  ⟨stored, List.prefix_refl _, Nat.le_refl _, id⟩

theorem Winding.trans {h₁ h₂ h₃ : AsyncHandler α} (first : h₁.Winding h₂) (second : h₂.Winding h₃) :
    h₁.Winding h₃ :=
  ⟨second.stored, first.kept.trans second.kept, second.few.trans first.few,
    fun done => second.done (first.done done)⟩

theorem notifyOne_winding (stored : h.run = false) : h.Winding h.notifyOne := by
  unfold notifyOne
  split
  · next blocked => exact ⟨stored, List.prefix_refl _, by simp [mayTake, blocked], by simp [blocked]⟩
  · exact .refl stored

theorem Winding.of_same {h₁ h' : AsyncHandler α} (winding : h.Winding h₁) (run : h'.run = false)
    (worker : h'.worker = h₁.worker) (handled : h'.handled = h₁.handled) : h.Winding h' := by
  have same : h'.mayTake = h₁.mayTake := by
    unfold mayTake
    rw [worker]
  exact ⟨run, handled ▸ winding.kept, by rw [handled, same]; exact winding.few,
    fun done => worker.trans (winding.done done)⟩

theorem worker_winding (stored : h.run = false) : h.Winding h.stepWorker := by
  unfold stepWorker
  split
  · next at_check => exact ⟨stored, List.prefix_refl _, by simp [mayTake, at_check, stored],
      by simp [stored]⟩
  · next at_lock =>
      split
      · exact ⟨stored, List.prefix_refl _, by simp [mayTake, at_lock], by simp [at_lock]⟩
      · exact .refl stored
  · next at_relock =>
      split
      · exact ⟨stored, List.prefix_refl _, by simp [mayTake, at_relock], by simp [at_relock]⟩
      · exact .refl stored
  · next at_test => exact ⟨stored, List.prefix_refl _, by simp [mayTake, at_test, stored],
      by simp [at_test]⟩
  · next at_wait => exact ⟨stored, List.prefix_refl _, by simp [mayTake, at_wait],
      by simp [at_wait]⟩
  · next at_job =>
      split
      · exact ⟨stored, List.prefix_refl _, by simp [mayTake, at_job], by simp [at_job]⟩
      · exact ⟨stored, List.prefix_append _ _, by simp [mayTake, at_job], by simp [at_job]⟩
  · next at_unlock => exact ⟨stored, List.prefix_refl _, by simp [mayTake, at_unlock],
      by simp [at_unlock]⟩
  · exact .refl stored
  · exact .refl stored

theorem stopper_winding (stored : h.run = false) : h.Winding h.stepStopper := by
  have same := Winding.refl stored
  unfold stepStopper
  split
  · exact same.of_same stored rfl rfl
  · exact same.of_same rfl rfl rfl
  · exact (notifyOne_winding stored).of_same (h.notifyOne_keeps.1.trans stored) rfl rfl
  · split
    · exact same.of_same stored rfl rfl
    · exact same
  · exact same

theorem adder_winding (stored : h.run = false) (n : Nat) (j : α) :
    h.Winding (h.stepAdder n j) := by
  have same := Winding.refl stored
  unfold stepAdder
  simp only
  split
  · exact same.of_same stored rfl rfl
  · split
    · exact same.of_same stored rfl rfl
    · exact same
  · exact same.of_same stored rfl rfl
  · exact (notifyOne_winding stored).of_same (h.notifyOne_keeps.1.trans stored) rfl rfl
  · exact same.of_same stored rfl rfl
  · exact same

theorem step_winding (stored : h.run = false) (e : Event) : h.Winding (h.step jobs e) := by
  cases e with
  | spurious => exact notifyOne_winding stored
  | thread t =>
      cases t with
      | worker => exact worker_winding stored
      | stopper => exact stopper_winding stored
      | adder n => exact adder_winding stored n (jobs n)

theorem exec_winding (stored : h.run = false) (events : List Event) :
    h.Winding ((asyncHandler jobs).exec h events) := by
  induction events generalizing h with
  | nil => exact .refl stored
  | cons e events ih =>
      have first : h.Winding (h.step jobs e) := step_winding stored e
      exact first.trans (ih first.stored)

/-- `stop` has returned only if the worker is done and `run` false. -/
structure Joined (h : AsyncHandler α) : Prop where
  stored : h.stopper = .notify ∨ h.stopper = .join ∨ h.stopper = .returned → h.run = false
  done : h.stopper = .returned → h.worker = .done

theorem Joined.step (joined : h.Joined) (e : Event) : (h.step jobs e).Joined := by
  -- the worker does not come back from its end, nor `run` from false
  have later : ∀ {h' : AsyncHandler α}, h'.stopper = h.stopper →
      (h.run = false → h.Winding h') → h'.Joined := by
    intro h' stopper winding
    refine ⟨fun sent => ?_, fun returned => ?_⟩
    · rw [stopper] at sent
      exact (winding (joined.stored sent)).stored
    · rw [stopper] at returned
      exact (winding (joined.stored (.inr (.inr returned)))).done (joined.done returned)
  have woken := h.notifyOne_keeps.2.1
  cases e with
  | spurious => exact later woken fun stored => notifyOne_winding stored
  | thread t =>
      cases t with
      | worker =>
          refine later ?_ fun stored => worker_winding stored
          simp only [AsyncHandler.step, stepWorker]
          split
          any_goals rfl
          all_goals split <;> rfl
      | stopper =>
          simp only [AsyncHandler.step, stepStopper]
          split
          · exact ⟨by simp, by simp⟩
          · exact ⟨fun _ => rfl, by simp⟩
          · next sending =>
              refine ⟨fun _ => ?_, by simp⟩
              exact h.notifyOne_keeps.1.trans (joined.stored (.inl sending))
          · next joining =>
              split
              · next done => exact ⟨fun _ => joined.stored (.inr (.inl joining)), fun _ => done⟩
              · exact joined
          · exact joined
      | adder n =>
          refine later ?_ fun stored => adder_winding stored n (jobs n)
          simp only [AsyncHandler.step, stepAdder]
          split
          any_goals rfl
          · split <;> rfl
          · exact woken

end AsyncHandler

/-- Stopping drops the queue: once `stop` has stored `run`, the worker handles one job more at most,
    however long the run goes on and however many jobs are added; once `stop` has returned, none. -/
theorem stop_drops_queue {α : Type} (jobs : Nat → α) (events more : List AsyncHandler.Event) :
    (((asyncHandler jobs).run events).run = false →
      ((asyncHandler jobs).run events).handled <+:
        ((asyncHandler jobs).run (events ++ more)).handled ∧
      ((asyncHandler jobs).run (events ++ more)).handled.length ≤
        ((asyncHandler jobs).run events).handled.length + 1) ∧
    (((asyncHandler jobs).run events).stopper = .returned →
      ((asyncHandler jobs).run (events ++ more)).handled =
        ((asyncHandler jobs).run events).handled) := by
  have joined := (Machine.Reachable.run (asyncHandler jobs) events).invariant
    (P := AsyncHandler.Joined) ⟨by simp [asyncHandler], by simp [asyncHandler]⟩
    fun _ e joined => joined.step e
  have later : (asyncHandler jobs).run (events ++ more) =
      (asyncHandler jobs).exec ((asyncHandler jobs).run events) more := by
    rw [Machine.run, Machine.exec_append]
    rfl
  rw [later]
  generalize (asyncHandler jobs).run events = h at *
  constructor
  · intro stored
    have winding : h.Winding ((asyncHandler jobs).exec h more) :=
      AsyncHandler.exec_winding stored more
    have one : h.mayTake ≤ 1 := by
      unfold AsyncHandler.mayTake
      split <;> omega
    exact ⟨winding.kept, by have := winding.few; omega⟩
  · intro returned
    have winding : h.Winding ((asyncHandler jobs).exec h more) :=
      AsyncHandler.exec_winding (joined.stored (.inr (.inr returned))) more
    have none : h.mayTake = 0 := by
      rw [AsyncHandler.mayTake, joined.done returned]
    have few := winding.few
    exact (winding.kept.eq_of_length (by have := winding.kept.length_le; omega)).symm

/-- Two jobs are pushed and `stop` is called when the worker has entered its loop: it takes the first
    and leaves the second. -/
theorem stop_drops_queue_second :
    let events : List AsyncHandler.Event :=
      List.replicate 5 (.thread (.adder 0)) ++ List.replicate 5 (.thread (.adder 1)) ++
        [.thread .worker, .thread .stopper, .thread .stopper]
    let host := (asyncHandler fun n : Nat => n).run (events ++ List.replicate 9 (.thread .worker))
    host.handled.length ≤ 1 ∧ host.msgQ = [1] := by
  intro events host
  exact ⟨((stop_drops_queue (fun n : Nat => n) events _).1 rfl).2, by decide⟩

end DroneServer
