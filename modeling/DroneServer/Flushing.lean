import DroneServer.TcpSession

/-! # What is flushed is sent

A buffer that is passed to `async_write` without a flush waits for the next call that
flushes, or for the write under way to complete. After a call that flushes it waits for
nothing but the buffers in front of it, as long as the socket is open and no write fails.
-/

namespace DroneServer

namespace TcpSession

/-- The event is not a write that fails. -/
def Event.Succeeds : Event → Prop
  | .call _ => True
  | .completed _ ok _ => ok = true

instance : (e : Event) → Decidable e.Succeeds
  | .call _ => .isTrue trivial
  | .completed _ ok _ => inferInstanceAs (Decidable (ok = true))

/-- The call has `do_write` made. -/
def Call.Flushes : Call → Prop
  | .asyncWrite _ flush => flush = true
  | .doWrite => True
  | .close => False

/-- The write the session believes to be under way is. -/
def Whole (t : TcpSession) : Prop := t.sending = true → t.inFlight ≠ []

variable {t : TcpSession} {c : Channel Bytes}

theorem Whole.doWrite (whole : t.Whole) : t.doWrite.Whole := by
  unfold TcpSession.doWrite
  split
  · exact whole
  split
  · exact whole
  · exact whole
  · exact fun _ => by simp

theorem Whole.perform (whole : t.Whole) (call : Call) : (t.perform call).Whole := by
  cases call with
  | asyncWrite data flush =>
      have queued : TcpSession.Whole
          { t with sendQueue := t.sendQueue ++ [data], passed := t.passed ++ [data] } := whole
      cases flush with
      | false => exact queued
      | true => exact queued.doWrite
  | doWrite => exact whole.doWrite
  | close => exact whole

theorem Whole.calls (whole : t.Whole) (handler : List Call) :
    (handler.foldl TcpSession.perform t).Whole := by
  induction handler generalizing t with
  | nil => exact whole
  | cons call handler ih => exact ih (whole.perform call)

theorem Whole.step (whole : t.Whole) {e : Event} (succeeds : e.Succeeds) : (t.step e).Whole := by
  cases e with
  | call call => exact whole.perform call
  | completed i ok handler =>
      obtain rfl : ok = true := succeeds
      change (t.complete i true handler).Whole
      unfold complete
      split
      · refine Whole.doWrite (Whole.calls ?_ handler)
        exact fun taken => nomatch taken
      · exact whole

theorem doWrite_keeps (t : TcpSession) : t.doWrite.sendQueue = t.sendQueue ∧
    t.doWrite.passed = t.passed ∧ t.doWrite.isOpen = t.isOpen := by
  unfold doWrite
  split
  · next closed =>
      refine ⟨rfl, rfl, ?_⟩
      rw [Bool.not_eq_true'] at closed
      exact closed.symm
  split <;> exact ⟨rfl, rfl, rfl⟩

theorem doWrite_again (t : TcpSession) : t.doWrite.doWrite = t.doWrite := by
  unfold doWrite
  cases opened : t.isOpen <;> cases taken : t.sending <;> cases queue : t.sendQueue <;>
    simp [close, opened, taken, queue]

theorem Call.Flushes.doWrite {call : Call} (flushes : call.Flushes) (t : TcpSession) :
    ∃ u : TcpSession, t.perform call = u.doWrite := by
  cases call with
  | asyncWrite data flush =>
      obtain rfl : flush = true := flushes
      exact ⟨_, rfl⟩
  | doWrite => exact ⟨t, rfl⟩
  | close => exact flushes.elim

/-- Once `do_write` was called, a buffer waits behind another one only. -/
theorem Refines.doWrite_waits (refines : t.Refines c) (whole : t.Whole) (opened : t.isOpen = true)
    (none : t.doWrite.inFlight = []) : t.doWrite.sendQueue = [] := by
  unfold TcpSession.doWrite at none ⊢
  rw [opened, Bool.not_true, if_neg Bool.false_ne_true] at none ⊢
  cases refines with
  | idle _ _ _ free =>
      cases queue : t.sendQueue with
      | nil => simp [queue]
      | cons front rest => simp [queue, free] at none
  | flying _ _ queue _ taken one => simp [queue, taken, one] at none
  | stuck _ _ taken landed => exact absurd landed (whole taken)

/-- As many completions as there are buffers in the queue empty it. -/
theorem Refines.drains (refines : t.Refines c) (whole : t.Whole) (opened : t.isOpen = true)
    (waits : t.inFlight = [] → t.sendQueue = []) :
    ((List.replicate t.sendQueue.length (Event.completed 0 true [])).foldl TcpSession.step t).handed =
      t.passed := by
  generalize queue : t.sendQueue = items
  induction items generalizing t c with
  | nil =>
      cases refines with
      | idle _ _ queued => simp [queued, queue]
      | flying _ _ filled => cases filled.symm.trans queue
      | stuck _ _ taken landed => exact absurd landed (whole taken)
  | cons front rest ih =>
      cases refines with
      | idle _ _ _ _ landed => cases (waits landed).symm.trans queue
      | stuck _ _ taken landed => exact absurd landed (whole taken)
      | flying accepted started filled queued taken one busy sound =>
          cases filled.symm.trans queue
          have landed : t.step (.completed 0 true []) = TcpSession.doWrite
              { t with inFlight := [], sendQueue := rest, sending := false } := by
            change t.complete 0 true [] = _
            unfold TcpSession.complete
            rw [one, queue]
            rfl
          have idle : TcpSession.Refines
              { t with inFlight := [], sendQueue := rest, sending := false }
              { c with busy := false } :=
            .idle accepted started queued rfl rfl rfl sound
          obtain ⟨same, passed, open'⟩ := doWrite_keeps
            { t with inFlight := [], sendQueue := rest, sending := false }
          obtain ⟨c', _, refines⟩ := idle.doWrite
          have whole' : TcpSession.Whole
              { t with inFlight := [], sendQueue := rest, sending := false } := nofun
          have rest' := ih refines whole'.doWrite (open'.trans opened)
            (idle.doWrite_waits whole' opened) same
          rw [List.length_cons, List.replicate_succ, List.foldl_cons, landed]
          exact rest'.trans passed

theorem run_whole {isOpen : Bool} {events : List Event} (succeed : ∀ e ∈ events, e.Succeeds) :
    ((sender isOpen).run events).Whole := by
  induction events using List.reverseRecOn with
  | nil => exact nofun
  | append_singleton events e ih =>
      rw [Machine.run_snoc]
      refine Whole.step (ih fun e inside => succeed e ?_) (succeed e ?_)
      · exact List.mem_append_left _ inside
      · exact List.mem_append_right _ (List.mem_singleton_self e)

end TcpSession

/-- Whatever was called and completed before, if no write failed and the socket is open after a call
    that flushes, then nothing is left waiting while nothing is under way, and as many further
    completions as there are buffers in the queue hand over everything that was passed. -/
theorem flushed_is_sent (isOpen : Bool) (events : List TcpSession.Event)
    (succeed : ∀ e ∈ events, e.Succeeds) {call : TcpSession.Call} (flushes : call.Flushes)
    {t : TcpSession} (ran : (sender isOpen).run (events ++ [.call call]) = t)
    (opened : t.isOpen = true) :
    (t.inFlight = [] → t.sendQueue = []) ∧
      ((sender isOpen).run (events ++ .call call ::
        List.replicate t.sendQueue.length (.completed 0 true []))).handed = t.passed := by
  obtain ⟨c, refines⟩ := TcpSession.run_refines isOpen (events ++ [.call call])
  have whole : t.Whole := by
    rw [← ran, Machine.run_snoc]
    exact (TcpSession.run_whole succeed).step trivial
  rw [ran] at refines
  have again : t.doWrite = t := by
    obtain ⟨u, done⟩ := flushes.doWrite ((sender isOpen).run events)
    have last : t = u.doWrite := by
      rw [← ran, Machine.run_snoc]
      exact done
    rw [last, TcpSession.doWrite_again]
  have waits : t.inFlight = [] → t.sendQueue = [] := by
    have waits := refines.doWrite_waits whole opened
    rwa [again] at waits
  refine ⟨waits, ?_⟩
  have split : (sender isOpen).run (events ++ .call call ::
      List.replicate t.sendQueue.length (.completed 0 true [])) =
        (List.replicate t.sendQueue.length (.completed 0 true [])).foldl TcpSession.step t := by
    rw [← ran, Machine.run, Machine.run, Machine.exec_append, Machine.exec_append]
    rfl
  rw [split]
  exact refines.drains whole opened waits

/-- Two buffers come without a flush while the first write is under way, and a third one flushes. -/
def heldBack : List TcpSession.Event :=
  [.call (.asyncWrite [1] true), .call (.asyncWrite [2] false), .call (.asyncWrite [3] false),
    .completed 0 true []]

theorem flushed_is_sent_held_back :
    ((sender true).run (heldBack ++ .call (.asyncWrite [4] true) ::
      List.replicate 3 (.completed 0 true []))).handed = [[1], [2], [3], [4]] :=
  (flushed_is_sent true heldBack (by decide)
    (show TcpSession.Call.Flushes (.asyncWrite [4] true) from rfl) rfl rfl).2

end DroneServer
