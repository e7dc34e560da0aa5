import DroneServer.Core
import DroneServer.Lib.Channel
import DroneServer.Lib.Machine

/-! # `tcp_session`: the sending half

`async_write` queues a buffer and `do_write` hands the front of the queue to
boost, unless a write is under way; when that completes, the buffer leaves the
queue and the next one follows. What is proved is that the session is a
`Channel`: it refines one, step by step, whatever its handlers do in between.
-/

namespace DroneServer

structure TcpSession where
  isOpen : Bool := true
  sendQueue : List Bytes := []
  sending : Bool := false
  /-- The buffers of the writes boost has begun and not completed. -/
  inFlight : List Bytes := []
  /-- Every buffer handed to boost so far, and every one passed to `async_write`. -/
  handed : List Bytes := []
  passed : List Bytes := []
  deriving DecidableEq

namespace TcpSession

/-- `close` shuts the socket; what `on_close` does is left to the caller's handlers. -/
def close (t : TcpSession) : TcpSession := { t with isOpen := false }

def doWrite (t : TcpSession) : TcpSession :=
  if !t.isOpen then t.close
  else match t.sendQueue, t.sending with
    | [], _ | _, true => t
    | front :: _, false =>
        { t with
          sending := true
          inFlight := t.inFlight ++ [front]
          handed := t.handed ++ [front] }

def asyncWrite (t : TcpSession) (data : Bytes) (flush : Bool) : TcpSession :=
  let t := { t with sendQueue := t.sendQueue ++ [data], passed := t.passed ++ [data] }
  if flush then t.doWrite else t

/-- What code outside the completion handler may do with a session. -/
inductive Call where
  | asyncWrite (data : Bytes) (flush : Bool)
  | doWrite
  | close
  deriving DecidableEq

def perform (t : TcpSession) : Call → TcpSession
  | .asyncWrite data flush => t.asyncWrite data flush
  | .doWrite => t.doWrite
  | .close => t.close

/-- The completion handler of `boost::asio::async_write`, for the `i`-th write in flight. The
    virtual function it calls, `on_write` or `on_error`, makes the calls in `handler`. -/
def complete (t : TcpSession) (i : Nat) (ok : Bool) (handler : List Call) : TcpSession :=
  if i < t.inFlight.length then
    let t := { t with inFlight := t.inFlight.eraseIdx i }
    if ok then
      (handler.foldl perform { t with sendQueue := t.sendQueue.tail, sending := false }).doWrite
    else handler.foldl perform t
  else t

inductive Event where
  | call (c : Call)
  | completed (i : Nat) (ok : Bool) (handler : List Call)
  deriving DecidableEq

def step (t : TcpSession) : Event → TcpSession
  | .call c => t.perform c
  | .completed i ok handler => t.complete i ok handler

/-- What links a session to the channel it is: between two writes, during one, and after one that
    failed. -/
inductive Refines (t : TcpSession) (c : Channel Bytes) : Prop where
  | idle (accepted : c.accepted = t.passed) (started : c.started = t.handed)
      (queued : t.passed = t.handed ++ t.sendQueue) (free : t.sending = false)
      (none : t.inFlight = []) (waits : c.busy = false) (whole : c.failed = false)
  | flying {front : Bytes} {rest : List Bytes} (accepted : c.accepted = t.passed)
      (started : c.started = t.handed) (queue : t.sendQueue = front :: rest)
      (queued : t.passed = t.handed ++ rest) (taken : t.sending = true)
      (one : t.inFlight = [front]) (busy : c.busy = true) (whole : c.failed = false)
  | stuck (accepted : c.accepted = t.passed) (started : c.started = t.handed)
      (taken : t.sending = true) (none : t.inFlight = []) (failed : c.failed = true)

namespace Refines

variable {t : TcpSession} {c : Channel Bytes}

theorem accepted (refines : t.Refines c) : c.accepted = t.passed := by
  cases refines <;> assumption

theorem started (refines : t.Refines c) : c.started = t.handed := by
  cases refines <;> assumption

theorem inFlight (refines : t.Refines c) : t.inFlight.length ≤ 1 := by
  cases refines with
  | idle _ _ _ _ none | stuck _ _ _ none => simp [none]
  | flying _ _ _ _ _ one => simp [one]

theorem close (refines : t.Refines c) : t.close.Refines c := by
  cases refines with
  | idle accepted started queued free none waits whole =>
      exact .idle accepted started queued free none waits whole
  | flying accepted started queue queued taken one busy whole =>
      exact .flying accepted started queue queued taken one busy whole
  | stuck accepted started taken none failed => exact .stuck accepted started taken none failed

theorem doWrite (refines : t.Refines c) : ∃ c', c.Steps c' ∧ t.doWrite.Refines c' := by
  unfold TcpSession.doWrite
  split
  · exact ⟨c, .refl, refines.close⟩
  split
  · exact ⟨c, .refl, refines⟩
  · exact ⟨c, .refl, refines⟩
  · next front rest queue free =>
      cases refines with
      | idle accepted started queued _ none waits whole =>
          have next : c.started ++ [front] <+: c.accepted := by
            rw [accepted, started, queued, queue]
            exact ⟨rest, by rw [List.append_assoc]; rfl⟩
          refine ⟨_, .single (.start waits whole next), ?_⟩
          refine .flying accepted (congrArg (· ++ [front]) started) queue ?_ rfl ?_ rfl whole
          · rw [queued, queue, List.append_assoc]
            rfl
          · rw [none, List.nil_append]
      | flying _ _ _ _ taken | stuck _ _ taken => exact absurd taken (by rw [free]; decide)

theorem asyncWrite (refines : t.Refines c) (data : Bytes) (flush : Bool) :
    ∃ c', c.Steps c' ∧ (t.asyncWrite data flush).Refines c' := by
  have queued : TcpSession.Refines
      { t with sendQueue := t.sendQueue ++ [data], passed := t.passed ++ [data] }
      (c.accept data) := by
    cases refines with
    | idle accepted started queued free none waits whole =>
        refine .idle (congrArg (· ++ [data]) accepted) started ?_ free none waits whole
        rw [queued, List.append_assoc]
    | @flying front rest accepted started queue queued taken one busy whole =>
        have queue' : t.sendQueue ++ [data] = front :: (rest ++ [data]) := by
          rw [queue, List.cons_append]
        refine .flying (congrArg (· ++ [data]) accepted) started queue' ?_ taken one busy whole
        rw [queued, List.append_assoc]
    | stuck accepted started taken none failed =>
        exact .stuck (congrArg (· ++ [data]) accepted) started taken none failed
  have accept : c.Steps (c.accept data) := .single (.accept data)
  unfold TcpSession.asyncWrite
  cases flush with
  | false => exact ⟨_, accept, queued⟩
  | true =>
      obtain ⟨c', steps, refines⟩ := queued.doWrite
      exact ⟨c', accept.trans steps, refines⟩

theorem perform (refines : t.Refines c) (call : Call) :
    ∃ c', c.Steps c' ∧ (t.perform call).Refines c' := by
  cases call with
  | asyncWrite data flush => exact refines.asyncWrite data flush
  | doWrite => exact refines.doWrite
  | close => exact ⟨c, .refl, refines.close⟩

theorem calls (refines : t.Refines c) (handler : List Call) :
    ∃ c', c.Steps c' ∧ (handler.foldl TcpSession.perform t).Refines c' := by
  induction handler generalizing t c with
  | nil => exact ⟨c, .refl, refines⟩
  | cons call handler ih =>
      obtain ⟨c₁, first, refines⟩ := refines.perform call
      obtain ⟨c₂, later, refines⟩ := ih refines
      exact ⟨c₂, first.trans later, refines⟩

theorem complete (refines : t.Refines c) (i : Nat) (ok : Bool) (handler : List Call) :
    ∃ c', c.Steps c' ∧ (t.complete i ok handler).Refines c' ∧
      (i < t.inFlight.length → ok = false → c'.failed = true ∧ c'.started = c.started) := by
  unfold TcpSession.complete
  split
  · next flying =>
      cases refines with
      | idle _ _ _ _ none | stuck _ _ _ none =>
          rw [none] at flying
          exact absurd flying (Nat.not_lt_zero i)
      | @flying front rest accepted started queue queued taken one busy whole =>
          have first : i = 0 := by
            rw [one, List.length_singleton] at flying
            omega
          have landed : t.inFlight.eraseIdx i = [] := by
            rw [one, first]
            rfl
          cases ok with
          | true =>
              have popped : t.sendQueue.tail = rest := by
                rw [queue]
                rfl
              have finish : c.Steps { c with busy := false } := .single (.finish busy)
              have idle : TcpSession.Refines { t with
                  inFlight := t.inFlight.eraseIdx i, sendQueue := t.sendQueue.tail,
                  sending := false } { c with busy := false } :=
                .idle accepted started (by rw [popped]; exact queued) rfl landed rfl whole
              obtain ⟨c₁, called, refines⟩ := idle.calls handler
              obtain ⟨c₂, wrote, refines⟩ := refines.doWrite
              exact ⟨c₂, finish.trans (called.trans wrote), refines, fun _ ok => by cases ok⟩
          | false =>
              have fail : c.Steps { c with busy := false, failed := true } := .single (.fail busy)
              have stuck : TcpSession.Refines { t with inFlight := t.inFlight.eraseIdx i }
                  { c with busy := false, failed := true } :=
                .stuck accepted started taken landed rfl
              obtain ⟨c₁, called, refines⟩ := stuck.calls handler
              obtain ⟨same, failed⟩ := called.over rfl
              exact ⟨c₁, fail.trans called, refines, fun _ _ => ⟨failed, same⟩⟩
  · next landed => exact ⟨c, .refl, refines, fun flying => absurd flying landed⟩

end Refines

theorem step_refines {t : TcpSession} {c : Channel Bytes} (refines : t.Refines c) (e : Event) :
    ∃ c', c.Steps c' ∧ (t.step e).Refines c' := by
  cases e with
  | call call => exact refines.perform call
  | completed i ok handler =>
      obtain ⟨c', steps, refines, _⟩ := refines.complete i ok handler
      exact ⟨c', steps, refines⟩

end TcpSession

/-- A session as it is made, with its socket in either state. -/
def sender (isOpen : Bool) : Machine TcpSession TcpSession.Event where
  start := { isOpen }
  step := TcpSession.step

namespace TcpSession

/-- A run of a session is one of a channel. -/
theorem run_refines (isOpen : Bool) (events : List Event) :
    ∃ c : Channel Bytes, ((sender isOpen).run events).Refines c := by
  have fresh : (sender isOpen).start.Refines {} := .idle rfl rfl rfl rfl rfl rfl rfl
  obtain ⟨c, _, refines⟩ := Machine.exec_simulates (M := sender isOpen) (R := Refines)
    (fun _ _ e refines => step_refines refines e) fresh events
  exact ⟨c, refines⟩

theorem failed_for_good (isOpen : Bool) (before after : List Event) {i : Nat} {handler : List Call}
    (flying : i < ((sender isOpen).run before).inFlight.length) :
    ((sender isOpen).run (before ++ .completed i false handler :: after)).handed =
      ((sender isOpen).run before).handed := by
  obtain ⟨c, refines⟩ := run_refines isOpen before
  obtain ⟨c₁, _, refines₁, ended⟩ := refines.complete i false handler
  obtain ⟨failed, same⟩ := ended flying rfl
  obtain ⟨c₂, steps, refines₂⟩ := Machine.exec_simulates (M := sender isOpen) (R := Refines)
    (fun _ _ e refines => step_refines refines e) refines₁ after
  have split : (sender isOpen).run (before ++ .completed i false handler :: after) =
      (sender isOpen).exec (((sender isOpen).run before).complete i false handler) after := by
    simp only [Machine.run, Machine.exec_append, Machine.exec_cons]
    rfl
  rw [split, ← refines₂.started, (Channel.Steps.over steps failed).1, same, refines.started]

end TcpSession

/-- However calls, completions and the calls made by handlers follow one another, one write at most
    is in flight; what was handed to the socket is what was passed to `async_write`, buffer by
    buffer, up to some point; and after a failed write nothing follows. -/
theorem ordered_single_flight (isOpen : Bool) (events : List TcpSession.Event) :
    ((sender isOpen).run events).inFlight.length ≤ 1 ∧
      ((sender isOpen).run events).handed <+: ((sender isOpen).run events).passed ∧
      ((sender isOpen).run events).handed.flatten <+:
        ((sender isOpen).run events).passed.flatten ∧
      ∀ before i handler after, events = before ++ .completed i false handler :: after →
        i < ((sender isOpen).run before).inFlight.length →
        ((sender isOpen).run events).handed = ((sender isOpen).run before).handed := by
  obtain ⟨c, refines⟩ := TcpSession.run_refines isOpen events
  refine ⟨refines.inFlight, ?_, ?_, ?_⟩
  · rw [← refines.started, ← refines.accepted]
    exact c.ordered
  · rw [← refines.started, ← refines.accepted]
    exact c.flatten_ordered
  · rintro before i handler after rfl flying
    exact TcpSession.failed_for_good isOpen before after flying

end DroneServer
