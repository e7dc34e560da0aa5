import DroneServer.Lib.Machine

/-! # Coders

A coder takes inputs one at a time and gives outputs when it is asked for them,
possibly later than the input they come from. Its user sends an input and then
asks until there is nothing more: `code`. A coder is not trusted to be lossless;
that it has only so many outputs to give is what ends the asking.
-/

universe u v w

/-- What a coder says to an input, and the code the user ends up with. -/
inductive Reply where
  | accepted
  /-- To an input: read first. To a request: send first. -/
  | again
  | ended
  | failed
  deriving DecidableEq, Repr

/-- What a coder says to a request. -/
inductive Output (ο : Type v) where
  | out (o : ο)
  | stop (reply : Reply)

structure Coder (σ : Type u) (ι : Type v) (ο : Type w) where
  /-- No input asks it to give what it holds back. -/
  send : σ → Option ι → Reply × σ
  receive : σ → Output ο × σ
  /-- A bound on the outputs it can give as it stands. -/
  due : σ → Nat
  fewer : ∀ {s o s'}, receive s = (.out o, s') → due s' < due s

namespace Coder

variable {σ : Type u} {ι : Type v} {ο : Type w}

/-- Ask until there is nothing more. -/
def drain (c : Coder σ ι ο) (s : σ) : Reply × σ × List ο :=
  match _ : c.receive s with
  | (.out o, s') =>
      let (reply, s', os) := c.drain s'
      (reply, s', o :: os)
  | (.stop reply, s') => (reply, s', [])
termination_by c.due s
decreasing_by exact c.fewer ‹_›

/-- Send an input and ask for the outputs, unless the input was not accepted. -/
def code (c : Coder σ ι ο) (s : σ) (i : Option ι) : Reply × σ × List ο :=
  match c.send s i with
  | (.accepted, s) => c.drain s
  | (refusal, s) => (refusal, s, [])

/-- The coder has no output to give as it stands. -/
def Empty (c : Coder σ ι ο) (s : σ) : Prop := ∀ o s', c.receive s ≠ (.out o, s')

/-- A coder that keeps to the rules: asking it in vain changes nothing, it accepts inputs as long as
    it has no output to give, and an input it does not accept it does not touch. -/
structure Proper (c : Coder σ ι ο) : Prop where
  vain : ∀ {s s' reply}, c.receive s = (.stop reply, s') → reply ≠ .failed →
    c.receive s' = (.stop reply, s')
  accepts : ∀ {s i s'}, c.send s i = (.again, s') → ¬ c.Empty s
  untouched : ∀ {s i s' reply}, c.send s i = (reply, s') → reply ≠ .accepted → reply ≠ .failed →
    s' = s

variable {c : Coder σ ι ο} {s s' : σ} {i : Option ι} {o : ο} {reply : Reply}

theorem drain_out (received : c.receive s = (.out o, s')) :
    c.drain s = ((c.drain s').1, (c.drain s').2.1, o :: (c.drain s').2.2) := by
  rw [drain]
  split
  · next given =>
      cases received.symm.trans given
      rfl
  · next given => cases received.symm.trans given

theorem drain_stop (received : c.receive s = (.stop reply, s')) :
    c.drain s = (reply, s', []) := by
  rw [drain]
  split
  · next given => cases received.symm.trans given
  · next given =>
      cases received.symm.trans given
      rfl

theorem code_accepted (sent : c.send s i = (.accepted, s')) : c.code s i = c.drain s' := by
  rw [code, sent]

theorem code_refused (sent : c.send s i = (reply, s')) (refused : reply ≠ .accepted) :
    c.code s i = (reply, s', []) := by
  rw [code, sent]
  cases reply with
  | accepted => exact absurd rfl refused
  | again | ended | failed => rfl

/-- A coder that was asked until it stopped has nothing to give, unless it failed. -/
theorem Proper.drain_empty (proper : c.Proper) {s : σ} (unfailed : (c.drain s).1 ≠ .failed) :
    c.Empty (c.drain s).2.1 := by
  generalize bound : c.due s = n
  induction n using Nat.strong_induction_on generalizing s with
  | _ n ih =>
      cases received : c.receive s with
      | mk given s' =>
          cases given with
          | out o =>
              rw [drain_out received] at unfailed ⊢
              exact ih _ (bound ▸ c.fewer received) unfailed rfl
          | stop reply =>
              rw [drain_stop received] at unfailed ⊢
              intro o s'' given
              cases (proper.vain received unfailed).symm.trans given

theorem Proper.code_empty (proper : c.Proper) (empty : c.Empty s)
    (unfailed : (c.code s i).1 ≠ .failed) : c.Empty (c.code s i).2.1 := by
  cases sent : c.send s i with
  | mk reply s' =>
      by_cases accepted : reply = .accepted
      · subst accepted
        rw [code_accepted sent] at unfailed ⊢
        exact proper.drain_empty unfailed
      · rw [code_refused sent accepted] at unfailed ⊢
        rw [proper.untouched sent accepted unfailed]
        exact empty

/-- Successive inputs, with the outputs so far. -/
def feed (c : Coder σ ι ο) (s : σ × List ο) (inputs : List ι) : σ × List ο :=
  inputs.foldl (fun s i => ((c.code s.1 (some i)).2.1, s.2 ++ (c.code s.1 (some i)).2.2)) s

theorem feed_snoc (c : Coder σ ι ο) (s : σ × List ο) (inputs : List ι) (i : ι) :
    c.feed s (inputs ++ [i]) = ((c.code (c.feed s inputs).1 (some i)).2.1,
      (c.feed s inputs).2 ++ (c.code (c.feed s inputs).1 (some i)).2.2) := by
  rw [feed, List.foldl_append]
  rfl

/-- A coder that gives one output for each input, sooner or later, each with the mark of its own
    input: between what it gave and what it gives when it is asked to end, none is missing. -/
def Lossless {μ : Type} (c : Coder σ ι ο) (start : σ) (markIn : ι → μ) (markOut : ο → μ) : Prop :=
  ∀ inputs : List ι,
    (((c.feed (start, []) inputs).2 ++ (c.code (c.feed (start, []) inputs).1 none).2.2).map
      markOut).Perm (inputs.map markIn)

end Coder
