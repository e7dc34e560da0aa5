import Mathlib.Data.List.Infix
import Mathlib.Logic.Relation

/-! # Channels that carry one item at a time

What a sender with a queue is for. Items are accepted at any time and started in
the order in which they were accepted, the next one only when the one before has
finished. A channel that has failed starts nothing more.

That the items started are the first ones accepted is a field, so every sender
that refines a channel inherits it.
-/

universe u

structure Channel (α : Type u) where
  accepted : List α := []
  started : List α := []
  /-- An item was started and has not finished. -/
  busy : Bool := false
  failed : Bool := false
  ordered : started <+: accepted := by simp

namespace Channel

variable {α : Type u}

def accept (c : Channel α) (a : α) : Channel α :=
  { c with
    accepted := c.accepted ++ [a]
    ordered := c.ordered.trans (List.prefix_append c.accepted [a]) }

inductive Step (c : Channel α) : Channel α → Prop where
  | accept (a : α) : Step c (c.accept a)
  | start {a : α} (idle : c.busy = false) (whole : c.failed = false)
      (next : c.started ++ [a] <+: c.accepted) :
      Step c { c with started := c.started ++ [a], busy := true, ordered := next }
  | finish (busy : c.busy = true) : Step c { c with busy := false }
  | fail (busy : c.busy = true) : Step c { c with busy := false, failed := true }

abbrev Steps : Channel α → Channel α → Prop := Relation.ReflTransGen Step

/-- A channel that has failed stays so, and what it has started is all it will have started. -/
theorem Steps.over {c c' : Channel α} (steps : Steps c c') (failed : c.failed = true) :
    c'.started = c.started ∧ c'.failed = true := by
  induction steps with
  | refl => exact ⟨rfl, failed⟩
  | tail _ step ih =>
      obtain ⟨same, still⟩ := ih
      cases step with
      | accept | finish => exact ⟨same, still⟩
      | start _ whole => exact absurd still (by rw [whole]; decide)
      | fail => exact ⟨same, rfl⟩

theorem flatten_ordered {β : Type u} (c : Channel (List β)) :
    c.started.flatten <+: c.accepted.flatten := by
  obtain ⟨rest, whole⟩ := c.ordered
  rw [← whole, List.flatten_append]
  exact List.prefix_append _ _

end Channel
