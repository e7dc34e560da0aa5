import Mathlib.Data.List.Basic

/-! # Accesses that may miss

A block of memory read and written through raw pointers, and a queue that is taken
from at its front, as a program does it that checks nothing itself: an access that
misses is an error and ends the computation. Every access has one rule, for where it
does not miss.
-/

namespace Checked

universe u v

variable {ε : Type u} {α : Type v}

/-- The element at a place of a block. -/
def get (fault : ε) (block : List α) (i : Nat) : Except ε α :=
  match block[i]? with
  | some a => .ok a
  | none => .error fault

/-- The elements from one place up to another. -/
def range (fault : ε) (block : List α) (i j : Nat) : Except ε (List α) :=
  if i ≤ j ∧ j ≤ block.length then .ok ((block.drop i).take (j - i)) else .error fault

/-- The block with other elements from a place on. -/
def write (fault : ε) (block : List α) (i : Nat) (values : List α) : Except ε (List α) :=
  if i + values.length ≤ block.length then
    .ok (block.take i ++ values ++ block.drop (i + values.length))
  else .error fault

/-- The front of a queue, and the queue without it. -/
def pop (fault : ε) : List α → Except ε (α × List α)
  | [] => .error fault
  | a :: queue => .ok (a, queue)

/-- The queue without as many elements at its front. -/
def erase (fault : ε) (queue : List α) (n : Nat) : Except ε (List α) :=
  if n ≤ queue.length then .ok (queue.drop n) else .error fault

variable {fault : ε} {l : List α} {i j n : Nat}

theorem get_inside (inside : i < l.length) (d : α) : get fault l i = .ok (l.getD i d) := by
  simp only [get, List.getD_eq_getElem?_getD, List.getElem?_eq_getElem inside, Option.getD_some]

theorem range_inside (order : i ≤ j) (inside : j ≤ l.length) :
    range fault l i j = .ok ((l.drop i).take (j - i)) := if_pos ⟨order, inside⟩

theorem range_front (inside : j ≤ l.length) : range fault l 0 j = .ok (l.take j) :=
  range_inside (Nat.zero_le j) inside

theorem range_back (inside : i ≤ l.length) : range fault l i l.length = .ok (l.drop i) := by
  rw [range_inside inside (Nat.le_refl _), ← List.length_drop, List.take_length]

theorem write_inside {values : List α} (inside : i + values.length ≤ l.length) :
    write fault l i values = .ok (l.take i ++ values ++ l.drop (i + values.length)) := if_pos inside

theorem pop_filled (filled : 0 < l.length) (d : α) : pop fault l = .ok (l.getD 0 d, l.drop 1) := by
  cases l with
  | nil => exact absurd filled (Nat.lt_irrefl 0)
  | cons a l => rfl

theorem erase_inside (enough : n ≤ l.length) : erase fault l n = .ok (l.drop n) := if_pos enough

end Checked
