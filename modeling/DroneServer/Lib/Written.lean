import Mathlib.Data.List.Basic
import Mathlib.Logic.Function.Basic

/-! # What was written last

A log of writes, each of a value under a key. Where every write replaces what its key
had, the key has what the last of its writes wrote, and nothing before the first.
-/

universe u v

variable {κ : Type u} {ν : Type v} [DecidableEq κ]

/-- The value written last under a key, if there is one. -/
def lastWritten (key : κ) : List (κ × ν) → Option ν
  | [] => none
  | (k, value) :: later => (lastWritten key later).or (if k = key then some value else none)

@[simp] theorem lastWritten_nil (key : κ) : lastWritten key ([] : List (κ × ν)) = none := rfl

theorem lastWritten_append (key : κ) (log later : List (κ × ν)) :
    lastWritten key (log ++ later) = (lastWritten key later).or (lastWritten key log) := by
  induction log with
  | nil => rw [List.nil_append, lastWritten_nil, Option.or_none]
  | cons write log ih =>
      obtain ⟨k, value⟩ := write
      rw [List.cons_append, lastWritten, lastWritten, ih, Option.or_assoc]

theorem lastWritten_snoc (key k : κ) (value : ν) (log : List (κ × ν)) :
    lastWritten key (log ++ [(k, value)]) =
      if k = key then some value else lastWritten key log := by
  rw [lastWritten_append, lastWritten, lastWritten_nil, Option.none_or]
  split
  · rfl
  · exact Option.none_or

/-- A map that is updated with every write, from a default on, has under each key what was written
    last. -/
theorem update_lastWritten (key : κ) (value default : ν) (log : List (κ × ν)) :
    (fun k => (lastWritten k (log ++ [(key, value)])).getD default) =
      Function.update (fun k => (lastWritten k log).getD default) key value := by
  funext k
  rw [lastWritten_snoc]
  by_cases same : key = k
  · subst same
    rw [if_pos rfl, Function.update_self, Option.getD_some]
  · rw [if_neg same, Function.update_of_ne (Ne.symm same)]
