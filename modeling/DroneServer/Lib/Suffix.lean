import Mathlib.Data.List.Count
import Mathlib.Data.List.Induction

/-! # The end of a list from its nth element of a kind

`fromNth p m xs` is what is left of `xs` from its `m`-th element satisfying `p`
on, counted from one; from the zeroth on it is everything. A log that grows at its
end grows the suffix with it, and starts it anew when the element counted for
arrives.
-/

universe u

namespace List

variable {α : Type u} {p : α → Bool} {m : Nat} {xs : List α} {x : α}

def fromNth (p : α → Bool) : Nat → List α → List α
  | 0, xs => xs
  | m + 1, xs => xs.drop (xs.findIdxNth p m)

theorem mem_of_mem_fromNth (inside : x ∈ fromNth p m xs) : x ∈ xs := by
  cases m with
  | zero => exact inside
  | succ m => exact List.mem_of_mem_drop inside

theorem findIdxNth_append_left (ys : List α) (found : m < xs.countP p) :
    (xs ++ ys).findIdxNth p m = xs.findIdxNth p m := by
  induction xs generalizing m with
  | nil => cases found
  | cons a xs ih =>
      simp only [cons_append, findIdxNth_cons]
      rw [countP_cons] at found
      by_cases hit : p a
      · cases m with
        | zero => simp only [hit, if_true]
        | succ m =>
            simp only [hit, if_true] at found ⊢
            rw [Nat.add_sub_cancel, ih (by omega)]
      · simp only [hit, if_false, Bool.false_eq_true, Nat.add_zero] at found ⊢
        rw [ih found]
        split
        · next first => rw [← first, ih found]
        · rfl

theorem findIdxNth_snoc (hit : p x) : (xs ++ [x]).findIdxNth p (xs.countP p) = xs.length := by
  induction xs with
  | nil => simp only [nil_append, countP_nil, findIdxNth_cons_zero_of_pos hit, length_nil]
  | cons a xs ih =>
      by_cases first : p a
      · rw [countP_cons_of_pos first, cons_append, findIdxNth_cons_succ_of_pos first, ih, length_cons]
      · rw [countP_cons_of_neg first, cons_append,
          findIdxNth_cons_of_neg (Bool.eq_false_iff.mpr first), ih, length_cons]

theorem fromNth_append (ys : List α) (found : m ≤ xs.countP p) :
    fromNth p m (xs ++ ys) = fromNth p m xs ++ ys := by
  cases m with
  | zero => rfl
  | succ m =>
      rw [fromNth, fromNth, findIdxNth_append_left ys found,
        drop_append_of_le_length findIdxNth_le_length]

theorem fromNth_snoc (hit : p x) : fromNth p (xs.countP p + 1) (xs ++ [x]) = [x] := by
  rw [fromNth, findIdxNth_snoc hit, drop_left]

theorem fromNth_split (positive : 0 < m) (found : m ≤ xs.countP p) :
    ∃ before x after, xs = before ++ x :: after ∧ p x ∧ before.countP p + 1 = m ∧
      fromNth p m xs = x :: after := by
  induction xs using reverseRecOn with
  | nil =>
      rw [countP_nil] at found
      omega
  | append_singleton xs x ih =>
      by_cases earlier : m ≤ xs.countP p
      · obtain ⟨before, y, after, rfl, hit, count, rest⟩ := ih earlier
        refine ⟨before, y, after ++ [x], by rw [append_assoc, cons_append], hit, count, ?_⟩
        rw [fromNth_append [x] earlier, rest, cons_append]
      · rw [countP_append, countP_singleton] at found
        by_cases hit : p x
        · have last : xs.countP p + 1 = m := by
            rw [if_pos hit] at found
            omega
          subst last
          exact ⟨xs, x, [], rfl, hit, rfl, fromNth_snoc hit⟩
        · rw [if_neg hit] at found
          exact absurd found earlier

end List
