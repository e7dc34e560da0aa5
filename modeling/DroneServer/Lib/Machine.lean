import Mathlib.Data.List.Infix
import Mathlib.Logic.Relation

/-! # Deterministic labelled machines

A machine has a start state and a total step function. A run is a list of
labels, so "every interleaving" is "every list". Invariants are proved once per
step; `always_iff` turns an exact one-step condition into an exact condition on
whole runs.
-/

universe u v w

structure Machine (σ : Type u) (ι : Type v) where
  start : σ
  step : σ → ι → σ

namespace Machine

variable {σ : Type u} {ι : Type v} (M : Machine σ ι)

/-- Perform the labels from `s`, first label first. -/
def exec (s : σ) (labels : List ι) : σ := labels.foldl M.step s

/-- The state a run from the start ends in. -/
def run (labels : List ι) : σ := M.exec M.start labels

def Reachable (s : σ) : Prop := ∃ labels, M.run labels = s

@[simp] theorem exec_nil (s : σ) : M.exec s [] = s := rfl

@[simp] theorem exec_cons (s : σ) (l : ι) (labels : List ι) :
    M.exec s (l :: labels) = M.exec (M.step s l) labels := rfl

@[simp] theorem exec_append (s : σ) (first second : List ι) :
    M.exec s (first ++ second) = M.exec (M.exec s first) second :=
  List.foldl_append

@[simp] theorem run_snoc (labels : List ι) (l : ι) :
    M.run (labels ++ [l]) = M.step (M.run labels) l := by
  simp only [run, exec_append, exec_cons, exec_nil]

theorem Reachable.run (labels : List ι) : M.Reachable (M.run labels) := ⟨labels, rfl⟩

variable {M}

/-- What holds at the start and survives every step holds in every reachable state. -/
theorem Reachable.invariant {P : σ → Prop} (start : P M.start)
    (preserved : ∀ s l, P s → P (M.step s l)) {s : σ} (reached : M.Reachable s) : P s := by
  obtain ⟨labels, rfl⟩ := reached
  induction labels using List.reverseRecOn with
  | nil => exact start
  | append_singleton labels l ih =>
      rw [M.run_snoc]
      exact preserved _ l ih

/-- A relation between a state and its successor that is reflexive and transitive spans every
    stretch of a run. -/
theorem exec_related {R : σ → σ → Prop} (refl : ∀ s, R s s)
    (trans : ∀ {a b c}, R a b → R b c → R a c) (single : ∀ s l, R s (M.step s l))
    (s : σ) (labels : List ι) : R s (M.exec s labels) := by
  induction labels generalizing s with
  | nil => exact refl s
  | cons l labels ih => exact trans (single s l) (ih (M.step s l))

/-- A relation to the states of an abstract system that every step keeps, with any number of steps
    there, holds at the end of every stretch of a run. -/
theorem exec_simulates {α : Type w} {Step : α → α → Prop} {R : σ → α → Prop}
    (single : ∀ s a l, R s a → ∃ a', Relation.ReflTransGen Step a a' ∧ R (M.step s l) a')
    {s : σ} {a : α} (related : R s a) (labels : List ι) :
    ∃ a', Relation.ReflTransGen Step a a' ∧ R (M.exec s labels) a' := by
  induction labels generalizing s a with
  | nil => exact ⟨a, .refl, related⟩
  | cons l labels ih =>
      obtain ⟨b, first, related⟩ := single s a l related
      obtain ⟨c, later, related⟩ := ih related
      exact ⟨c, first.trans later, related⟩

variable (M)

/-- The machine with notes taken along the way. -/
def noting {ν : Type w} (blank : ν) (note : ν → σ → ι → ν) : Machine (σ × ν) ι where
  start := (M.start, blank)
  step s l := (M.step s.1 l, note s.2 s.1 l)

theorem noting_run {ν : Type w} (blank : ν) (note : ν → σ → ι → ν) (labels : List ι) :
    ((M.noting blank note).run labels).1 = M.run labels := by
  induction labels using List.reverseRecOn with
  | nil => rfl
  | append_singleton labels l ih =>
      rw [run_snoc, run_snoc, ← ih]
      rfl

/-- The property holds in every state the run goes through, the first and the last included. -/
def Always (P : σ → Prop) (labels : List ι) : Prop := ∀ done, done <+: labels → P (M.run done)

/-- The condition holds of every step of the run, at the state the step starts from. -/
def Steps (C : σ → ι → Prop) (labels : List ι) : Prop :=
  ∀ done l, done ++ [l] <+: labels → C (M.run done) l

/-- The condition holds of each of the labels in turn, performed from `s`. -/
def Checks (C : σ → ι → Prop) (s : σ) : List ι → Prop
  | [] => True
  | l :: labels => C s l ∧ Checks C (M.step s l) labels

instance decidableChecks (C : σ → ι → Prop) [∀ s l, Decidable (C s l)] :
    (s : σ) → (labels : List ι) → Decidable (M.Checks C s labels)
  | _, [] => .isTrue trivial
  | s, l :: labels =>
      have := decidableChecks C (M.step s l) labels
      inferInstanceAs (Decidable (C s l ∧ M.Checks C (M.step s l) labels))

variable {M}

theorem always_snoc {P : σ → Prop} {labels : List ι} {l : ι} :
    M.Always P (labels ++ [l]) ↔ M.Always P labels ∧ P (M.step (M.run labels) l) := by
  constructor
  · intro all
    refine ⟨fun done inside => all done (inside.trans (List.prefix_append labels [l])), ?_⟩
    simpa only [run_snoc] using all (labels ++ [l]) (List.prefix_refl _)
  · rintro ⟨before, last⟩ done inside
    rcases List.prefix_concat_iff.mp inside with rfl | inside
    · simpa only [run_snoc] using last
    · exact before done inside

theorem steps_nil {C : σ → ι → Prop} : M.Steps C [] := by
  intro done l inside
  simp at inside

theorem steps_snoc {C : σ → ι → Prop} {labels : List ι} {l : ι} :
    M.Steps C (labels ++ [l]) ↔ M.Steps C labels ∧ C (M.run labels) l := by
  constructor
  · intro all
    exact ⟨fun done k inside => all done k (inside.trans (List.prefix_append labels [l])),
      all labels l (List.prefix_refl _)⟩
  · rintro ⟨before, last⟩ done k inside
    rcases List.prefix_concat_iff.mp inside with same | inside
    · obtain ⟨rfl, tail⟩ := List.append_inj' same rfl
      rw [List.cons.inj tail |>.1]
      exact last
    · exact before done k inside

theorem noting_steps {ν : Type w} (blank : ν) (note : ν → σ → ι → ν) {C : σ → ι → Prop}
    {labels : List ι} :
    (M.noting blank note).Steps (fun s l => C s.1 l) labels ↔ M.Steps C labels := by
  simp only [Steps, noting_run]

theorem Steps.mono {C D : σ → ι → Prop} (weaker : ∀ s l, M.Reachable s → C s l → D s l)
    {labels : List ι} (steps : M.Steps C labels) : M.Steps D labels :=
  fun done l inside => weaker _ l (Reachable.run M done) (steps done l inside)

/-- Checking the labels in turn establishes the condition for the whole run. -/
theorem Checks.steps {C : σ → ι → Prop} {labels : List ι} (checks : M.Checks C M.start labels) :
    M.Steps C labels := by
  have each : ∀ (labels : List ι) (s : σ), M.Checks C s labels →
      ∀ done l, done ++ [l] <+: labels → C (M.exec s done) l := by
    intro labels
    induction labels with
    | nil =>
        intro s _ done l inside
        simp at inside
    | cons k labels ih =>
        rintro s ⟨first, rest⟩ done l inside
        cases done with
        | nil =>
            obtain ⟨rfl, _⟩ := List.cons_prefix_cons.mp inside
            exact first
        | cons d done =>
            obtain ⟨rfl, tail⟩ := List.cons_prefix_cons.mp inside
            exact ih (M.step s d) rest done l tail
  exact each labels M.start checks

section Invariant

variable {I P : σ → Prop} {C : σ → ι → Prop} {labels : List ι}

/-- An invariant that a step keeps when it meets the condition holds after a run of such steps. -/
theorem Steps.run (start : I M.start)
    (keeps : ∀ s l, M.Reachable s → I s → C s l → I (M.step s l)) (steps : M.Steps C labels) :
    I (M.run labels) := by
  induction labels using List.reverseRecOn with
  | nil => exact start
  | append_singleton labels l ih =>
      obtain ⟨before, last⟩ := steps_snoc.mp steps
      rw [run_snoc]
      exact keeps _ l (.run M labels) (ih before) last

theorem Steps.always (start : I M.start)
    (keeps : ∀ s l, M.Reachable s → I s → C s l → I (M.step s l)) (steps : M.Steps C labels) :
    M.Always I labels :=
  fun _ before => Steps.run start keeps fun done l inside => steps done l (inside.trans before)

/-- Leaving labels out: a relation that a step on both sides keeps, and a step on the longer run's side
    where its label is left out, holds between the run and the one with the other labels only. -/
theorem Steps.filter {R : σ → σ → Prop} (keep : ι → Bool) (start : R M.start M.start)
    (kept : ∀ s t l, R s t → C s l → keep l = true → R (M.step s l) (M.step t l))
    (dropped : ∀ s t l, R s t → C s l → keep l = false → R (M.step s l) t)
    (steps : M.Steps C labels) : R (M.run labels) (M.run (labels.filter keep)) := by
  induction labels using List.reverseRecOn with
  | nil => exact start
  | append_singleton labels l ih =>
      obtain ⟨before, last⟩ := steps_snoc.mp steps
      have related := ih before
      rw [List.filter_append, run_snoc]
      cases keeps : keep l with
      | true =>
          rw [List.filter_singleton, keeps, cond_true, run_snoc]
          exact kept _ _ l related last keeps
      | false =>
          rw [List.filter_singleton, keeps, cond_false, List.append_nil]
          exact dropped _ _ l related last keeps

/-- If every other step breaks what the invariant is there for, a run is free of such steps exactly
    when nothing is ever broken. Something may be known of the labels in advance. -/
theorem always_iff_given {D : σ → ι → Prop} (start : I M.start) (holds : ∀ s, I s → P s)
    (keeps : ∀ s l, I s → D s l → C s l → I (M.step s l))
    (breaks : ∀ s l, I s → D s l → ¬ C s l → ¬ P (M.step s l)) (given : M.Steps D labels) :
    M.Always P labels ↔ M.Steps C labels := by
  have kept : ∀ s l, M.Reachable s → I s → D s l ∧ C s l → I (M.step s l) :=
    fun s l _ inv both => keeps s l inv both.1 both.2
  constructor
  · intro all
    induction labels using List.reverseRecOn with
    | nil => exact steps_nil
    | append_singleton labels l ih =>
        obtain ⟨before, last⟩ := always_snoc.mp all
        obtain ⟨known, now⟩ := steps_snoc.mp given
        have steps := ih known before
        have both : M.Steps (fun s l => D s l ∧ C s l) labels :=
          fun done k inside => ⟨known done k inside, steps done k inside⟩
        refine steps_snoc.mpr ⟨steps, ?_⟩
        by_contra broken
        exact breaks _ l (Steps.run start kept both) now broken last
  · intro steps done before
    have both : M.Steps (fun s l => D s l ∧ C s l) labels :=
      fun done k inside => ⟨given done k inside, steps done k inside⟩
    exact holds _ (both.always start kept done before)

theorem always_iff (start : I M.start) (holds : ∀ s, I s → P s)
    (keeps : ∀ s l, I s → C s l → I (M.step s l))
    (breaks : ∀ s l, I s → ¬ C s l → ¬ P (M.step s l)) : M.Always P labels ↔ M.Steps C labels :=
  always_iff_given (D := fun _ _ => True) start holds (fun s l inv _ => keeps s l inv)
    (fun s l inv _ => breaks s l inv) fun _ _ _ => trivial

end Invariant

end Machine
