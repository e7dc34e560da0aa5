/-! # A lock and those inside it

A mutex is the party that holds it, if any. It guards a piece of code when exactly
the holder is inside; then no two parties are. Steps of a program that take the
lock on the way in and give it back on the way out keep it so.
-/

universe u

/-- Exactly the holder of the lock is inside. -/
def Guards {τ : Type u} (lock : Option τ) (inside : τ → Prop) : Prop :=
  ∀ t, inside t ↔ lock = some t

namespace Guards

variable {τ : Type u} {lock : Option τ} {inside inside' : τ → Prop} {t t' : τ}

/-- No two parties are inside. -/
theorem alone (guards : Guards lock inside) (one : inside t) (other : inside t') : t = t' :=
  Option.some.inj (((guards t).mp one).symm.trans ((guards t').mp other))

theorem nobody (guards : Guards none inside) (t : τ) : ¬ inside t := by
  intro one
  cases (guards t).mp one

theorem stay (guards : Guards lock inside) (same : ∀ t, inside' t ↔ inside t) :
    Guards lock inside' :=
  fun t => (same t).trans (guards t)

theorem take (guards : Guards none inside) (enters : ∀ t', inside' t' ↔ t' = t ∨ inside t') :
    Guards (some t) inside' := by
  intro t'
  rw [enters, Option.some.injEq]
  constructor
  · rintro (same | one)
    · exact same.symm
    · exact absurd one (guards.nobody t')
  · exact fun same => .inl same.symm

theorem release (guards : Guards (some t) inside) (leaves : ∀ t', inside' t' ↔ t' ≠ t ∧ inside t') :
    Guards none inside' := by
  intro t'
  rw [leaves, guards t', Option.some.injEq]
  constructor
  · rintro ⟨other, same⟩
    exact absurd same.symm other
  · intro none
    cases none

end Guards
