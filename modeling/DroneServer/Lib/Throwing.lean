import Mathlib.Init

/-! # Computations that change a state and may throw

`EStateM` keeps the state a computation had reached when it threw, as a `throw`
does in a language with assignments. `Ends` says at once where a computation that
returns leads and where one that throws does, and the rules below follow the ways
programs are put together: in sequence, over a list, and under a handler.
-/

universe u

variable {ε σ α β : Type u}

/-- Started in `s`, the computation returns a value and a state of `Q`, or throws one of `E`. -/
def Ends (m : EStateM ε σ α) (s : σ) (Q : α → σ → Prop) (E : ε → σ → Prop) : Prop :=
  match m s with
  | .ok a s' => Q a s'
  | .error e s' => E e s'

/-- Started in `s`, the computation returns. -/
def Returns (m : EStateM ε σ α) (s : σ) : Prop := ∃ a s', m s = .ok a s'

variable {m : EStateM ε σ α} {s : σ} {Q : α → σ → Prop} {E : ε → σ → Prop}

theorem bind_ran {f : α → EStateM ε σ β} {b : β} {t : σ} :
    (m >>= f) s = .ok b t ↔ ∃ a s', m s = .ok a s' ∧ f a s' = .ok b t := by
  change EStateM.bind m f s = .ok b t ↔ _
  unfold EStateM.bind
  cases m s with
  | ok a s' =>
      constructor
      · exact fun ran => ⟨a, s', rfl, ran⟩
      · rintro ⟨_, _, ⟨⟩, ran⟩
        exact ran
  | error e s' => exact iff_of_false nofun fun ⟨_, _, ran, _⟩ => nomatch ran

theorem run_bind {f : α → EStateM ε σ β} {a : α} {s' : σ} (ran : m s = .ok a s') :
    (m >>= f) s = f a s' := by
  change EStateM.bind m f s = _
  unfold EStateM.bind
  rw [ran]

theorem run_bind_error {f : α → EStateM ε σ β} {e : ε} {s' : σ} (threw : m s = .error e s') :
    (m >>= f) s = .error e s' := by
  change EStateM.bind m f s = _
  unfold EStateM.bind
  rw [threw]

theorem run_catch {handler : ε → EStateM ε σ α} {a : α} {s' : σ} (ran : m s = .ok a s') :
    (tryCatch m handler) s = .ok a s' := by
  change EStateM.tryCatch m handler s = _
  unfold EStateM.tryCatch
  rw [ran]

/-- Whether a computation returns a value and a state of a kind is decided by running it. -/
instance decidableRan {P : α → σ → Prop} [∀ a t, Decidable (P a t)] (m : EStateM ε σ α) (s : σ) :
    Decidable (∃ a t, m s = .ok a t ∧ P a t) :=
  match m s with
  | .ok a t =>
      decidable_of_iff (P a t)
        ⟨fun holds => ⟨a, t, rfl, holds⟩, by rintro ⟨_, _, ⟨⟩, holds⟩; exact holds⟩
  | .error _ _ => .isFalse nofun

namespace Ends

@[simp] theorem pure_iff {a : α} : Ends (pure a) s Q E ↔ Q a s := .rfl

@[simp] theorem get_iff {R : σ → σ → Prop} {E : ε → σ → Prop} :
    Ends (get : EStateM ε σ σ) s R E ↔ R s s := .rfl

@[simp] theorem modify_iff {f : σ → σ} {R : PUnit → σ → Prop} {E : ε → σ → Prop} :
    Ends (modify f : EStateM ε σ PUnit) s R E ↔ R ⟨⟩ (f s) := .rfl

theorem bind_iff {f : α → EStateM ε σ β} {R : β → σ → Prop} :
    Ends (m >>= f) s R E ↔ Ends m s (fun a s' => Ends (f a) s' R E) E := by
  change Ends (EStateM.bind m f) s R E ↔ _
  unfold Ends EStateM.bind
  cases m s <;> rfl

/-- Only what is thrown reaches the handler, in the state it was thrown in. -/
theorem catch_iff {handler : ε → EStateM ε σ α} :
    Ends (tryCatch m handler) s Q E ↔ Ends m s Q fun e s' => Ends (handler e) s' Q E := by
  change Ends (EStateM.tryCatch m handler) s Q E ↔ _
  unfold Ends EStateM.tryCatch
  simp only [EStateM.Backtrackable.save, EStateM.Backtrackable.restore]
  cases m s <;> rfl

theorem mono {Q' : α → σ → Prop} {E' : ε → σ → Prop} (ends : Ends m s Q E)
    (returned : ∀ a s', Q a s' → Q' a s') (thrown : ∀ e s', E e s' → E' e s') :
    Ends m s Q' E' := by
  unfold Ends at ends ⊢
  cases result : m s with
  | ok a s' =>
      rw [result] at ends
      exact returned a s' ends
  | error e s' =>
      rw [result] at ends
      exact thrown e s' ends

theorem bind {f : α → EStateM ε σ β} {R : β → σ → Prop} {E' : ε → σ → Prop} (first : Ends m s Q E)
    (next : ∀ a s', Q a s' → Ends (f a) s' R E') (thrown : ∀ e s', E e s' → E' e s') :
    Ends (m >>= f) s R E' :=
  bind_iff.mpr (first.mono next thrown)

theorem caught {handler : ε → EStateM ε σ α} {E' : ε → σ → Prop} (body : Ends m s Q E)
    (handled : ∀ e s', E e s' → Ends (handler e) s' Q E') : Ends (tryCatch m handler) s Q E' :=
  catch_iff.mpr (body.mono (fun _ _ => id) handled)

/-- Over a list: each round keeps the invariant and returns exactly on the elements that pass, so the
    loop returns exactly when all of them do. -/
theorem forM {f : α → EStateM ε σ PUnit} {I : σ → Prop} {P : α → Prop} {X : ε → σ → Prop}
    (l : List α)
    (round : ∀ a ∈ l, ∀ s, I s →
      Ends (f a) s (fun _ s' => I s' ∧ P a) fun e s' => X e s' ∧ ¬ P a)
    (start : I s) :
    Ends (l.forM f) s (fun _ s' => I s' ∧ ∀ a ∈ l, P a)
      fun e s' => X e s' ∧ ¬ ∀ a ∈ l, P a := by
  induction l generalizing s with
  | nil => exact ⟨start, fun a inside => absurd inside List.not_mem_nil⟩
  | cons a l ih =>
      have rest := fun s (holds : I s) =>
        ih (fun b inside => round b (List.mem_cons_of_mem a inside)) holds
      refine (round a List.mem_cons_self s start).bind (fun _ s' ⟨holds, first⟩ => ?_) ?_
      · refine (rest s' holds).mono ?_ ?_
        · rintro _ s'' ⟨holds, all⟩
          exact ⟨holds, List.forall_mem_cons.mpr ⟨first, all⟩⟩
        · rintro e s'' ⟨thrown, some⟩
          exact ⟨thrown, fun all => some (List.forall_mem_cons.mp all).2⟩
      · rintro e s' ⟨thrown, refused⟩
        exact ⟨thrown, fun all => refused (List.forall_mem_cons.mp all).1⟩

/-- A computation that returns under a condition and throws without it returns exactly then. -/
theorem returns_iff {C : Prop} (ends : Ends m s (fun _ _ => C) fun _ _ => ¬ C) :
    Returns m s ↔ C := by
  unfold Ends at ends
  unfold Returns
  split at ends
  · next same => exact ⟨fun _ => ends, fun _ => ⟨_, _, same⟩⟩
  · next same =>
      constructor
      · rintro ⟨a, s', returned⟩
        rw [same] at returned
        cases returned
      · exact fun holds => absurd holds ends

end Ends

/-- Whether it returns or throws, the computation leaves a state of `I` where it found one. -/
def Keeps (I : σ → Prop) (m : EStateM ε σ α) : Prop := ∀ s, I s → Ends m s (fun _ => I) fun _ => I

namespace Keeps

variable {I : σ → Prop}

theorem pure (a : α) : Keeps I (pure a : EStateM ε σ α) := fun _ holds => holds

theorem throw (e : ε) : Keeps I (throw e : EStateM ε σ α) := fun _ holds => holds

theorem get_bind {k : σ → EStateM ε σ α} (next : ∀ s, I s → Keeps I (k s)) :
    Keeps I (get >>= k) := fun s holds => next s holds s holds

theorem get : Keeps I (get : EStateM ε σ σ) := fun _ holds => holds

theorem modify {f : σ → σ} (kept : ∀ s, I s → I (f s)) :
    Keeps I (modify f : EStateM ε σ PUnit) := fun s holds => kept s holds

theorem bind {f : α → EStateM ε σ β} (first : Keeps I m) (next : ∀ a, Keeps I (f a)) :
    Keeps I (m >>= f) :=
  fun s holds => (first s holds).bind (fun a s' holds => next a s' holds) fun _ _ holds => holds

theorem caught {handler : ε → EStateM ε σ α} (body : Keeps I m)
    (handled : ∀ e, Keeps I (handler e)) : Keeps I (tryCatch m handler) :=
  fun s holds => (body s holds).caught fun e s' holds => handled e s' holds

theorem forM {f : α → EStateM ε σ PUnit} (l : List α) (round : ∀ a, Keeps I (f a)) :
    Keeps I (l.forM f) := by
  induction l with
  | nil => exact pure _
  | cons a l ih => exact bind (round a) fun _ => ih

end Keeps

/-- What two runs of a computation from related states come to: the same value or the same exception,
    and related states again. -/
def Matches (R : σ → σ → Prop) : EStateM.Result ε σ α → EStateM.Result ε σ α → Prop
  | .ok a s, .ok b t => a = b ∧ R s t
  | .error e s, .error f t => e = f ∧ R s t
  | .ok _ _, .error _ _ | .error _ _, .ok _ _ => False

/-- The computation does not see what the relation leaves open. -/
def Blind (R : σ → σ → Prop) (m : EStateM ε σ α) : Prop := ∀ s t, R s t → Matches R (m s) (m t)

namespace Blind

variable {R : σ → σ → Prop}

theorem pure (a : α) : Blind R (pure a : EStateM ε σ α) := fun _ _ related => ⟨rfl, related⟩

theorem throw (e : ε) : Blind R (throw e : EStateM ε σ α) := fun _ _ related => ⟨rfl, related⟩

theorem modify {f : σ → σ} (kept : ∀ s t, R s t → R (f s) (f t)) :
    Blind R (modify f : EStateM ε σ PUnit) := fun s t related => ⟨rfl, kept s t related⟩

theorem bind {f : α → EStateM ε σ β} (first : Blind R m) (next : ∀ a, Blind R (f a)) :
    Blind R (m >>= f) := by
  intro s t related
  have both := first s t related
  change Matches R (EStateM.bind m f s) (EStateM.bind m f t)
  unfold EStateM.bind
  cases left : m s <;> cases right : m t <;> rw [left, right] at both
  case ok.ok a s' b t' =>
    obtain ⟨rfl, related⟩ := both
    exact next a s' t' related
  case error.error => exact both
  case ok.error | error.ok => exact both.elim

theorem get_bind {k : σ → EStateM ε σ α} (same : ∀ s t, R s t → k t = k s)
    (next : ∀ s, Blind R (k s)) : Blind R (get >>= k) := by
  intro s t related
  have both := next s s t related
  rwa [show k s t = k t t by rw [same s t related]] at both

theorem caught {handler : ε → EStateM ε σ α} (body : Blind R m)
    (handled : ∀ e, Blind R (handler e)) : Blind R (tryCatch m handler) := by
  intro s t related
  have both := body s t related
  change Matches R (EStateM.tryCatch m handler s) (EStateM.tryCatch m handler t)
  unfold EStateM.tryCatch
  simp only [EStateM.Backtrackable.save, EStateM.Backtrackable.restore]
  cases left : m s <;> cases right : m t <;> rw [left, right] at both
  case ok.ok => exact both
  case error.error e s' f t' =>
    obtain ⟨rfl, related⟩ := both
    exact handled e s' t' related
  case ok.error | error.ok => exact both.elim

theorem forM {f : α → EStateM ε σ PUnit} (l : List α) (round : ∀ a, Blind R (f a)) :
    Blind R (l.forM f) := by
  induction l with
  | nil => exact pure _
  | cons a l ih => exact bind (round a) fun _ => ih

end Blind
