import Mathlib.Data.List.Basic

/-! # Consumers of a byte stream that arrives in pieces

A consumer takes turns at a buffer: a turn asks for more input, goes on, or
halts. Draining repeats turns until the buffer is empty or a turn stops. When a
turn's outcome does not depend on what follows the input it used, and asking for
more can be taken up again where it was left, feeding a stream piece by piece
ends as draining it in one go does.

The laws may rest on a condition on the input still to come; `Clean` says it
holds wherever draining looks.
-/

namespace Feed

universe u v w

/-- What one turn at a buffer does. -/
inductive Turn (σ : Type u) (β : Type v) where
  | more (s : σ) (rest : List β)
  | next (s : σ) (rest : List β)
  | halt (s : σ) (rest : List β)

/-- Where draining ends: halted, or waiting for more input. -/
structure Drained (σ : Type u) (β : Type v) where
  halted : Bool
  state : σ
  rest : List β

variable {σ : Type u} {β : Type v}

/-- `while (!buf.empty())`, with a bound on the number of turns. -/
def drain (turn : σ → List β → Turn σ β) : Nat → σ → List β → Drained σ β
  | 0, s, buf => ⟨false, s, buf⟩
  | fuel + 1, s, buf =>
      if buf.isEmpty then ⟨false, s, buf⟩
      else match turn s buf with
        | .more s rest => ⟨false, s, rest⟩
        | .halt s rest => ⟨true, s, rest⟩
        | .next s rest => drain turn fuel s rest

/-- Draining without a bound, as a relation. -/
inductive Drains (turn : σ → List β → Turn σ β) : σ → List β → Drained σ β → Prop where
  | empty (s) : Drains turn s [] ⟨false, s, []⟩
  | more {s buf s' rest} : buf ≠ [] → turn s buf = .more s' rest →
      Drains turn s buf ⟨false, s', rest⟩
  | halt {s buf s' rest} : buf ≠ [] → turn s buf = .halt s' rest →
      Drains turn s buf ⟨true, s', rest⟩
  | next {s buf s' rest d} : buf ≠ [] → turn s buf = .next s' rest →
      Drains turn s' rest d → Drains turn s buf d

/-- The states and buffers that draining takes a turn at. -/
inductive Visits (turn : σ → List β → Turn σ β) : σ → List β → σ → List β → Prop where
  | here {s buf} : buf ≠ [] → Visits turn s buf s buf
  | next {s buf s' rest t out} : buf ≠ [] → turn s buf = .next s' rest →
      Visits turn s' rest t out → Visits turn s buf t out

/-- The turns draining takes, the first so many of them if it takes more: the state and the buffer
    of each. -/
def turns (turn : σ → List β → Turn σ β) : Nat → σ → List β → List (σ × List β)
  | 0, _, _ => []
  | fuel + 1, s, buf =>
      if buf.isEmpty then []
      else (s, buf) :: match turn s buf with
        | .next s rest => turns turn fuel s rest
        | .more .. | .halt .. => []

/-- A turn that leaves the state so. -/
def Turn.state : Turn σ β → σ
  | .more s _ | .next s _ | .halt s _ => s

/-- The turns with notes taken at each. -/
def noting {ν : Type w} (turn : σ → List β → Turn σ β) (note : ν → σ → List β → ν) (s : σ × ν)
    (buf : List β) : Turn (σ × ν) β :=
  match turn s.1 buf with
  | .more t rest => .more (t, note s.2 s.1 buf) rest
  | .next t rest => .next (t, note s.2 s.1 buf) rest
  | .halt t rest => .halt (t, note s.2 s.1 buf) rest

/-- The condition holds at every turn draining takes. -/
def Clean (turn : σ → List β → Turn σ β) (Ok : σ → List β → Prop) (s : σ) (buf : List β) : Prop :=
  ∀ t out, Visits turn s buf t out → Ok t out

/-- Check a condition at the turns draining takes, if their number is bounded. -/
def check (turn : σ → List β → Turn σ β) (ok : σ → List β → Bool) : Nat → σ → List β → Bool
  | 0, _, buf => buf.isEmpty
  | fuel + 1, s, buf =>
      buf.isEmpty || ok s buf &&
        match turn s buf with
        | .next s rest => check turn ok fuel s rest
        | .more .. | .halt .. => true

variable {turn : σ → List β → Turn σ β} {Ok : σ → List β → Prop}

theorem Clean.of_check [∀ s buf, Decidable (Ok s buf)] (fuel : Nat) {s : σ} {buf : List β}
    (checked : check turn (fun s buf => decide (Ok s buf)) fuel s buf = true) :
    Clean turn Ok s buf := by
  intro t out visit
  induction visit generalizing fuel with
  | @here s buf some =>
      cases fuel with
      | zero => exact absurd (List.isEmpty_iff.mp checked) some
      | succ fuel =>
          have filled := List.isEmpty_eq_false_iff.mpr some
          simp only [check, filled, Bool.false_or, Bool.and_eq_true, decide_eq_true_eq] at checked
          exact checked.1
  | @next s buf s' rest t out some step _ ih =>
      cases fuel with
      | zero => exact absurd (List.isEmpty_iff.mp checked) some
      | succ fuel =>
          have filled := List.isEmpty_eq_false_iff.mpr some
          simp only [check, filled, Bool.false_or, Bool.and_eq_true, step] at checked
          exact ih fuel checked.2

theorem Clean.here {s buf} (clean : Clean turn Ok s buf) (some : buf ≠ []) : Ok s buf :=
  clean s buf (.here some)

theorem Clean.next {s buf s' rest} (clean : Clean turn Ok s buf) (some : buf ≠ [])
    (step : turn s buf = .next s' rest) : Clean turn Ok s' rest :=
  fun t out visit => clean t out (.next some step visit)

theorem Clean.nil (s : σ) : Clean turn Ok s [] := by
  intro t out visit
  cases visit with
  | here some | next some => exact absurd rfl some

theorem Clean.of_next {s buf s' rest} (ok : Ok s buf) (step : turn s buf = .next s' rest)
    (later : Clean turn Ok s' rest) : Clean turn Ok s buf := by
  intro t out visit
  cases visit with
  | here => exact ok
  | next _ again after =>
      rw [step] at again
      cases again
      exact later t out after

theorem Clean.of_halt {s buf s' rest} (ok : Ok s buf) (step : turn s buf = .halt s' rest) :
    Clean turn Ok s buf := by
  intro t out visit
  cases visit with
  | here => exact ok
  | next _ again =>
      rw [step] at again
      cases again

/-- A measure that every further turn lowers bounds the number of turns. -/
theorem drains_drain (size : σ → List β → Nat)
    (progress : ∀ s buf s' rest, buf ≠ [] → turn s buf = .next s' rest → size s' rest < size s buf)
    (fuel : Nat) (s : σ) (buf : List β) (enough : size s buf < fuel) :
    Drains turn s buf (drain turn fuel s buf) := by
  induction fuel generalizing s buf with
  | zero => omega
  | succ fuel ih =>
      cases buf with
      | nil => exact .empty s
      | cons b buf =>
          have some : b :: buf ≠ [] := List.cons_ne_nil b buf
          simp only [drain, List.isEmpty_cons, Bool.false_eq_true, if_false]
          cases step : turn s (b :: buf) with
          | more s' rest => exact .more some step
          | halt s' rest => exact .halt some step
          | next s' rest =>
              have lower := progress s _ s' rest some step
              exact .next some step (ih s' rest (by omega))

section Noting

variable {ν : Type w} {note : ν → σ → List β → ν}

theorem noting_next {s t : σ × ν} {buf rest : List β}
    (step : noting turn note s buf = .next t rest) :
    turn s.1 buf = .next t.1 rest := by
  unfold noting at step
  split at step
  · cases step
  · next taken =>
      cases step
      exact taken
  · cases step

theorem noting_more {s t : σ × ν} {buf rest : List β}
    (step : noting turn note s buf = .more t rest) :
    turn s.1 buf = .more t.1 rest ∧ t.2 = note s.2 s.1 buf := by
  unfold noting at step
  split at step
  · next taken =>
      cases step
      exact ⟨taken, rfl⟩
  · cases step
  · cases step

theorem noting_halt {s t : σ × ν} {buf rest : List β}
    (step : noting turn note s buf = .halt t rest) :
    turn s.1 buf = .halt t.1 rest := by
  unfold noting at step
  split at step
  · cases step
  · cases step
  · next taken =>
      cases step
      exact taken

theorem drain_noting (fuel : Nat) (s : σ × ν) (buf : List β) :
    drain turn fuel s.1 buf =
      ⟨(drain (noting turn note) fuel s buf).halted, (drain (noting turn note) fuel s buf).state.1,
        (drain (noting turn note) fuel s buf).rest⟩ := by
  induction fuel generalizing s buf with
  | zero => rfl
  | succ fuel ih =>
      by_cases none : buf = []
      · subst none
        rfl
      · have filled := List.isEmpty_eq_false_iff.mpr none
        simp only [drain, filled, Bool.false_eq_true, if_false, noting]
        cases turn s.1 buf with
        | more t rest | halt t rest => rfl
        | next t rest => exact ih (t, note s.2 s.1 buf) rest

theorem noting_state (s : σ × ν) (buf : List β) :
    (noting turn note s buf).state = ((turn s.1 buf).state, note s.2 s.1 buf) := by
  unfold noting
  cases turn s.1 buf <;> rfl

end Noting

theorem turns_length (size : σ → List β → Nat)
    (progress : ∀ s buf s' rest, buf ≠ [] → turn s buf = .next s' rest → size s' rest < size s buf)
    (positive : ∀ s buf, buf ≠ [] → 0 < size s buf) (fuel : Nat) (s : σ) (buf : List β) :
    (turns turn fuel s buf).length ≤ size s buf := by
  induction fuel generalizing s buf with
  | zero => exact Nat.zero_le _
  | succ fuel ih =>
      by_cases none : buf = []
      · subst none
        exact Nat.zero_le _
      · have filled := List.isEmpty_eq_false_iff.mpr none
        simp only [turns, filled, Bool.false_eq_true, if_false, List.length_cons]
        cases step : turn s buf with
        | more s' rest | halt s' rest => exact positive s buf none
        | next s' rest =>
            have lower := progress s buf s' rest none step
            exact Nat.succ_le_of_lt (Nat.lt_of_le_of_lt (ih s' rest) lower)

section Kept

variable {P : σ → Prop}
  (keeps : ∀ s buf, P s → buf ≠ [] → P (turn s buf).state)
include keeps

theorem turns_keep {fuel : Nat} {s : σ} {buf : List β} (holds : P s) {call : σ × List β}
    (taken : call ∈ turns turn fuel s buf) : P call.1 := by
  induction fuel generalizing s buf with
  | zero => cases taken
  | succ fuel ih =>
      by_cases none : buf = []
      · subst none
        cases taken
      · have filled := List.isEmpty_eq_false_iff.mpr none
        have after := keeps s buf holds none
        simp only [turns, filled, Bool.false_eq_true, if_false, List.mem_cons] at taken
        obtain rfl | taken := taken
        · exact holds
        · cases step : turn s buf with
          | more s' rest | halt s' rest =>
              rw [step] at taken
              cases taken
          | next s' rest =>
              rw [step] at taken after
              exact ih after taken

theorem Drains.keep {s : σ} {buf : List β} {d : Drained σ β} (drains : Drains turn s buf d)
    (holds : P s) : P d.state := by
  induction drains with
  | empty => exact holds
  | more some step | halt some step =>
      have after := keeps _ _ holds some
      rwa [step] at after
  | next some step _ ih =>
      have after := keeps _ _ holds some
      rw [step] at after
      exact ih after

end Kept

theorem Drains.unique {s buf d d'} (left : Drains turn s buf d) (right : Drains turn s buf d') :
    d = d' := by
  induction left with
  | empty s =>
      cases right with
      | empty => rfl
      | more some | halt some | next some => exact absurd rfl some
  | more some step =>
      cases right with
      | empty => exact absurd rfl some
      | more _ again | halt _ again | next _ again _ =>
          rw [step] at again
          cases again
          try rfl
  | halt some step =>
      cases right with
      | empty => exact absurd rfl some
      | more _ again | halt _ again | next _ again _ =>
          rw [step] at again
          cases again
          try rfl
  | next some step _ ih =>
      cases right with
      | empty => exact absurd rfl some
      | more _ again | halt _ again =>
          rw [step] at again
          cases again
      | next _ again rest =>
          rw [step] at again
          cases again
          exact ih rest

/-- The laws of a consumer that can be fed in pieces. Each is asked only where the condition holds
    of the whole input, the part `later` that has not arrived included. -/
structure Resumable (turn : σ → List β → Turn σ β) (Ok : σ → List β → Prop) : Prop where
  next : ∀ {s now s' rest} later, now ≠ [] → Ok s (now ++ later) → turn s now = .next s' rest →
    turn s (now ++ later) = .next s' (rest ++ later)
  halt : ∀ {s now s' rest} later, now ≠ [] → Ok s (now ++ later) → turn s now = .halt s' rest →
    turn s (now ++ later) = .halt s' (rest ++ later)
  more : ∀ {s now s' rest} later, now ≠ [] → Ok s (now ++ later) → turn s now = .more s' rest →
    turn s' (rest ++ later) = turn s (now ++ later) ∧ Ok s' (rest ++ later)

/-- What has arrived is offered to a consumer that has not halted. -/
def feed (turn : σ → List β → Turn σ β) (size : σ → List β → Nat) (d : Drained σ β)
    (piece : List β) : Drained σ β :=
  if d.halted then d
  else drain turn (size d.state (d.rest ++ piece) + 1) d.state (d.rest ++ piece)

theorem foldl_feed_halted (size : σ → List β → Nat) (pieces : List (List β)) (s : σ)
    (rest : List β) : pieces.foldl (feed turn size) ⟨true, s, rest⟩ = ⟨true, s, rest⟩ := by
  induction pieces with
  | nil => rfl
  | cons _ _ ih => exact ih

section Laws

variable (laws : Resumable turn Ok)
include laws

/-- Waiting after a first part and draining on with the rest is draining both at once. -/
theorem Drains.append_wait {s now s' rest d} (first : Drains turn s now ⟨false, s', rest⟩)
    (later : List β) (clean : Clean turn Ok s (now ++ later))
    (second : Drains turn s' (rest ++ later) d) : Drains turn s (now ++ later) d := by
  generalize waiting : (⟨false, s', rest⟩ : Drained σ β) = w at first
  induction first with
  | empty s =>
      cases waiting
      exact second
  | @more s buf t out some step =>
      cases waiting
      have whole : buf ++ later ≠ [] := List.append_ne_nil_of_left_ne_nil some later
      obtain ⟨same, _⟩ := laws.more later some (clean.here whole) step
      generalize input : rest ++ later = joined at second same
      cases second with
      | empty =>
          obtain ⟨rfl, rfl⟩ := List.append_eq_nil_iff.mp input
          exact .more whole (by simpa only [List.append_nil] using step)
      | more _ again => exact .more whole (same ▸ again)
      | halt _ again => exact .halt whole (same ▸ again)
      | next _ again after => exact .next whole (same ▸ again) after
  | halt some step => cases waiting
  | @next s buf t out _ some step _ ih =>
      have whole : buf ++ later ≠ [] := List.append_ne_nil_of_left_ne_nil some later
      have extended := laws.next later some (clean.here whole) step
      exact .next whole extended (ih (clean.next whole extended) waiting)

theorem Drains.append_halt {s now s' rest} (first : Drains turn s now ⟨true, s', rest⟩)
    (later : List β) (clean : Clean turn Ok s (now ++ later)) :
    Drains turn s (now ++ later) ⟨true, s', rest ++ later⟩ := by
  generalize halted : (⟨true, s', rest⟩ : Drained σ β) = w at first
  induction first with
  | empty | more => cases halted
  | @halt s buf t out some step =>
      cases halted
      have whole : buf ++ later ≠ [] := List.append_ne_nil_of_left_ne_nil some later
      exact .halt whole (laws.halt later some (clean.here whole) step)
  | @next s buf t out _ some step _ ih =>
      have whole : buf ++ later ≠ [] := List.append_ne_nil_of_left_ne_nil some later
      have extended := laws.next later some (clean.here whole) step
      exact .next whole extended (ih (clean.next whole extended) halted)

/-- The condition still holds wherever draining looks after it has waited. -/
theorem Clean.resume {s now s' rest} (first : Drains turn s now ⟨false, s', rest⟩)
    (later : List β) (clean : Clean turn Ok s (now ++ later)) :
    Clean turn Ok s' (rest ++ later) := by
  generalize waiting : (⟨false, s', rest⟩ : Drained σ β) = w at first
  induction first with
  | empty s =>
      cases waiting
      exact clean
  | @more s buf t out some step =>
      cases waiting
      have whole : buf ++ later ≠ [] := List.append_ne_nil_of_left_ne_nil some later
      obtain ⟨same, ok⟩ := laws.more later some (clean.here whole) step
      intro t out visit
      cases visit with
      | here => exact ok
      | next _ again after => exact (clean.next whole (same ▸ again)) t out after
  | halt => cases waiting
  | @next s buf t out _ some step _ ih =>
      have whole : buf ++ later ≠ [] := List.append_ne_nil_of_left_ne_nil some later
      have extended := laws.next later some (clean.here whole) step
      exact ih (clean.next whole extended) waiting

/-- Feeding pieces one by one and draining their concatenation end in the same state, and with the
    same bytes left over unless the consumer halted. -/
theorem feed_pieces (size : σ → List β → Nat)
    (progress : ∀ s buf s' rest, buf ≠ [] → turn s buf = .next s' rest → size s' rest < size s buf)
    (pieces : List (List β)) (s : σ) (buf : List β)
    (clean : Clean turn Ok s (buf ++ pieces.flatten)) (given : pieces ≠ []) :
    ∃ d, Drains turn s (buf ++ pieces.flatten) d ∧
      (pieces.foldl (feed turn size) ⟨false, s, buf⟩).halted = d.halted ∧
      (pieces.foldl (feed turn size) ⟨false, s, buf⟩).state = d.state ∧
      (d.halted = false → (pieces.foldl (feed turn size) ⟨false, s, buf⟩).rest = d.rest) := by
  induction pieces generalizing s buf with
  | nil => exact absurd rfl given
  | cons piece pieces ih =>
      have first : Drains turn s (buf ++ piece)
          (feed turn size ⟨false, s, buf⟩ piece) :=
        drains_drain size progress _ s _ (Nat.lt_succ_self _)
      rw [List.flatten_cons, ← List.append_assoc] at clean ⊢
      simp only [List.foldl_cons]
      generalize feed turn size ⟨false, s, buf⟩ piece = d at first ⊢
      obtain ⟨halted, t, out⟩ := d
      cases halted with
      | true =>
          rw [foldl_feed_halted]
          exact ⟨_, first.append_halt laws _ clean, rfl, rfl, fun h => by cases h⟩
      | false =>
          by_cases last : pieces = []
          · subst last
            refine ⟨_, ?_, rfl, rfl, fun _ => rfl⟩
            simpa only [List.flatten_nil, List.append_nil, List.foldl_nil] using first
          · obtain ⟨d, drains, same⟩ := ih t out (clean.resume laws first _) last
            exact ⟨d, first.append_wait laws _ clean drains, same⟩

end Laws

end Feed
