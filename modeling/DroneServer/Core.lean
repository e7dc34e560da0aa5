import DroneServer.Lib.Endian

/-! # What every part of the server shares

Return codes, the ways the process can stop without returning, and the identity
of a connected session.
-/

namespace DroneServer

/-- How the process stops other than by returning. Reading outside a vector, through a null pointer
    or from a member nothing has assigned is undefined in the source; the model ends there. -/
inductive Fault where
  /-- A failed `assert`, which calls `abort`. -/
  | assertion
  /-- `std::out_of_range` leaving the read callback, which ends `io_context::run`. -/
  | outOfRange
  | nullDereference
  | outOfBounds
  | uninitialised
  /-- A loop that never ends, so that the event loop never runs again. -/
  | diverges
  deriving DecidableEq, Repr

/-- The `int` codes of the read path: `0`, `1` and any negative value. -/
inductive Ret where
  /-- `0`: done. -/
  | ok
  /-- `1`: more input is needed. -/
  | more
  /-- Negative: the session is to be closed. -/
  | fail
  deriving DecidableEq, Repr

/-- The object behind a `shared_ptr<tcp_session>`. -/
abbrev SessionId := Nat

/-- The characters of a literal as the bytes of a `std::string`. -/
def ascii (text : String) : Bytes := text.toList.map fun c => UInt8.ofNat c.toNat

theorem bind_ok {ε α β : Type} {part : Except ε α} {next : α → Except ε β} {result : β} :
    (part >>= next) = .ok result ↔ ∃ value, part = .ok value ∧ next value = .ok result := by
  cases part with
  | error fault =>
      constructor
      · intro h
        cases h
      · rintro ⟨_, h, _⟩
        cases h
  | ok value =>
      constructor
      · exact fun h => ⟨value, rfl, h⟩
      · rintro ⟨_, h, rest⟩
        cases h
        exact rest

theorem bind_error {α β : Type} {part : Except Fault α} {fault : Fault} (failed : part = .error fault)
    (next : α → Except Fault β) : (part >>= next) = .error fault := by
  rw [failed]
  rfl

@[simp] theorem pure_ok {α : Type} {value result : α} :
    (pure value : Except Fault α) = .ok result ↔ value = result := by
  exact ⟨fun h => by cases h; rfl, fun h => h ▸ rfl⟩

/-- Whether a computation returns something of a kind is decided by running it. -/
instance decidableReturns {ε α : Type} {p : α → Prop} [DecidablePred p] (part : Except ε α) :
    Decidable (∃ value, part = .ok value ∧ p value) :=
  match part with
  | .ok value => decidable_of_iff (p value) (by simp)
  | .error _ => .isFalse (by simp)

end DroneServer
