import Mathlib.Data.Nat.Bitwise

/-! # Fixed-width integers as bytes

Big and little endian views of 24 and 32 bit words, written with the shifts and
ors a C program uses. Every word that fits its width survives the round trip.
-/

/-- A byte string: a receive buffer, a payload, or a `std::string`. -/
abbrev Bytes := List UInt8

namespace Endian

/-- `b₀ << 16 | b₁ << 8 | b₂`. -/
def be24 (b₀ b₁ b₂ : UInt8) : UInt32 :=
  b₀.toUInt32 <<< 16 ||| b₁.toUInt32 <<< 8 ||| b₂.toUInt32

/-- `b₀ << 24 | b₁ << 16 | b₂ << 8 | b₃`. -/
def be32 (b₀ b₁ b₂ b₃ : UInt8) : UInt32 :=
  b₀.toUInt32 <<< 24 ||| b₁.toUInt32 <<< 16 ||| b₂.toUInt32 <<< 8 ||| b₃.toUInt32

/-- `b₀ | b₁ << 8 | b₂ << 16 | b₃ << 24`. -/
def le32 (b₀ b₁ b₂ b₃ : UInt8) : UInt32 := be32 b₃ b₂ b₁ b₀

/-- The three bytes of a word, most significant first; higher bits are dropped. -/
def toBE24 (n : UInt32) : Bytes := [(n >>> 16).toUInt8, (n >>> 8).toUInt8, n.toUInt8]

/-- The four bytes of a word, most significant first. -/
def toBE32 (n : UInt32) : Bytes :=
  [(n >>> 24).toUInt8, (n >>> 16).toUInt8, (n >>> 8).toUInt8, n.toUInt8]

/-- The four bytes of a word, least significant first. -/
def toLE32 (n : UInt32) : Bytes :=
  [n.toUInt8, (n >>> 8).toUInt8, (n >>> 16).toUInt8, (n >>> 24).toUInt8]

/-- The eight bytes of a word, most significant first. -/
def toBE64 (n : UInt64) : Bytes :=
  [(n >>> 56).toUInt8, (n >>> 48).toUInt8, (n >>> 40).toUInt8, (n >>> 32).toUInt8,
    (n >>> 24).toUInt8, (n >>> 16).toUInt8, (n >>> 8).toUInt8, n.toUInt8]

@[simp] theorem toBE24_length (n : UInt32) : (toBE24 n).length = 3 := rfl

@[simp] theorem toBE32_length (n : UInt32) : (toBE32 n).length = 4 := rfl

@[simp] theorem toLE32_length (n : UInt32) : (toLE32 n).length = 4 := rfl

private theorem shift_or {k a b : Nat} (narrow : b < 2 ^ k) : a <<< k ||| b = a * 2 ^ k + b := by
  rw [← Nat.shiftLeft_add_eq_or_of_lt narrow, Nat.shiftLeft_eq]

private theorem byte_shift (b : UInt8) {k : UInt32} (small : k.toNat ≤ 24) :
    (b.toUInt32 <<< k).toNat = b.toNat <<< k.toNat := by
  have wide : b.toNat <<< k.toNat < 2 ^ 32 := by
    rw [Nat.shiftLeft_eq]
    calc b.toNat * 2 ^ k.toNat ≤ b.toNat * 2 ^ 24 :=
          Nat.mul_le_mul_left _ (Nat.pow_le_pow_right (by decide) small)
      _ < 2 ^ 32 := by have := b.toNat_lt; omega
  rw [UInt32.toNat_shiftLeft, UInt8.toNat_toUInt32, Nat.mod_eq_of_lt (by omega : k.toNat < 32),
    Nat.mod_eq_of_lt wide]

theorem be24_toNat (b₀ b₁ b₂ : UInt8) :
    (be24 b₀ b₁ b₂).toNat = b₀.toNat * 65536 + b₁.toNat * 256 + b₂.toNat := by
  have h₁ := b₁.toNat_lt
  have h₂ := b₂.toNat_lt
  have high : (b₀.toUInt32 <<< 16).toNat = b₀.toNat <<< 16 := byte_shift b₀ (by decide)
  have mid : (b₁.toUInt32 <<< 8).toNat = b₁.toNat <<< 8 := byte_shift b₁ (by decide)
  have low : b₁.toNat <<< 8 ||| b₂.toNat = b₁.toNat * 2 ^ 8 + b₂.toNat := shift_or h₂
  rw [be24, UInt32.toNat_or, UInt32.toNat_or, high, mid, UInt8.toNat_toUInt32, Nat.lor_assoc,
    low, shift_or (by omega)]
  omega

theorem be32_toNat (b₀ b₁ b₂ b₃ : UInt8) : (be32 b₀ b₁ b₂ b₃).toNat =
    b₀.toNat * 16777216 + b₁.toNat * 65536 + b₂.toNat * 256 + b₃.toNat := by
  have h₁ := b₁.toNat_lt
  have h₂ := b₂.toNat_lt
  have h₃ := b₃.toNat_lt
  have split : be32 b₀ b₁ b₂ b₃ = b₀.toUInt32 <<< 24 ||| be24 b₁ b₂ b₃ := by
    simp only [be32, be24, UInt32.or_assoc]
  have high : (b₀.toUInt32 <<< 24).toNat = b₀.toNat <<< 24 := byte_shift b₀ (by decide)
  have low := be24_toNat b₁ b₂ b₃
  rw [split, UInt32.toNat_or, high, shift_or (by omega)]
  omega

theorem be24_toBE24 {n : UInt32} (small : n.toNat < 2 ^ 24) :
    be24 (n >>> 16).toUInt8 (n >>> 8).toUInt8 n.toUInt8 = n := by
  apply UInt32.toNat_inj.mp
  simp [be24_toNat, Nat.shiftRight_eq_div_pow]
  omega

/-- Three bytes hold the low 24 bits of a word and nothing else. -/
theorem toBE24_congr {m n : UInt32} (same : m.toNat % 2 ^ 24 = n.toNat % 2 ^ 24) :
    toBE24 m = toBE24 n := by
  simp only [toBE24, List.cons.injEq, and_true, ← UInt8.toNat_inj]
  simp [Nat.shiftRight_eq_div_pow]
  omega

theorem be32_toBE32 (n : UInt32) :
    be32 (n >>> 24).toUInt8 (n >>> 16).toUInt8 (n >>> 8).toUInt8 n.toUInt8 = n := by
  apply UInt32.toNat_inj.mp
  have := n.toNat_lt
  simp [be32_toNat, Nat.shiftRight_eq_div_pow]
  omega

theorem toLE32_le32 (b₀ b₁ b₂ b₃ : UInt8) : toLE32 (le32 b₀ b₁ b₂ b₃) = [b₀, b₁, b₂, b₃] := by
  have h₀ := b₀.toNat_lt
  have h₁ := b₁.toNat_lt
  have h₂ := b₂.toNat_lt
  have h₃ := b₃.toNat_lt
  have value := be32_toNat b₃ b₂ b₁ b₀
  simp only [toLE32, le32, List.cons.injEq, and_true, ← UInt8.toNat_inj]
  simp [Nat.shiftRight_eq_div_pow, value]
  omega

end Endian
