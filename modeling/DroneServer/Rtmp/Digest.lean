import DroneServer.Lib.Checked
import DroneServer.Rtmp.HandshakeReply

/-! # Digests in a block of memory

`find_digest` and `write_digest` once more, now with every byte they touch: they are
given a pointer and a size, and go by pointer arithmetic from there. Here all of it is
checked, and inside a block of 1536 bytes the checks never fail, at base 772 by the
margin of a single byte.
-/

namespace DroneServer

namespace RtmpHandshake

/-- The loop over the four bytes that a position is computed from. -/
def positionSum (b : Bytes) (start : Nat) : Except Fault Nat :=
  (List.range 4).foldlM (fun offs n => do
    let byte ← Checked.get .outOfBounds b (start + n)
    pure (offs + byte.toNat)) 0

/-- What `hmac_sha256` copies of the first `size` bytes: all but the digest at `skip`, where that is
    a place in front of their end. -/
def hmacInput (b : Bytes) (size : Nat) (skip : Option Nat) : Except Fault Bytes :=
  match skip with
  | some skip =>
      if skip ≤ size then do
        let front ← (if skip ≠ 0 then Checked.range .outOfBounds b 0 skip else .ok [])
        let back ←
          (if size ≠ skip + keyLen then Checked.range .outOfBounds b (skip + keyLen) size else .ok [])
        pure (front ++ back)
      else Checked.range .outOfBounds b 0 size
  | none => Checked.range .outOfBounds b 0 size

/-- `find_digest` on memory. -/
def findDigestIn (env : Env) (n : Nat) (b : Bytes) (size : Nat) (key : Bytes) (base : Nat) :
    Except Fault (Option Nat) := do
  let sum ← positionSum b base
  let offs := sum % 728 + base + 4
  let data ← hmacInput b size (some offs)
  match hmacSha256 env n key data none with
  | none => pure none
  | some digest =>
      let there ← Checked.range .outOfBounds b offs (offs + keyLen)
      pure (if digest = there then some offs else none)

/-- `write_digest` on memory. -/
def writeDigestIn (env : Env) (n : Nat) (b : Bytes) (size : Nat) (key : Bytes) (base : Nat) :
    Except Fault (Option (Bytes × Nat)) := do
  let sum ← positionSum b (base + 8)
  let offs := sum % 728 + base + 12
  let data ← hmacInput b size (some offs)
  match hmacSha256 env n key data none with
  | none => pure none
  | some digest =>
      let b ← Checked.write .outOfBounds b offs digest
      pure (some (b, offs))

variable {b : Bytes} {base offs : Nat}

theorem positionSum_inside (inside : base + 4 ≤ b.length) :
    positionSum b base = .ok (offsetSum b base) := by
  have byte : ∀ n < 4, Checked.get Fault.outOfBounds b (base + n) = .ok (b.getD (base + n) 0) :=
    fun n small => Checked.get_inside (by omega) 0
  have four : List.range 4 = [0, 1, 2, 3] := by decide
  simp only [positionSum, four, List.foldlM_cons, List.foldlM_nil, byte 0 (by decide),
    byte 1 (by decide), byte 2 (by decide), byte 3 (by decide)]
  simp only [offsetSum, bind, Except.bind, pure, Except.pure, Nat.zero_add, Nat.add_zero]

theorem hmacInput_inside (inside : offs + keyLen ≤ b.length) :
    hmacInput b b.length (some offs) = .ok (around b offs) := by
  have before : offs ≤ b.length := by omega
  have front : (if offs ≠ 0 then Checked.range Fault.outOfBounds b 0 offs else .ok []) =
      .ok (b.take offs) := by
    split
    · exact Checked.range_front before
    · next first => rw [not_not.mp first, List.take_zero]
  have back : (if b.length ≠ offs + keyLen then
      Checked.range Fault.outOfBounds b (offs + keyLen) b.length else .ok []) =
      .ok (b.drop (offs + keyLen)) := by
    split
    · exact Checked.range_back inside
    · next last => rw [← not_not.mp last, List.drop_length]
  simp only [hmacInput, if_pos before]
  rw [front, back]
  rfl

theorem hmacSha256_around (env : Env) (n : Nat) (key b : Bytes) (offs : Nat) :
    hmacSha256 env n key (around b offs) none = hmacSha256 env n key b (some offs) := rfl

/-- Far enough from the end of the block, nothing outside is read. -/
theorem findDigestIn_inside (env : Env) (n : Nat) (key : Bytes) (margin : base + 763 ≤ b.length) :
    findDigestIn env n b b.length key base = .ok (findDigest env n b key base) := by
  have small := Nat.mod_lt (offsetSum b base) (by decide : 0 < 728)
  have inside : offsetSum b base % 728 + base + 4 + keyLen ≤ b.length := by
    unfold keyLen
    omega
  have sum : positionSum b base = .ok (offsetSum b base) := positionSum_inside (by omega)
  simp only [findDigestIn, findDigest, sum, bind, Except.bind]
  generalize offsetSum b base % 728 + base + 4 = offs at inside ⊢
  have there : Checked.range Fault.outOfBounds b offs (offs + keyLen) = .ok (digestAt b offs) := by
    rw [Checked.range_inside (Nat.le_add_right offs keyLen) inside, Nat.add_sub_cancel_left]
    rfl
  simp only [hmacInput_inside inside, hmacSha256_around]
  cases hmacSha256 env n key b (some offs) with
  | none => rfl
  | some digest =>
      simp only [there]
      rfl

theorem writeDigestIn_inside (env : Env) (n : Nat) (key : Bytes) (margin : base + 771 ≤ b.length) :
    writeDigestIn env n b b.length key base = .ok (writeDigest env n b key base) := by
  have small := Nat.mod_lt (offsetSum b (base + 8)) (by decide : 0 < 728)
  have inside : offsetSum b (base + 8) % 728 + base + 12 + keyLen ≤ b.length := by
    unfold keyLen
    omega
  have sum : positionSum b (base + 8) = .ok (offsetSum b (base + 8)) := positionSum_inside (by omega)
  simp only [writeDigestIn, writeDigest, sum, bind, Except.bind]
  generalize offsetSum b (base + 8) % 728 + base + 12 = offs at inside ⊢
  simp only [hmacInput_inside inside, hmacSha256_around]
  cases found : hmacSha256 env n key b (some offs) with
  | none => rfl
  | some digest =>
      have sized := hmacSha256_length found
      have wrote : Checked.write Fault.outOfBounds b offs digest =
          .ok (b.take offs ++ digest ++ b.drop (offs + digest.length)) :=
        Checked.write_inside (sized.symm ▸ inside)
      simp only [wrote, sized]
      rfl

theorem withDigest_outside {digest : Bytes} (inside : offs + keyLen ≤ b.length)
    (sized : digest.length = keyLen) {i : Nat} (outside : i < offs ∨ offs + keyLen ≤ i) :
    (withDigest b offs digest)[i]? = b[i]? := by
  have front : (b.take offs ++ digest).length = offs + keyLen := by
    rw [List.length_append, List.length_take_of_le (by omega), sized]
  rcases outside with before | behind
  · have head : (withDigest b offs digest).take offs = b.take offs :=
      withDigest_take inside (Nat.le_refl offs)
    rw [← List.getElem?_take_of_lt before, head, List.getElem?_take_of_lt before]
  · rw [withDigest, List.getElem?_append_right (front ▸ behind), front, List.getElem?_drop,
      Nat.add_sub_cancel' behind]

/-- With a hash of 32 bytes for HMAC, in a block of 1536 bytes: what `write_digest` changes is the 32
    bytes at the place it returns, inside the block, and `find_digest` at base 8 finds them there. At
    either base `find_digest` stays inside the block, and finds a digest exactly when the bytes at
    its place are the hash of the other 1504. -/
theorem digests_agree (hash : Bytes → Bytes → Bytes)
    (sized : ∀ key data, (hash key data).length = keyLen) (fill : Nat → UInt8)
    (indeterminate : UInt64) (n n' : Nat) (b key : Bytes) (whole : b.length = c1Size) :
    (∃ b' offs, writeDigestIn (.crypto hash fill indeterminate) n b c1Size key 0 =
        .ok (some (b', offs)) ∧ offs + keyLen ≤ c1Size ∧ b'.length = c1Size ∧
        (∀ i, i < offs ∨ offs + keyLen ≤ i → b'[i]? = b[i]?) ∧
        findDigestIn (.crypto hash fill indeterminate) n' b' c1Size key 8 = .ok (some offs)) ∧
      ∀ base, base = 8 ∨ base = 772 →
        digestOffset b base + keyLen ≤ c1Size ∧ (around b (digestOffset b base)).length = 1504 ∧
        findDigestIn (.crypto hash fill indeterminate) n b c1Size key base =
          .ok (if hash key (around b (digestOffset b base)) = digestAt b (digestOffset b base) then
            some (digestOffset b base) else none) := by
  constructor
  · obtain ⟨_, inside⟩ := digestOffset_bounds b
    have digest := sized key (around b (digestOffset b 8))
    obtain ⟨b', offs, wrote, found, long, _⟩ :
        ∃ b' offs, writeDigest (.crypto hash fill indeterminate) n b key 0 = some (b', offs) ∧
          (∀ n', findDigest (.crypto hash fill indeterminate) n' b' key 8 = some offs) ∧
          b'.length = c1Size ∧ b'.take 12 = b.take 12 :=
      findDigest_writeDigest sized n whole key
    obtain ⟨rfl, rfl⟩ : withDigest b (digestOffset b 8) (hash key (around b (digestOffset b 8))) = b' ∧
        digestOffset b 8 = offs := by
      rw [writeDigest_crypto sized] at wrote
      exact Prod.mk.inj (Option.some.inj wrote)
    refine ⟨_, _, ?_, inside, long, fun i => withDigest_outside (whole ▸ inside) digest, ?_⟩
    · rw [← whole, writeDigestIn_inside _ n key (by rw [whole]; decide), wrote]
    · rw [← long, findDigestIn_inside _ n' key (by rw [long]; decide), found n']
  · intro base either
    have margin : base + 763 ≤ c1Size := by
      unfold c1Size
      rcases either with rfl | rfl <;> decide
    have small := Nat.mod_lt (offsetSum b base) (by decide : 0 < 728)
    have inside : digestOffset b base + keyLen ≤ c1Size := by
      unfold digestOffset keyLen
      omega
    refine ⟨inside, ?_, ?_⟩
    · rw [around, List.length_append, List.length_take_of_le (by omega), List.length_drop, whole]
      unfold c1Size keyLen at inside ⊢
      omega
    · rw [← whole, findDigestIn_inside _ n key (whole ▸ margin), findDigest_crypto sized]

/-- A hash that is always the same, and a block of zeros. -/
theorem digests_agree_zeros :
    findDigestIn (.crypto (fun _ _ => List.replicate keyLen 0) (fun _ => 0) 0) 0
        (List.replicate c1Size 0) c1Size partialClientKey 772 =
      .ok (if List.replicate keyLen 0 = digestAt (List.replicate c1Size 0)
          (digestOffset (List.replicate c1Size 0) 772) then
        some (digestOffset (List.replicate c1Size 0) 772) else none) :=
  ((digests_agree (fun _ _ => List.replicate keyLen 0) (fun _ _ => List.length_replicate) (fun _ => 0)
    0 0 0 (List.replicate c1Size 0) partialClientKey List.length_replicate).2 772 (.inr rfl)).2.2

end RtmpHandshake

end DroneServer
