import DroneServer.Rtmp.Handshake

/-! # The handshake reply

With an HMAC that never fails, what `handle_c0c1` and `send_s0s1s2` make of a
`C0C1`. A digest is written where a verifier will look for it: the four bytes its
position is computed from lie before it, and the writer counts them from base 0
where the verifier counts them from base 8. With one that may fail, the reply is
built as a whole or not at all.
-/

namespace DroneServer

open Endian

/-- A crypto library that never fails, with any hash of 32 bytes and any random bytes. -/
def Env.crypto (hash : Bytes → Bytes → Bytes) (fill : Nat → UInt8) (indeterminate : UInt64) : Env where
  hmac _ key data := some (hash key data)
  rand := some fill
  indeterminate := indeterminate

namespace RtmpHandshake

/-- Where a digest is in a block, by the convention of `find_digest`. -/
def digestOffset (b : Bytes) (base : Nat) : Nat := offsetSum b base % 728 + base + 4

/-- The bytes of a block around the digest at `offs`. -/
def around (b : Bytes) (offs : Nat) : Bytes := b.take offs ++ b.drop (offs + keyLen)

/-- The digest at `offs`. -/
def digestAt (b : Bytes) (offs : Nat) : Bytes := (b.drop offs).take keyLen

theorem hmacSha256_length {env : Env} {n : Nat} {key data digest : Bytes} {skip : Option Nat}
    (done : hmacSha256 env n key data skip = some digest) : digest.length = keyLen := by
  obtain ⟨_, sized⟩ := Option.filter_eq_some_iff.mp done
  exact of_decide_eq_true sized

section Hash

variable {hash : Bytes → Bytes → Bytes} (sized : ∀ key data, (hash key data).length = keyLen)
  {fill : Nat → UInt8} {indeterminate : UInt64}
include sized

theorem hmacSha256_crypto (n : Nat) (key data : Bytes) (skip : Option Nat) :
    hmacSha256 (.crypto hash fill indeterminate) n key data skip =
      some (hash key (match skip with
        | some offs => around data offs
        | none => data)) := by
  simp only [hmacSha256, Env.crypto, Option.filter_some, sized, decide_true, if_true]
  cases skip <;> rfl

/-- A digest is found exactly when the bytes at its place are the hash of the others. -/
theorem findDigest_crypto (n : Nat) (b key : Bytes) (base : Nat) :
    findDigest (.crypto hash fill indeterminate) n b key base =
      if hash key (around b (digestOffset b base)) = digestAt b (digestOffset b base) then
        some (digestOffset b base) else none := by
  simp only [findDigest, hmacSha256_crypto sized]
  rfl

theorem writeDigest_crypto (n : Nat) (b key : Bytes) :
    writeDigest (.crypto hash fill indeterminate) n b key 0 =
      some (b.take (digestOffset b 8) ++ hash key (around b (digestOffset b 8)) ++
        b.drop (digestOffset b 8 + keyLen), digestOffset b 8) := by
  simp only [writeDigest, hmacSha256_crypto sized, digestOffset, Nat.zero_add]

end Hash

theorem digestOffset_bounds (b : Bytes) :
    12 ≤ digestOffset b 8 ∧ digestOffset b 8 + keyLen ≤ c1Size := by
  have small := Nat.mod_lt (offsetSum b 8) (by decide : 0 < 728)
  unfold digestOffset keyLen c1Size
  omega

/-- A block with another digest in its place. -/
def withDigest (b : Bytes) (offs : Nat) (digest : Bytes) : Bytes :=
  b.take offs ++ digest ++ b.drop (offs + keyLen)

section Place

variable {b digest : Bytes} {offs : Nat} (inside : offs + keyLen ≤ b.length)
include inside

theorem withDigest_length (sized : digest.length = keyLen) :
    (withDigest b offs digest).length = b.length := by
  simp only [withDigest, List.length_append, List.length_take, List.length_drop, sized]
  omega

theorem withDigest_take {n : Nat} (before : n ≤ offs) :
    (withDigest b offs digest).take n = b.take n := by
  have front : (b.take offs).length = offs := List.length_take_of_le (by omega)
  rw [withDigest, List.append_assoc, List.take_append_of_le_length (by omega), List.take_take,
    Nat.min_eq_left before]

theorem withDigest_digestAt (sized : digest.length = keyLen) :
    digestAt (withDigest b offs digest) offs = digest := by
  have front : (b.take offs).length = offs := List.length_take_of_le (by omega)
  rw [digestAt, withDigest, List.append_assoc, List.drop_left' front, List.take_left' sized]

theorem withDigest_around (sized : digest.length = keyLen) :
    around (withDigest b offs digest) offs = around b offs := by
  have front : (b.take offs ++ digest).length = offs + keyLen := by
    rw [List.length_append, List.length_take_of_le (by omega), sized]
  rw [around, withDigest_take inside (Nat.le_refl offs), withDigest, List.drop_left' front, around]

end Place

theorem offsetSum_take {b b' : Bytes} {start n : Nat} (same : b'.take n = b.take n)
    (before : start + 4 ≤ n) : offsetSum b' start = offsetSum b start := by
  have byte : ∀ i, i < n → b'.getD i 0 = b.getD i 0 := by
    intro i small
    have read : ∀ l : Bytes, l.getD i 0 = (l.take n).getD i 0 := by
      intro l
      simp only [List.getD_eq_getElem?_getD, List.getElem?_take_of_lt small]
    rw [read b', read b, same]
  simp only [offsetSum]
  rw [byte start (by omega), byte (start + 1) (by omega), byte (start + 2) (by omega),
    byte (start + 3) (by omega)]

/-- The digest `write_digest` puts into a block is the one `find_digest` finds there. -/
theorem findDigest_writeDigest {hash : Bytes → Bytes → Bytes}
    (sized : ∀ key data, (hash key data).length = keyLen) {fill : Nat → UInt8}
    {indeterminate : UInt64} (n : Nat) {b : Bytes} (whole : b.length = c1Size) (key : Bytes) :
    ∃ b' offs, writeDigest (.crypto hash fill indeterminate) n b key 0 = some (b', offs) ∧
      (∀ n', findDigest (.crypto hash fill indeterminate) n' b' key 8 = some offs) ∧
      b'.length = c1Size ∧ b'.take 12 = b.take 12 := by
  obtain ⟨late, inside⟩ := digestOffset_bounds b
  have digest := sized key (around b (digestOffset b 8))
  have inside' : digestOffset b 8 + keyLen ≤ b.length := whole ▸ inside
  have head : (withDigest b (digestOffset b 8) (hash key (around b (digestOffset b 8)))).take 12 =
      b.take 12 := withDigest_take inside' late
  have place : digestOffset (withDigest b (digestOffset b 8)
      (hash key (around b (digestOffset b 8)))) 8 = digestOffset b 8 := by
    unfold digestOffset at head ⊢
    rw [offsetSum_take head (by decide)]
  refine ⟨withDigest b (digestOffset b 8) (hash key (around b (digestOffset b 8))),
    digestOffset b 8, writeDigest_crypto sized n b key, fun n' => ?_, ?_, head⟩
  · rw [findDigest_crypto sized, place, withDigest_around inside' digest,
      withDigest_digestAt inside' digest, if_pos rfl]
  · rw [withDigest_length inside' digest, whole]

/-- Where `parse_c1` finds a digest in C1: at base 772, or else at base 8. -/
def clientDigest (env : Env) (c1 : Bytes) : Option Nat :=
  (findDigest env 0 c1 partialClientKey 772).or (findDigest env 1 c1 partialClientKey 8)

/-- C1 is one of the handshake without digests: its bytes 4 to 7 are zero, or no digest is found. -/
def Undigested (env : Env) (c1 : Bytes) : Prop :=
  (c1.drop 4).take 4 = [0, 0, 0, 0] ∨ clientDigest env c1 = none

theorem drop_bytes {l : Bytes} {n : Nat} (long : n + 4 ≤ l.length) :
    (l.drop n).take 4 = [l.getD n 0, l.getD (n + 1) 0, l.getD (n + 2) 0, l.getD (n + 3) 0] := by
  have byte : ∀ i, i < l.length → l[i]? = some (l.getD i 0) := by
    intro i small
    rw [List.getD_eq_getElem?_getD, List.getElem?_eq_getElem small, Option.getD_some]
  apply List.ext_getElem?
  intro i
  rcases i with _ | _ | _ | _ | i
  · simpa using byte n (by omega)
  · simpa using byte (n + 1) (by omega)
  · simpa using byte (n + 2) (by omega)
  · simpa using byte (n + 3) (by omega)
  · have short : ((l.drop n).take 4).length ≤ i + 4 :=
      (List.length_take_le 4 _).trans (Nat.le_add_left 4 i)
    rw [List.getElem?_eq_none short, List.getElem?_eq_none (by simp)]

/-- What `parse_c1` reads from C1. -/
def readC1 (hs : RtmpHandshake) (c1 : Bytes) : RtmpHandshake :=
  { hs with
    c0Version := 3
    m := c1
    c1Time := le32 (c1.getD 0 0) (c1.getD 1 0) (c1.getD 2 0) (c1.getD 3 0)
    c1Zero := le32 (c1.getD 4 0) (c1.getD 5 0) (c1.getD 6 0) (c1.getD 7 0) }

section Reply

variable {c1 : Bytes} (whole : c1.length = c1Size)
include whole

theorem readC1_time (hs : RtmpHandshake) : toLE32 (hs.readC1 c1).c1Time = c1.take 4 := by
  have bytes := drop_bytes (l := c1) (n := 0) (by rw [whole]; decide)
  rw [List.drop_zero] at bytes
  rw [bytes]
  exact toLE32_le32 _ _ _ _

theorem readC1_zero (hs : RtmpHandshake) :
    (hs.readC1 c1).c1Zero = 0 ↔ (c1.drop 4).take 4 = [0, 0, 0, 0] := by
  have bytes := drop_bytes (l := c1) (n := 4) (by rw [whole]; decide)
  have read : toLE32 (hs.readC1 c1).c1Zero = (c1.drop 4).take 4 := by
    rw [bytes]
    exact toLE32_le32 _ _ _ _
  constructor
  · intro zero
    rw [← read, zero]
    rfl
  · intro zero
    have value := be32_toBE32 (hs.readC1 c1).c1Zero
    rw [zero] at read
    simp only [toLE32, List.cons.injEq, and_true] at read
    obtain ⟨b₀, b₁, b₂, b₃⟩ := read
    rw [b₀, b₁, b₂, b₃] at value
    rw [← value]
    rfl

theorem handleC0C1_eq (env : Env) (hs : RtmpHandshake) (rest : Bytes) :
    hs.handleC0C1 env (3 :: c1 ++ rest) =
      if (hs.readC1 c1).c1Zero = 0 then (.ok, { hs.readC1 c1 with old := true }, rest)
      else match clientDigest env c1 with
        | none => (.ok, { hs.readC1 c1 with old := true }, rest)
        | some offs =>
            match hmacSha256 env 2 serverKey (digestAt c1 offs) none with
            | none => (.fail, hs.readC1 c1, rest)
            | some digest => (.ok, { hs.readC1 c1 with cdigest := digest }, rest) := by
  have long : ¬ (3 :: c1 ++ rest).length < c0Size + c1Size := by
    rw [List.length_append, List.length_cons, whole]
    unfold c0Size c1Size
    omega
  have front : (c1 ++ rest).take c1Size = c1 := List.take_left' whole
  have back : (c1 ++ rest).drop c1Size = rest := List.drop_left' whole
  have version : hs.parseC0 (3 :: c1 ++ rest) = (.ok, { hs with c0Version := 3 }, c1 ++ rest) := rfl
  have parsed : ({ hs with c0Version := 3 } : RtmpHandshake).parseC1 env (c1 ++ rest) =
      if (hs.readC1 c1).c1Zero = 0 then (.ok, { hs.readC1 c1 with old := true }, rest)
      else match clientDigest env c1 with
        | none => (.ok, { hs.readC1 c1 with old := true }, rest)
        | some offs =>
            match hmacSha256 env 2 serverKey (digestAt c1 offs) none with
            | none => (.fail, hs.readC1 c1, rest)
            | some digest => (.ok, { hs.readC1 c1 with cdigest := digest }, rest) := by
    simp only [parseC1, front, back]
    rfl
  simp only [handleC0C1, if_neg long, version, ne_eq, not_true_eq_false, if_false]
  rw [parsed]
  by_cases zero : (hs.readC1 c1).c1Zero = 0
  · simp only [if_pos zero, not_true_eq_false, if_false]
  · rw [if_neg zero]
    cases clientDigest env c1 with
    | none => rfl
    | some offs =>
        cases mac : hmacSha256 env 2 serverKey (digestAt c1 offs) none with
        | none => simp only [mac, reduceCtorEq, not_false_eq_true, if_true]
        | some digest => simp only [mac, not_true_eq_false, if_false]

theorem handleC0C1_undigested {env : Env} (hs : RtmpHandshake) (rest : Bytes)
    (undigested : Undigested env c1) :
    hs.handleC0C1 env (3 :: c1 ++ rest) =
      (.ok, { hs.readC1 c1 with old := true }, rest) := by
  rw [handleC0C1_eq whole]
  obtain zero | none := undigested
  · rw [if_pos ((readC1_zero whole hs).mpr zero)]
  · rw [none]
    exact ite_self _

variable {hash : Bytes → Bytes → Bytes} (sized : ∀ key data, (hash key data).length = keyLen)
  (fill : Nat → UInt8) (indeterminate : UInt64)
include sized

theorem handleC0C1_digested (hs : RtmpHandshake) (rest : Bytes)
    (digested : ¬ Undigested (.crypto hash fill indeterminate) c1) :
    ∃ place, clientDigest (.crypto hash fill indeterminate) c1 = some place ∧
      hs.handleC0C1 (.crypto hash fill indeterminate) (3 :: c1 ++ rest) =
        (.ok, { hs.readC1 c1 with cdigest := hash serverKey (digestAt c1 place) }, rest) := by
  rw [Undigested, not_or] at digested
  obtain ⟨marked, found⟩ := digested
  obtain ⟨place, found⟩ := Option.ne_none_iff_exists'.mp found
  refine ⟨place, found, ?_⟩
  rw [handleC0C1_eq whole, if_neg (mt (readC1_zero whole hs).mp marked), found]
  simp only [hmacSha256_crypto sized]

end Reply

/-- The random bytes of S1 and S2. -/
def randomBytes (fill : Nat → UInt8) : Bytes :=
  (List.range (c1Size + c2Size)).map fun i => fill (i + c0Size)

theorem randomBytes_length (fill : Nat → UInt8) : (randomBytes fill).length = c1Size + c2Size := by
  rw [randomBytes, List.length_map, List.length_range]

/-- S1 before its digest is written. -/
def signedBlock (hs : RtmpHandshake) (fill : Nat → UInt8) : Bytes :=
  toLE32 hs.c1Time ++ [10, 0, 12, 13] ++ ((randomBytes fill).take c1Size).drop 8

theorem signedBlock_length (hs : RtmpHandshake) (fill : Nat → UInt8) :
    (hs.signedBlock fill).length = c1Size := by
  simp only [signedBlock, List.length_append, toLE32_length, List.length_cons, List.length_nil,
    List.length_drop, List.length_take, randomBytes_length]
  rfl

theorem plainBlock_length (fill : Nat → UInt8) :
    ([0, 0, 0, 0, 0, 0, 0, 0] ++ ((randomBytes fill).take c1Size).drop 8).length = c1Size := by
  simp only [List.length_append, List.length_cons, List.length_nil, List.length_drop,
    List.length_take, randomBytes_length]
  rfl

theorem sendS0S1S2_old {env : Env} {hs : RtmpHandshake} {fill : Nat → UInt8}
    (rand : env.rand = some fill) (old : hs.old = true) :
    hs.sendS0S1S2 env =
      (.more, { hs with m := toLE32 hs.c1Time ++ [0, 0, 0, 0] ++ hs.m.drop 8 },
        some (3 :: ([0, 0, 0, 0, 0, 0, 0, 0] ++ ((randomBytes fill).take c1Size).drop 8) ++
          (toLE32 hs.c1Time ++ [0, 0, 0, 0] ++ hs.m.drop 8))) := by
  simp only [sendS0S1S2, rand, old, if_true, randomBytes]

section Sending

variable (hash : Bytes → Bytes → Bytes) (sized : ∀ key data, (hash key data).length = keyLen)
  (fill : Nat → UInt8) (indeterminate : UInt64) (hs : RtmpHandshake)

include sized in
theorem sendS0S1S2_new (new : hs.old = false) :
    ∃ s1 offs skip, sendS0S1S2 (.crypto hash fill indeterminate) hs =
        (.more, { hs with sdigest := hash clientKey (digestAt s1 offs) },
          some (3 :: s1 ++ (skip ++ hash hs.cdigest skip))) ∧
      s1.length = c1Size ∧ s1.take 4 = toLE32 hs.c1Time ∧ skip.length = c2Size - keyLen ∧
      ∀ n, findDigest (.crypto hash fill indeterminate) n s1 partialServerKey 8 = some offs := by
  have long := randomBytes_length fill
  obtain ⟨s1, offs, wrote, found, length, head⟩ :=
    findDigest_writeDigest sized (n := 3) (hs.signedBlock_length fill) partialServerKey
  refine ⟨s1, offs, ((randomBytes fill).drop c1Size).take (c2Size - keyLen), ?_, length, ?_, ?_,
    found⟩
  · have rand : (Env.crypto hash fill indeterminate).rand = some fill := rfl
    have written : writeDigest (.crypto hash fill indeterminate) 3 (toLE32 hs.c1Time ++
        [10, 0, 12, 13] ++ List.drop 8 (List.take c1Size ((List.range (c1Size + c2Size)).map
          fun i => fill (i + c0Size)))) partialServerKey 0 = some (s1, offs) := wrote
    simp only [sendS0S1S2, rand, new, Bool.false_eq_true, if_false, written,
      hmacSha256_crypto sized]
    rfl
  · have shorter : ∀ l : Bytes, l.take 4 = (l.take 12).take 4 := fun l => by
      rw [List.take_take]
      rfl
    rw [shorter s1, head, ← shorter]
    rfl
  · rw [List.length_take, List.length_drop, long]
    rfl

end Sending

/-- Every call that building the reply makes succeeds: `RAND_bytes` and, with digests, `hmac_sha256`
    for the digest of S1, the key C2 is verified with, and the digest of S2. -/
def Answered (env : Env) (hs : RtmpHandshake) : Prop :=
  ∃ fill, env.rand = some fill ∧ (hs.old = false → ∃ digest,
    hmacSha256 env 3 partialServerKey (hs.signedBlock fill)
      (some (digestOffset (hs.signedBlock fill) 8)) = some digest ∧
    hmacSha256 env 4 clientKey digest none ≠ none ∧
    hmacSha256 env 5 hs.cdigest (((randomBytes fill).drop c1Size).take (c2Size - keyLen)) none ≠ none)

/-- The whole of S0S1S2: a version, and two blocks. -/
def Complete (reply : Bytes) : Prop :=
  reply.head? = some 3 ∧ reply.length = c0Size + c1Size + c2Size

theorem complete_of_parts {s1 s2 : Bytes} (first : s1.length = c1Size)
    (second : s2.length = c2Size) : Complete (3 :: s1 ++ s2) := by
  refine ⟨rfl, ?_⟩
  rw [List.length_append, List.length_cons, first, second]
  rfl

theorem sendS0S1S2_undigested {env : Env} {hs : RtmpHandshake} {fill : Nat → UInt8}
    (rand : env.rand = some fill) (old : hs.old = true) (echoed : hs.m.length = c1Size) :
    ∃ hs' reply, hs.sendS0S1S2 env = (.more, hs', some reply) ∧ Complete reply := by
  have second : (toLE32 hs.c1Time ++ [0, 0, 0, 0] ++ hs.m.drop 8).length = c2Size := by
    simp only [List.length_append, toLE32_length, List.length_cons, List.length_nil,
      List.length_drop, echoed]
    rfl
  exact ⟨_, _, sendS0S1S2_old rand old, complete_of_parts (plainBlock_length fill) second⟩

theorem writeDigest_signedBlock (env : Env) (hs : RtmpHandshake) (fill : Nat → UInt8) :
    writeDigest env 3 (hs.signedBlock fill) partialServerKey 0 =
      (hmacSha256 env 3 partialServerKey (hs.signedBlock fill)
        (some (digestOffset (hs.signedBlock fill) 8))).map fun digest =>
          (withDigest (hs.signedBlock fill) (digestOffset (hs.signedBlock fill) 8) digest,
            digestOffset (hs.signedBlock fill) 8) := by
  simp only [writeDigest, digestOffset, Nat.zero_add]
  cases hmacSha256 env 3 partialServerKey (hs.signedBlock fill)
      (some (offsetSum (hs.signedBlock fill) 8 % 728 + 8 + 4)) with
  | none => rfl
  | some digest => rfl

theorem signedBlock_inside (hs : RtmpHandshake) (fill : Nat → UInt8) :
    digestOffset (hs.signedBlock fill) 8 + keyLen ≤ (hs.signedBlock fill).length := by
  rw [signedBlock_length]
  exact (digestOffset_bounds _).2

section Digested

variable {env : Env} {hs : RtmpHandshake} {fill : Nat → UInt8} (rand : env.rand = some fill)
  (new : hs.old = false)
include rand new

theorem sendS0S1S2_unsigned (unsigned : hmacSha256 env 3 partialServerKey (hs.signedBlock fill)
    (some (digestOffset (hs.signedBlock fill) 8)) = none) :
    hs.sendS0S1S2 env = (.fail, hs, none) := by
  have unwritten := writeDigest_signedBlock env hs fill
  rw [unsigned, Option.map_none] at unwritten
  simp only [signedBlock, randomBytes] at unwritten
  simp only [sendS0S1S2, rand, new, Bool.false_eq_true, if_false, unwritten]

theorem sendS0S1S2_signed {digest : Bytes}
    (signed : hmacSha256 env 3 partialServerKey (hs.signedBlock fill)
      (some (digestOffset (hs.signedBlock fill) 8)) = some digest) :
    hs.sendS0S1S2 env = match hmacSha256 env 4 clientKey digest none with
      | none => (.fail, hs, none)
      | some sdigest =>
          match hmacSha256 env 5 hs.cdigest
              (((randomBytes fill).drop c1Size).take (c2Size - keyLen)) none with
          | none => (.fail, { hs with sdigest }, none)
          | some signature => (.more, { hs with sdigest }, some
              (3 :: withDigest (hs.signedBlock fill) (digestOffset (hs.signedBlock fill) 8) digest ++
                (((randomBytes fill).drop c1Size).take (c2Size - keyLen) ++ signature))) := by
  have written := writeDigest_signedBlock env hs fill
  have read := withDigest_digestAt (hs.signedBlock_inside fill) (hmacSha256_length signed)
  rw [signed, Option.map_some] at written
  generalize withDigest (hs.signedBlock fill) (digestOffset (hs.signedBlock fill) 8) digest = s1
    at written read ⊢
  generalize digestOffset (hs.signedBlock fill) 8 = offs at written read
  simp only [signedBlock, randomBytes] at written
  simp only [digestAt] at read
  simp only [randomBytes]
  cases keyed : hmacSha256 env 4 clientKey digest none with
  | none => simp only [sendS0S1S2, rand, new, Bool.false_eq_true, if_false, written, read, keyed]
  | some sdigest =>
      cases closed : hmacSha256 env 5 hs.cdigest (List.take (c2Size - keyLen) (List.drop c1Size
          (List.map (fun i => fill (i + c0Size)) (List.range (c1Size + c2Size))))) none with
      | none | some signature =>
          simp only [sendS0S1S2, rand, new, Bool.false_eq_true, if_false, written, read, keyed,
            closed]

end Digested

/-- The reply is sent whole, or not at all and with an error, by what the crypto library answers. -/
theorem sendS0S1S2_cases (env : Env) {hs : RtmpHandshake} (echoed : hs.m.length = c1Size) :
    (Answered env hs ∧ ∃ hs' reply, hs.sendS0S1S2 env = (.more, hs', some reply) ∧ Complete reply) ∨
      (¬ Answered env hs ∧ ∃ hs', hs.sendS0S1S2 env = (.fail, hs', none)) := by
  cases rand : env.rand with
  | none =>
      refine .inr ⟨?_, hs, ?_⟩
      · rintro ⟨fill, some, _⟩
        rw [rand] at some
        cases some
      · simp only [sendS0S1S2, rand]
  | some fill =>
      cases old : hs.old with
      | true =>
          exact .inl ⟨⟨fill, rand, by simp [old]⟩, sendS0S1S2_undigested rand old echoed⟩
      | false =>
          have needed : Answered env hs → ∃ digest,
              hmacSha256 env 3 partialServerKey (hs.signedBlock fill)
                (some (digestOffset (hs.signedBlock fill) 8)) = some digest ∧
              hmacSha256 env 4 clientKey digest none ≠ none ∧
              hmacSha256 env 5 hs.cdigest
                (((randomBytes fill).drop c1Size).take (c2Size - keyLen)) none ≠ none := by
            rintro ⟨fill', same, all⟩
            cases rand.symm.trans same
            exact all old
          -- The first HMAC without an answer decides.
          cases signed : hmacSha256 env 3 partialServerKey (hs.signedBlock fill)
              (some (digestOffset (hs.signedBlock fill) 8)) with
          | none =>
              refine .inr ⟨fun answered => ?_, hs, sendS0S1S2_unsigned rand old signed⟩
              obtain ⟨digest, some, _⟩ := needed answered
              rw [signed] at some
              cases some
          | some digest =>
              rw [sendS0S1S2_signed rand old signed]
              cases keyed : hmacSha256 env 4 clientKey digest none with
              | none =>
                  refine .inr ⟨fun answered => ?_, hs, rfl⟩
                  obtain ⟨_, same, key, _⟩ := needed answered
                  cases signed.symm.trans same
                  exact key keyed
              | some sdigest =>
                  cases closed : hmacSha256 env 5 hs.cdigest
                      (((randomBytes fill).drop c1Size).take (c2Size - keyLen)) none with
                  | none =>
                      refine .inr ⟨fun answered => ?_, { hs with sdigest }, rfl⟩
                      obtain ⟨_, _, _, signature⟩ := needed answered
                      exact signature closed
                  | some signature =>
                      refine .inl ⟨⟨fill, rand, fun _ => ⟨digest, signed, by simp [keyed],
                        by simp [closed]⟩⟩, { hs with sdigest }, _, rfl, complete_of_parts ?_ ?_⟩
                      · rw [withDigest_length (hs.signedBlock_inside fill)
                          (hmacSha256_length signed), signedBlock_length]
                      · rw [List.length_append, List.length_take, List.length_drop,
                          randomBytes_length, hmacSha256_length closed]
                        rfl

end RtmpHandshake

open RtmpHandshake in
/-- Whatever the hash and the random bytes, a C0C1 of version 3 is answered with 3073 bytes: zeros
    and an echo of C1 if that has no digest, and otherwise an S1 whose digest a verifier finds, and
    an S2 signed with the digest of C1. -/
theorem handshake_reply (hash : Bytes → Bytes → Bytes)
    (sized : ∀ key data, (hash key data).length = keyLen) (fill : Nat → UInt8)
    (indeterminate : UInt64) (hs : RtmpHandshake) (fresh : hs.old = false) (c1 rest : Bytes)
    (whole : c1.length = c1Size) :
    ∃ hs₁ hs₂ s1 s2,
      hs.handleC0C1 (.crypto hash fill indeterminate) (3 :: c1 ++ rest) = (.ok, hs₁, rest) ∧
      hs₁.sendS0S1S2 (.crypto hash fill indeterminate) = (.more, hs₂, some (3 :: s1 ++ s2)) ∧
      s1.length = c1Size ∧ s2.length = c2Size ∧ (3 :: s1 ++ s2).length = 3073 ∧
      (Undigested (.crypto hash fill indeterminate) c1 →
        s1.take 8 = List.replicate 8 0 ∧ s2 = c1.take 4 ++ [0, 0, 0, 0] ++ c1.drop 8) ∧
      (¬ Undigested (.crypto hash fill indeterminate) c1 → ∃ place offs,
        clientDigest (.crypto hash fill indeterminate) c1 = some place ∧
        s1.take 4 = c1.take 4 ∧
        (∀ n, findDigest (.crypto hash fill indeterminate) n s1 partialServerKey 8 = some offs) ∧
        hs₂.sdigest = hash clientKey (digestAt s1 offs) ∧
        s2.drop (c2Size - keyLen) =
          hash (hash serverKey (digestAt c1 place)) (s2.take (c2Size - keyLen))) := by
  have total : ∀ {s1 s2 : Bytes}, s1.length = c1Size → s2.length = c2Size →
      (3 :: s1 ++ s2).length = 3073 := by
    intro s1 s2 first second
    rw [List.length_append, List.length_cons, first, second]
    rfl
  by_cases undigested : Undigested (.crypto hash fill indeterminate) c1
  · have first := plainBlock_length fill
    have echo : toLE32 (hs.readC1 c1).c1Time = c1.take 4 := readC1_time whole hs
    have second : (c1.take 4 ++ [0, 0, 0, 0] ++ c1.drop 8).length = c2Size := by
      simp only [List.length_append, List.length_take, List.length_cons, List.length_nil,
        List.length_drop, whole]
      rfl
    have rand : (Env.crypto hash fill indeterminate).rand = some fill := rfl
    have sent : sendS0S1S2 (.crypto hash fill indeterminate) { hs.readC1 c1 with old := true } =
        (.more, _, some _) := sendS0S1S2_old rand rfl
    simp only [echo] at sent
    exact ⟨_, _, _, _, handleC0C1_undigested whole hs rest undigested, sent, first, second,
      total first second, fun _ => ⟨rfl, rfl⟩, fun digested => absurd undigested digested⟩
  · obtain ⟨place, found, read⟩ := handleC0C1_digested whole sized fill indeterminate hs rest
      undigested
    obtain ⟨s1, offs, skip, sent, first, time, length, verified⟩ :=
      sendS0S1S2_new hash sized fill indeterminate
        { hs.readC1 c1 with cdigest := hash serverKey (digestAt c1 place) } fresh
    have second : (skip ++ hash (hash serverKey (digestAt c1 place)) skip).length = c2Size := by
      rw [List.length_append, length, sized]
      rfl
    refine ⟨_, _, _, _, read, sent, first, second, total first second,
      fun plain => absurd plain undigested, fun _ => ⟨place, offs, found, ?_, verified, rfl, ?_⟩⟩
    · exact time.trans (readC1_time whole hs)
    · rw [List.drop_left' length, List.take_left' length]

/-- A C1 that carries a digest at base 772, by a hash that is always zero. -/
def zeroDigestC1 : Bytes := [0, 0, 0, 0, 1, 0, 0, 0] ++ List.replicate 1528 0

open RtmpHandshake in
/-- It is answered with digests. -/
theorem handshake_reply_zeroDigest : ∃ hs₁ hs₂ s1 s2,
    ({} : RtmpHandshake).handleC0C1 (.crypto (fun _ _ => List.replicate 32 0) (fun _ => 7) 0)
      (3 :: zeroDigestC1 ++ []) = (.ok, hs₁, []) ∧
    hs₁.sendS0S1S2 (.crypto (fun _ _ => List.replicate 32 0) (fun _ => 7) 0) =
      (.more, hs₂, some (3 :: s1 ++ s2)) ∧
    (3 :: s1 ++ s2).length = 3073 ∧ s2.drop 1504 = List.replicate 32 0 := by
  obtain ⟨hs₁, hs₂, s1, s2, read, sent, _, _, total, _, digested⟩ := handshake_reply
    (fun _ _ => List.replicate 32 0) (fun _ _ => rfl) (fun _ => 7) 0 {} rfl zeroDigestC1 []
    (by decide +kernel)
  have marked : ¬ Undigested (.crypto (fun _ _ => List.replicate 32 0) (fun _ => 7) 0)
      zeroDigestC1 := by
    unfold Undigested
    decide +kernel
  obtain ⟨_, _, _, _, _, _, signed⟩ := digested marked
  exact ⟨hs₁, hs₂, s1, s2, read, sent, total, signed⟩

end DroneServer
