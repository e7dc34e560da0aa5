import DroneServer.Rtmp.HandshakeReply
import DroneServer.Rtmp.Quiet
import DroneServer.Rtmp.Host

/-! # What the handshake branches of `handle` come to

C0C1 and C2 are waited for, refused or taken, and nothing else of the buffer is
touched. Whether they are refused is said in terms of their bytes and of what the
crypto library answers.
-/

namespace DroneServer

namespace RtmpHandshake

/-- C0C1 is of another version, or has a digest to which `hmac_sha256` does not answer. -/
def RefusesC0C1 (env : Env) (buf : Bytes) : Prop :=
  buf.head? ≠ some 3 ∨
    ∃ offs, ((buf.tail.take c1Size).drop 4).take 4 ≠ [0, 0, 0, 0] ∧
      clientDigest env (buf.tail.take c1Size) = some offs ∧
      hmacSha256 env 2 serverKey (digestAt (buf.tail.take c1Size) offs) none = none

instance (env : Env) (buf : Bytes) : Decidable (RefusesC0C1 env buf) :=
  match found : clientDigest env (buf.tail.take c1Size) with
  | some offs =>
      decidable_of_iff (buf.head? ≠ some 3 ∨
        ((buf.tail.take c1Size).drop 4).take 4 ≠ [0, 0, 0, 0] ∧
          hmacSha256 env 2 serverKey (digestAt (buf.tail.take c1Size) offs) none = none) <| by
        simp only [RefusesC0C1, found, Option.some.injEq]
        refine or_congr_right ⟨fun ⟨zero, silent⟩ => ⟨offs, zero, rfl, silent⟩, ?_⟩
        rintro ⟨_, zero, rfl, silent⟩
        exact ⟨zero, silent⟩
  | none =>
      decidable_of_iff (buf.head? ≠ some 3) <| by
        simp only [RefusesC0C1, found, reduceCtorEq, false_and, and_false, exists_false, or_false]

/-- Where `parse_c2` takes the digest of C2 to be. -/
def c2Digest (env : Env) (hs : RtmpHandshake) (c2 : Bytes) : Nat :=
  ((findDigest env 0 c2 hs.sdigest 772).or (findDigest env 1 c2 hs.sdigest 8)).getD
    (c2Size - keyLen)

/-- `hmac_sha256` does not answer to C2; without digests it is not asked. -/
def RefusesC2 (env : Env) (hs : RtmpHandshake) (buf : Bytes) : Prop :=
  hs.old = false ∧
    hmacSha256 env 2 hs.sdigest
      ((buf.take c2Size).take (hs.c2Digest env (buf.take c2Size))) none = none

instance (env : Env) (hs : RtmpHandshake) (buf : Bytes) : Decidable (hs.RefusesC2 env buf) :=
  inferInstanceAs (Decidable (_ ∧ _))

theorem handleC0C1_cases (env : Env) (hs : RtmpHandshake) (buf : Bytes) :
    (buf.length < c0Size + c1Size ∧ hs.handleC0C1 env buf = (.more, hs, buf)) ∨
    (c0Size + c1Size ≤ buf.length ∧ RefusesC0C1 env buf ∧
      ∃ hs' rest, hs.handleC0C1 env buf = (.fail, hs', rest)) ∨
    (c0Size + c1Size ≤ buf.length ∧ ¬ RefusesC0C1 env buf ∧
      ∃ hs', hs'.m.length = c1Size ∧
        hs.handleC0C1 env buf = (.ok, hs', buf.drop (c0Size + c1Size))) := by
  by_cases short : buf.length < c0Size + c1Size
  · exact .inl ⟨short, if_pos short⟩
  have long := Nat.not_lt.mp short
  refine .inr ?_
  cases buf with
  | nil => exact absurd long (by decide)
  | cons b buf =>
      have enough : c1Size ≤ buf.length := by
        rw [List.length_cons] at long
        unfold c0Size at long
        omega
      have whole : (buf.take c1Size).length = c1Size := List.length_take_of_le enough
      by_cases version : b = 3
      · subst version
        have read := handleC0C1_eq whole env hs (buf.drop c1Size)
        rw [List.cons_append, List.take_append_drop] at read
        have rest : (3 :: buf).drop (c0Size + c1Size) = buf.drop c1Size := by
          rw [Nat.add_comm]
          rfl
        have refuses : RefusesC0C1 env (3 :: buf) ↔
            ∃ offs, ((buf.take c1Size).drop 4).take 4 ≠ [0, 0, 0, 0] ∧
              clientDigest env (buf.take c1Size) = some offs ∧
              hmacSha256 env 2 serverKey (digestAt (buf.take c1Size) offs) none = none := by
          simp only [RefusesC0C1, List.head?_cons, ne_eq, not_true_eq_false, List.tail_cons,
            false_or]
        rw [read, rest, refuses]
        by_cases zero : (hs.readC1 (buf.take c1Size)).c1Zero = 0
        · rw [if_pos zero]
          have unmarked := (readC1_zero whole hs).mp zero
          exact .inr ⟨long, fun ⟨_, marked, _⟩ => marked unmarked, _, whole, rfl⟩
        · rw [if_neg zero]
          have marked := mt (readC1_zero whole hs).mpr zero
          cases found : clientDigest env (buf.take c1Size) with
          | none =>
              refine .inr ⟨long, ?_, _, whole, rfl⟩
              rintro ⟨_, _, wrong, _⟩
              cases wrong
          | some offs =>
              cases mac : hmacSha256 env 2 serverKey (digestAt (buf.take c1Size) offs) none with
              | none =>
                  refine .inl ⟨long, ⟨offs, marked, rfl, mac⟩, hs.readC1 (buf.take c1Size),
                    buf.drop c1Size, ?_⟩
                  simp only [mac]
              | some digest =>
                  refine .inr ⟨long, ?_, { hs.readC1 (buf.take c1Size) with cdigest := digest },
                    whole, ?_⟩
                  · rintro ⟨_, _, same, silent⟩
                    cases same
                    rw [mac] at silent
                    cases silent
                  · simp only [mac]
      · have refused : RefusesC0C1 env (b :: buf) := .inl fun same => version (by simpa using same)
        refine .inl ⟨long, refused, { hs with c0Version := b }, buf, ?_⟩
        have parsed : hs.parseC0 (b :: buf) = (.fail, { hs with c0Version := b }, buf) := by
          simp only [parseC0, List.getD_cons_zero, version, if_false, List.drop_one, List.tail_cons]
        simp only [handleC0C1, if_neg short, parsed, ne_eq, reduceCtorEq, not_false_eq_true, if_true]

theorem handleC2_cases (env : Env) (hs : RtmpHandshake) (buf : Bytes) :
    (buf.length < c2Size ∧ hs.handleC2 env buf = (.more, hs, buf)) ∨
    (c2Size ≤ buf.length ∧ hs.RefusesC2 env buf ∧
      ∃ hs' rest, hs.handleC2 env buf = (.fail, hs', rest)) ∨
    (c2Size ≤ buf.length ∧ ¬ hs.RefusesC2 env buf ∧
      ∃ hs', hs.handleC2 env buf = (.ok, hs', buf.drop c2Size)) := by
  by_cases short : buf.length < c2Size
  · exact .inl ⟨short, if_pos short⟩
  have long := Nat.not_lt.mp short
  refine .inr ?_
  cases old : hs.old with
  | true =>
      refine .inr ⟨long, fun refuses => ?_, hs, ?_⟩
      · cases old.symm.trans refuses.1
      · simp only [handleC2, if_neg short, parseC2, old, if_true, ne_eq, not_true_eq_false, if_false]
  | false =>
      cases mac : hmacSha256 env 2 hs.sdigest
          ((buf.take c2Size).take (hs.c2Digest env (buf.take c2Size))) none with
      | none =>
          have read := mac
          unfold c2Digest at read
          refine .inl ⟨long, ⟨old, mac⟩, { hs with m := buf.take c2Size }, buf.drop c2Size, ?_⟩
          simp only [handleC2, if_neg short, parseC2, old, Bool.false_eq_true, if_false, read, ne_eq,
            reduceCtorEq, not_false_eq_true, if_true]
      | some digest =>
          have read := mac
          unfold c2Digest at read
          refine .inr ⟨long, fun refuses => ?_, { hs with m := buf.take c2Size }, ?_⟩
          · cases mac.symm.trans refuses.2
          · simp only [handleC2, if_neg short, parseC2, old, Bool.false_eq_true, if_false, read,
              ne_eq, not_true_eq_false]

end RtmpHandshake

open RtmpHandshake

namespace Server

/-- How long `handle` waits in the two states of the handshake. -/
def shakeSize (srv : Server) (x : SessionId) : Nat :=
  if (srv.sessions x).state = .init then c0Size + c1Size else c2Size

/-- The handshake branches of `handle` wait, refuse what they waited for, or take it and move on. -/
inductive Shaken (env : Env) (srv : Server) (x : SessionId) (buf : Bytes) :
    Ret × Server × Bytes → Prop where
  | waits (short : buf.length < srv.shakeSize x) : Shaken env srv x buf (.more, srv, buf)
  | refused {hs : RtmpHandshake} {rest : Bytes} (long : srv.shakeSize x ≤ buf.length)
      (refuses : if (srv.sessions x).state = .init then RefusesC0C1 env buf
        else (srv.sessions x).hs.RefusesC2 env buf) :
      Shaken env srv x buf (.fail, srv.set x { srv.sessions x with hs }, rest)
  | greeted {hs : RtmpHandshake} (init : (srv.sessions x).state = .init)
      (long : c0Size + c1Size ≤ buf.length) (accepts : ¬ RefusesC0C1 env buf)
      (echoed : hs.m.length = c1Size) :
      Shaken env srv x buf (.ok,
        srv.set x { srv.sessions x with
          hs := (hs.sendS0S1S2 env).2.1
          state := .handshakeC2
          written := (srv.sessions x).written ++ (hs.sendS0S1S2 env).2.2.toList },
        buf.drop (c0Size + c1Size))
  | shaken {hs : RtmpHandshake} (late : (srv.sessions x).state ≠ .init)
      (long : c2Size ≤ buf.length) (accepts : ¬ (srv.sessions x).hs.RefusesC2 env buf) :
      Shaken env srv x buf (.more,
        (srv.set x { srv.sessions x with hs, state := .connect }).emit (.handshakeDone x),
        buf.drop c2Size)

theorem shake_cases (env : Env) (srv : Server) (x : SessionId) (buf : Bytes) :
    srv.Shaken env x buf (srv.shake env x buf) := by
  have same : srv.set x (srv.sessions x) = srv := by
    rw [set, Function.update_eq_self]
  unfold shake
  simp only
  by_cases init : (srv.sessions x).state = .init
  · have size : srv.shakeSize x = c0Size + c1Size := if_pos init
    rw [if_pos init]
    obtain ⟨short, read⟩ | ⟨long, refuses, hs, rest, read⟩ | ⟨long, accepts, hs, echoed, read⟩ :=
      handleC0C1_cases env (srv.sessions x).hs buf
    · simp only [read, ne_eq, reduceCtorEq, not_false_eq_true, if_true, same]
      exact .waits (size ▸ short)
    · simp only [read, ne_eq, reduceCtorEq, not_false_eq_true, if_true]
      exact .refused (size ▸ long) (by rwa [if_pos init])
    · simp only [read, ne_eq, not_true_eq_false, if_false]
      exact .greeted init long accepts echoed
  · have size : srv.shakeSize x = c2Size := if_neg init
    rw [if_neg init]
    obtain ⟨short, read⟩ | ⟨long, refuses, hs, rest, read⟩ | ⟨long, accepts, hs, read⟩ :=
      handleC2_cases env (srv.sessions x).hs buf
    · simp only [read, ne_eq, reduceCtorEq, not_false_eq_true, if_true, same]
      exact .waits (size ▸ short)
    · simp only [read, ne_eq, reduceCtorEq, not_false_eq_true, if_true]
      exact .refused (size ▸ long) (by rwa [if_neg init])
    · simp only [read, ne_eq, not_true_eq_false, if_false]
      exact .shaken init long accepts

/-- Whatever it comes to, the decoder is not touched, and the session and the process live on. -/
theorem Shaken.keeps {env : Env} {srv srv' : Server} {x : SessionId} {buf rest : Bytes} {ret : Ret}
    (shaken : srv.Shaken env x buf (ret, srv', rest)) :
    (srv'.sessions x).isOpen = (srv.sessions x).isOpen ∧
      (srv'.sessions x).decoder = (srv.sessions x).decoder ∧ srv'.crashed = srv.crashed := by
  cases shaken with
  | waits => exact ⟨rfl, rfl, rfl⟩
  | refused | greeted | shaken =>
      simp only [emit, set_sessions]
      exact ⟨trivial, rfl, rfl⟩

end Server

end DroneServer
