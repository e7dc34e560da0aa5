import DroneServer.Amf0.Walk

/-! # Decoding any bytes

Every reader of AMF0, started anywhere in any buffer, returns from within the buffer,
as long as it comes to no length field of 2^15 or more: lengths are taken with a sign,
and `require` asserts that what it is asked for is not negative.
-/

namespace DroneServer

namespace Amf0Data

open SimpleBuffer

/-- `create_amf0data` and the `read` of each kind it dispatches to. -/
inductive Reader where
  | data
  | number
  | boolean
  | string
  | object
  | null
  | undefined
  | ecmaArray

namespace Reader

/-- The marker without which a kind's `read` fails. -/
def marker : Reader → Option UInt8
  | .data => none
  | .number => some Amf0Marker.number
  | .boolean => some Amf0Marker.boolean
  | .string => some Amf0Marker.string
  | .object => some Amf0Marker.object
  | .null => some Amf0Marker.null
  | .undefined => some Amf0Marker.undefined
  | .ecmaArray => some Amf0Marker.ecmaArray

/-- Read, and look only at where the buffer stands afterwards. -/
def run (fuel : Nat) (sb : SimpleBuffer) : Reader → Except Fault SimpleBuffer
  | .data => do
      let (_, sb) ← createAmf0data fuel sb
      pure sb
  | .number => do
      let (_, sb) ← readNumber sb
      pure sb
  | .boolean => do
      let (_, sb) ← readBoolean sb
      pure sb
  | .string => do
      let (_, sb) ← Amf0Data.readString sb
      pure sb
  | .object => do
      let (_, _, sb) ← readObject fuel sb
      pure sb
  | .null => do
      let (_, sb) ← readNull sb
      pure sb
  | .undefined => do
      let (_, sb) ← readUndefined sb
      pure sb
  | .ecmaArray => do
      let (_, _, sb) ← readEcmaArray fuel sb
      pure sb

/-- It returns, whatever more calls it is allowed than a buffer of this size needs, and has moved
    the position forward inside the same data. -/
def Safe (reader : Reader) (sb : SimpleBuffer) : Prop :=
  ∀ fuel, readFuel sb ≤ fuel → ∃ sb', reader.run fuel sb = .ok sb' ∧
    sb.pos ≤ sb'.pos ∧ sb'.pos ≤ sb.size ∧ sb'.front ++ sb'.rest = sb.front ++ sb.rest

/-- A length field that it comes to. -/
def Reaches (reader : Reader) (bytes : Bytes) (n : Nat) : Prop :=
  (∀ m, reader.marker = some m → bytes.head? = some m) ∧ Amf0Data.Reaches .value bytes n

end Reader

variable {reader : Reader} {front bytes : Bytes} {fuel : Nat}

theorem Reader.run_marker {m : UInt8} (own : reader.marker = some m) :
    reader.run fuel ⟨front, m :: bytes⟩ = Reader.data.run (fuel + 1) ⟨front, m :: bytes⟩ := by
  cases reader <;> cases own <;>
    simp +decide only [run, createAmf0data, require_cons, read1byte_cons, bind, Except.bind, pure,
      Except.pure, if_true, if_false] <;>
    split <;> simp [*]

theorem Reader.run_accepted (front : Bytes)
    (own : ∀ m, reader.marker = some m → bytes.head? = some m) :
    ∃ fuel', fuel ≤ fuel' ∧ reader.run fuel ⟨front, bytes⟩ = Reader.data.run fuel' ⟨front, bytes⟩ := by
  cases kind : reader.marker with
  | none =>
      cases reader <;> cases kind
      exact ⟨fuel, Nat.le_refl _, rfl⟩
  | some m =>
      obtain ⟨bytes, rfl⟩ := List.head?_eq_some_iff.mp (own m kind)
      exact ⟨fuel + 1, Nat.le_succ _, Reader.run_marker kind⟩

theorem Reader.run_other {m : UInt8} (own : reader.marker = some m) (other : bytes.head? ≠ some m)
    (positive : 0 < fuel) :
    reader.run fuel ⟨front, bytes⟩ = .ok ⟨front ++ bytes.take 1, bytes.drop 1⟩ := by
  obtain ⟨fuel, rfl⟩ := Nat.exists_eq_add_one_of_ne_zero positive.ne'
  cases bytes with
  | nil =>
      rw [List.take_nil, List.append_nil]
      cases reader <;> cases own <;> rfl
  | cons b bytes =>
      have differ : (b == m) = false := by
        rw [beq_eq_false_iff_ne]
        exact fun same => other (congrArg _ same)
      cases reader <;> cases own <;>
        simp [run, readNumber, readBoolean, Amf0Data.readString, readObject, readNull, readUndefined,
          readEcmaArray, readMarker_any, differ, bind, Except.bind, pure, Except.pure]

/-- Where all length fields that are reached are small, what `create_amf0data` takes is at the front. -/
theorem run_small (small : ∀ n, Reaches .value bytes n → n < 2 ^ 15)
    (enough : bytes.length + 2 ≤ fuel) : ∃ taken rest, bytes = taken ++ rest ∧
      Reader.data.run fuel ⟨front, bytes⟩ = .ok ⟨front ++ taken, rest⟩ := by
  obtain ⟨fate, rest, passes⟩ := passes_of_small bytes.length .value bytes (Nat.le_refl _) small
  obtain ⟨taken, v, split, read, _⟩ := passes.finds fuel front enough
  exact ⟨taken, rest, split, by rw [Reader.run, read]; rfl⟩

theorem run_large {n : Nat} (reaches : Reaches .value bytes n) (large : 2 ^ 15 ≤ n)
    (enough : bytes.length + 2 ≤ fuel) :
    Reader.data.run fuel ⟨front, bytes⟩ = .error .assertion :=
  bind_error (reaches.trips large fuel front enough) _

theorem Reader.Safe.of_taken {sb : SimpleBuffer} (taken : ∀ fuel, readFuel sb ≤ fuel →
    ∃ taken rest, sb.rest = taken ++ rest ∧ reader.run fuel sb = .ok ⟨sb.front ++ taken, rest⟩) :
    reader.Safe sb := by
  intro fuel enough
  obtain ⟨taken, rest, split, read⟩ := taken fuel enough
  refine ⟨_, read, ?_, ?_, ?_⟩
  · simp only [pos, List.length_append]
    omega
  · simp only [pos, size, split, List.length_append]
    omega
  · rw [split, List.append_assoc]

end Amf0Data

/-- Whatever is read, from whatever position of whatever bytes: it is read safely exactly when no
    length field that reading comes to says 2^15 or more. -/
theorem decoding_safe_iff (reader : Amf0Data.Reader) (sb : SimpleBuffer) :
    reader.Safe sb ↔ ∀ n, reader.Reaches sb.rest n → n < 2 ^ 15 := by
  obtain ⟨front, bytes⟩ := sb
  have fuels : ∀ fuel, Amf0Data.readFuel ⟨front, bytes⟩ ≤ fuel → bytes.length + 2 ≤ fuel :=
    fun fuel => Nat.le_trans (show bytes.length + 2 ≤ 2 * bytes.length + 2 by omega)
  constructor
  · rintro safe n ⟨own, reaches⟩
    by_contra large
    obtain ⟨sb', read, _⟩ := safe _ (Nat.le_refl _)
    obtain ⟨fuel, more, same⟩ := Amf0Data.Reader.run_accepted front own
    rw [Amf0Data.run_large reaches (Nat.not_lt.mp large) ((fuels _ (Nat.le_refl _)).trans more)]
      at same
    cases same.symm.trans read
  · intro small
    refine .of_taken fun fuel enough => ?_
    by_cases own : ∀ m, reader.marker = some m → bytes.head? = some m
    · obtain ⟨fuel', more, same⟩ := Amf0Data.Reader.run_accepted front own
      rw [same]
      exact Amf0Data.run_small (fun n reaches => small n ⟨own, reaches⟩)
        ((fuels fuel enough).trans more)
    · push Not at own
      obtain ⟨m, own, other⟩ := own
      have positive : 0 < fuel := Nat.lt_of_lt_of_le (Nat.succ_pos _) (fuels fuel enough)
      exact ⟨bytes.take 1, bytes.drop 1, (List.take_append_drop 1 bytes).symm,
        Amf0Data.Reader.run_other own other positive⟩

/-- A string that claims to have 2^15 bytes is not safe to read. -/
theorem decoding_unsafe : ¬ ∀ (reader : Amf0Data.Reader) (sb : SimpleBuffer), reader.Safe sb := by
  intro all
  have long : Amf0Data.Reaches .value [Amf0Marker.string, 0x80, 0] (lengthField 0x80 0) := .string
  obtain ⟨_, read, _⟩ := all .data (.ofBytes [Amf0Marker.string, 0x80, 0]) _ (Nat.le_refl _)
  cases (Amf0Data.run_large long (by decide) (by decide)).symm.trans read

end DroneServer
