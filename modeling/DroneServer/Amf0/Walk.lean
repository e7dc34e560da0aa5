import DroneServer.Amf0.RoundTrip

/-! # How far reading gets

What a reader of AMF0 meets in any bytes at all. `Passes` says how reading a value
or the properties of an object ends and what it leaves, whatever was wrong on the
way; `Reaches` says which length fields it comes to. Both speak about the bytes and
not about the reader, and the theorems below tie the reader to them.
-/

namespace DroneServer

/-- What the two bytes of a length field say. -/
def lengthField (hi lo : UInt8) : Nat := hi.toNat * 256 + lo.toNat

theorem lengthField_zero {hi lo : UInt8} (zero : lengthField hi lo = 0) : hi = 0 ∧ lo = 0 := by
  unfold lengthField at zero
  exact ⟨UInt8.toNat_inj.mp (by rw [UInt8.toNat_zero]; omega),
    UInt8.toNat_inj.mp (by rw [UInt8.toNat_zero]; omega)⟩

/-- A number of 16 bits, taken with a sign. -/
def signed (n : Nat) : Int := if n < 0x8000 then n else n - 0x10000

theorem signed_small {n : Nat} (small : n < 2 ^ 15) : signed n = n := if_pos small

theorem signed_zero : signed (lengthField 0 0) = 0 := by decide

theorem signed_large {hi lo : UInt8} (large : 2 ^ 15 ≤ lengthField hi lo) :
    signed (lengthField hi lo) < 0 := by
  have field : lengthField hi lo < 0x10000 := by
    have := hi.toNat_lt
    have := lo.toNat_lt
    unfold lengthField
    omega
  have negative : ¬ lengthField hi lo < 0x8000 := Nat.not_lt.mpr large
  rw [signed, if_neg negative]
  omega

namespace SimpleBuffer

variable (front : Bytes) {rest : Bytes}

theorem require_natural (n : Nat) : require ⟨front, rest⟩ n = .ok (decide (n ≤ rest.length)) := by
  rw [require, if_neg (Int.not_lt.mpr (Int.natCast_nonneg n))]
  exact congrArg Except.ok (decide_eq_decide.mpr Int.ofNat_le)

theorem require_zero (sb : SimpleBuffer) : sb.require 0 = .ok true :=
  require_natural sb.front 0

theorem take_enough {n : Nat} (enough : n ≤ rest.length) :
    take ⟨front, rest⟩ n = .ok (rest.take n, ⟨front ++ rest.take n, rest.drop n⟩) :=
  if_neg (Nat.not_lt.mpr enough)

theorem read2bytes_cons (hi lo : UInt8) : read2bytes ⟨front, hi :: lo :: rest⟩ =
    .ok (signed (lengthField hi lo), ⟨front ++ [hi, lo], rest⟩) := rfl

/-- Asking for a negative number of bytes fails an assertion. -/
theorem require_large (sb : SimpleBuffer) {hi lo : UInt8} (large : 2 ^ 15 ≤ lengthField hi lo) :
    sb.require (signed (lengthField hi lo)) = .error .assertion :=
  if_pos (signed_large large)

theorem readString_enough {n : Nat} (enough : n ≤ rest.length) :
    readString ⟨front, rest⟩ n = .ok (rest.take n, ⟨front ++ rest.take n, rest.drop n⟩) := by
  rw [readString, if_neg (Int.not_lt.mpr (Int.natCast_nonneg n)), Int.toNat_natCast,
    take_enough front enough]

end SimpleBuffer

namespace Amf0Data

open SimpleBuffer

/-- What a reader is to read. -/
inductive Part where
  | value
  | properties

/-- How reading ends. A value that failed is a null pointer, and properties that failed make their
    object fail. -/
inductive Fate where
  /-- Everything on the way was there. -/
  | clean
  /-- It succeeded nevertheless. -/
  | spoilt
  | failed
  deriving DecidableEq

/-- A value and what comes after it: a failure of the value is passed over. -/
def Fate.andThen : Fate → Fate → Fate
  | _, .failed => .failed
  | .clean, .clean => .clean
  | .clean, .spoilt | .spoilt, _ | .failed, _ => .spoilt

theorem Fate.andThen_clean {first second : Fate} (both : first.andThen second = .clean) :
    first = .clean ∧ second = .clean := by
  cases first <;> cases second <;> first | exact ⟨rfl, rfl⟩ | cases both

/-- The markers that `create_amf0data` knows. -/
def Known (m : UInt8) : Prop :=
  m = Amf0Marker.number ∨ m = Amf0Marker.boolean ∨ m = Amf0Marker.string ∨ m = Amf0Marker.object ∨
    m = Amf0Marker.null ∨ m = Amf0Marker.undefined ∨ m = Amf0Marker.ecmaArray

/-- Reading a part from the front of some bytes ends so and leaves the second bytes. -/
inductive Passes : Part → Bytes → Fate → Bytes → Prop where
  | nothing : Passes .value [] .failed []
  | unknown {m : UInt8} {b : Bytes} (unknown : ¬ Known m) : Passes .value (m :: b) .failed (m :: b)
  | number {b : Bytes} (enough : 8 ≤ b.length) :
      Passes .value (Amf0Marker.number :: b) .clean (b.drop 8)
  | numberShort {b : Bytes} (short : b.length < 8) :
      Passes .value (Amf0Marker.number :: b) .failed b
  | boolean {v : UInt8} {b : Bytes} : Passes .value (Amf0Marker.boolean :: v :: b) .clean b
  | booleanShort : Passes .value [Amf0Marker.boolean] .failed []
  | string {hi lo : UInt8} {b : Bytes} (small : lengthField hi lo < 2 ^ 15)
      (enough : lengthField hi lo ≤ b.length) :
      Passes .value (Amf0Marker.string :: hi :: lo :: b) .clean (b.drop (lengthField hi lo))
  | stringShort {hi lo : UInt8} {b : Bytes} (small : lengthField hi lo < 2 ^ 15)
      (short : b.length < lengthField hi lo) :
      Passes .value (Amf0Marker.string :: hi :: lo :: b) .failed b
  | stringUnsized {b : Bytes} (short : b.length < 2) :
      Passes .value (Amf0Marker.string :: b) .failed b
  | null {b : Bytes} : Passes .value (Amf0Marker.null :: b) .clean b
  | undefined {b : Bytes} : Passes .value (Amf0Marker.undefined :: b) .clean b
  | object {b rest : Bytes} {fate : Fate} (body : Passes .properties b fate rest) :
      Passes .value (Amf0Marker.object :: b) fate rest
  | ecmaArray {b rest : Bytes} {fate : Fate} (counted : 4 ≤ b.length)
      (body : Passes .properties (b.drop 4) fate rest) :
      Passes .value (Amf0Marker.ecmaArray :: b) fate rest
  | ecmaArrayShort {b : Bytes} (short : b.length < 4) :
      Passes .value (Amf0Marker.ecmaArray :: b) .failed b
  /-- The data ends between two properties. -/
  | ranOut : Passes .properties [] .spoilt []
  | unsized {c : UInt8} : Passes .properties [c] .failed [c]
  | nameShort {hi lo : UInt8} {b : Bytes} (small : lengthField hi lo < 2 ^ 15)
      (short : b.length < lengthField hi lo) : Passes .properties (hi :: lo :: b) .failed b
  | unended : Passes .properties [0, 0] .failed []
  | ended {m : UInt8} {b : Bytes} :
      Passes .properties (0 :: 0 :: m :: b) (if m = Amf0Marker.objectEnd then .clean else .failed) b
  | property {hi lo : UInt8} {b rest rest' : Bytes} {fate fate' : Fate}
      (named : lengthField hi lo ≠ 0) (small : lengthField hi lo < 2 ^ 15)
      (enough : lengthField hi lo ≤ b.length)
      (value : Passes .value (b.drop (lengthField hi lo)) fate rest)
      (more : Passes .properties rest fate' rest') :
      Passes .properties (hi :: lo :: b) (fate.andThen fate') rest'

/-- Reading a part comes to a length field that says this: that of a string or of a name. -/
inductive Reaches : Part → Bytes → Nat → Prop where
  | string {hi lo : UInt8} {b : Bytes} :
      Reaches .value (Amf0Marker.string :: hi :: lo :: b) (lengthField hi lo)
  | object {b : Bytes} {n : Nat} (body : Reaches .properties b n) :
      Reaches .value (Amf0Marker.object :: b) n
  | ecmaArray {b : Bytes} {n : Nat} (counted : 4 ≤ b.length)
      (body : Reaches .properties (b.drop 4) n) : Reaches .value (Amf0Marker.ecmaArray :: b) n
  | name {hi lo : UInt8} {b : Bytes} : Reaches .properties (hi :: lo :: b) (lengthField hi lo)
  | value {hi lo : UInt8} {b : Bytes} {n : Nat} (named : lengthField hi lo ≠ 0)
      (small : lengthField hi lo < 2 ^ 15) (enough : lengthField hi lo ≤ b.length)
      (value : Reaches .value (b.drop (lengthField hi lo)) n) : Reaches .properties (hi :: lo :: b) n
  | next {hi lo : UInt8} {b rest : Bytes} {fate : Fate} {n : Nat} (named : lengthField hi lo ≠ 0)
      (small : lengthField hi lo < 2 ^ 15) (enough : lengthField hi lo ≤ b.length)
      (value : Passes .value (b.drop (lengthField hi lo)) fate rest)
      (more : Reaches .properties rest n) : Reaches .properties (hi :: lo :: b) n

theorem Passes.suffix {part : Part} {bytes rest : Bytes} {fate : Fate}
    (passes : Passes part bytes fate rest) : rest <:+ bytes := by
  induction passes with
  | nothing | ranOut => exact List.suffix_rfl
  | unknown | unsized => exact List.suffix_rfl
  | number => exact (List.drop_suffix _ _).trans (List.suffix_cons _ _)
  | numberShort | null | undefined | ecmaArrayShort | booleanShort | stringUnsized =>
      exact List.suffix_cons _ _
  | boolean | nameShort => exact (List.suffix_cons _ _).trans (List.suffix_cons _ _)
  | string =>
      exact (List.drop_suffix _ _).trans (((List.suffix_cons _ _).trans (List.suffix_cons _ _)).trans
        (List.suffix_cons _ _))
  | stringShort | ended =>
      exact ((List.suffix_cons _ _).trans (List.suffix_cons _ _)).trans (List.suffix_cons _ _)
  | unended => exact List.nil_suffix
  | object _ ih => exact ih.trans (List.suffix_cons _ _)
  | ecmaArray _ _ ih => exact (ih.trans (List.drop_suffix _ _)).trans (List.suffix_cons _ _)
  | property _ _ _ _ _ first later =>
      exact ((later.trans first).trans (List.drop_suffix _ _)).trans
        ((List.suffix_cons _ _).trans (List.suffix_cons _ _))

section Readers

variable (front : Bytes) {b : Bytes}

theorem readMarker_any (marker m : UInt8) :
    readMarker marker ⟨front, m :: b⟩ = .ok (m == marker, ⟨front ++ [m], b⟩) := by
  simp only [readMarker, require_cons, read1byte_cons, bind, Except.bind, pure, Except.pure, if_true]

theorem require_short {n : Nat} (short : b.length < n) : require ⟨front, b⟩ n = .ok false := by
  rw [require_natural, decide_eq_false (Nat.not_le.mpr short)]

theorem require_enough {n : Nat} (enough : n ≤ b.length) : require ⟨front, b⟩ n = .ok true := by
  rw [require_natural, decide_eq_true enough]

/-- The number that eight bytes stand for. -/
def be64 (bytes : Bytes) : UInt64 :=
  UInt64.ofNat (bytes.foldl (fun value b => value * 256 + b.toNat) 0)

theorem readNumber_enough (enough : 8 ≤ b.length) : readNumber ⟨front, Amf0Marker.number :: b⟩ =
    .ok (some (be64 (b.take 8)), ⟨front ++ [Amf0Marker.number] ++ b.take 8, b.drop 8⟩) := by
  have there := require_enough (front ++ [Amf0Marker.number]) enough
  have taken := take_enough (front ++ [Amf0Marker.number]) enough
  change require _ 8 = _ at there
  simp [readNumber, readMarker_any, there, read8bytes, taken, be64, bind, Except.bind, pure, Except.pure]

theorem readNumber_short (short : b.length < 8) : readNumber ⟨front, Amf0Marker.number :: b⟩ =
    .ok (none, ⟨front ++ [Amf0Marker.number], b⟩) := by
  have missing := require_short (front ++ [Amf0Marker.number]) short
  change require _ 8 = _ at missing
  simp [readNumber, readMarker_any, missing, bind, Except.bind, pure, Except.pure]

theorem readBoolean_any (v : UInt8) : readBoolean ⟨front, Amf0Marker.boolean :: v :: b⟩ =
    .ok (some (v != 0), ⟨front ++ [Amf0Marker.boolean, v], b⟩) := by
  simp [readBoolean, readMarker_any, require_cons, read1byte_cons, bind, Except.bind, pure, Except.pure]

theorem readBoolean_short : readBoolean ⟨front, [Amf0Marker.boolean]⟩ =
    .ok (none, ⟨front ++ [Amf0Marker.boolean], []⟩) := by
  have missing : require ⟨front ++ [Amf0Marker.boolean], []⟩ 1 = .ok false := rfl
  simp [readBoolean, readMarker_any, missing, bind, Except.bind, pure, Except.pure]

section Sized

variable {hi lo : UInt8}

theorem readString_filled (small : lengthField hi lo < 2 ^ 15) (enough : lengthField hi lo ≤ b.length) :
    readString ⟨front, Amf0Marker.string :: hi :: lo :: b⟩ =
      .ok (some (b.take (lengthField hi lo)),
        ⟨front ++ [Amf0Marker.string, hi, lo] ++ b.take (lengthField hi lo),
          b.drop (lengthField hi lo)⟩) := by
  have sized := require_enough (b := hi :: lo :: b) (front ++ [Amf0Marker.string]) (n := 2)
    (Nat.le_add_left 2 _)
  have there := require_enough (front ++ [Amf0Marker.string] ++ [hi, lo]) enough
  have taken := SimpleBuffer.readString_enough (front ++ [Amf0Marker.string] ++ [hi, lo]) enough
  change require _ 2 = _ at sized
  simp only [List.append_assoc, List.cons_append, List.nil_append] at there taken
  simp [readString, readMarker_any, sized, read2bytes_cons, signed_small small, there, taken, bind,
    Except.bind, pure, Except.pure]

theorem readString_short (small : lengthField hi lo < 2 ^ 15) (short : b.length < lengthField hi lo) :
    readString ⟨front, Amf0Marker.string :: hi :: lo :: b⟩ =
      .ok (none, ⟨front ++ [Amf0Marker.string, hi, lo], b⟩) := by
  have sized := require_enough (b := hi :: lo :: b) (front ++ [Amf0Marker.string]) (n := 2)
    (Nat.le_add_left 2 _)
  have missing := require_short (front ++ [Amf0Marker.string] ++ [hi, lo]) short
  change require _ 2 = _ at sized
  simp only [List.append_assoc, List.cons_append, List.nil_append] at missing
  simp [readString, readMarker_any, sized, read2bytes_cons, signed_small small, missing, bind,
    Except.bind, pure, Except.pure]

theorem readString_large (large : 2 ^ 15 ≤ lengthField hi lo) :
    readString ⟨front, Amf0Marker.string :: hi :: lo :: b⟩ = .error .assertion := by
  have sized := require_enough (b := hi :: lo :: b) (front ++ [Amf0Marker.string]) (n := 2)
    (Nat.le_add_left 2 _)
  change require _ 2 = _ at sized
  simp [readString, readMarker_any, sized, read2bytes_cons, require_large _ large, bind, Except.bind]

end Sized

theorem readString_unsized (short : b.length < 2) : readString ⟨front, Amf0Marker.string :: b⟩ =
    .ok (none, ⟨front ++ [Amf0Marker.string], b⟩) := by
  have missing := require_short (front ++ [Amf0Marker.string]) short
  change require _ 2 = _ at missing
  simp [readString, readMarker_any, missing, bind, Except.bind, pure, Except.pure]

end Readers

/-! ## The reader -/

/-- The properties once these are put, each over an earlier one of its name. -/
def filled (properties : Amf0Properties) (pairs : List (Bytes × Amf0Data)) : Amf0Properties :=
  pairs.foldl (fun properties pair => properties.put pair.1 (some pair.2)) properties

mutual
/-- The bytes are a complete encoding of the value. -/
inductive Encodes : Amf0Data → Bytes → Prop
  | number {bytes : Bytes} (eight : bytes.length = 8) :
      Encodes (.number (be64 bytes)) (Amf0Marker.number :: bytes)
  | boolean (v : UInt8) : Encodes (.boolean (v != 0)) [Amf0Marker.boolean, v]
  | string {hi lo : UInt8} {text : Bytes} (size : text.length = lengthField hi lo) :
      Encodes (.string text) (Amf0Marker.string :: hi :: lo :: text)
  | null : Encodes .null [Amf0Marker.null]
  | undefined : Encodes .undefined [Amf0Marker.undefined]
  | object {pairs : List (Bytes × Amf0Data)} {body : Bytes} (all : EncodesAll pairs body) :
      Encodes (.object (filled [] pairs))
        (Amf0Marker.object :: (body ++ [0, 0, Amf0Marker.objectEnd]))
  | ecmaArray {pairs : List (Bytes × Amf0Data)} {count body : Bytes} (four : count.length = 4)
      (all : EncodesAll pairs body) :
      Encodes (.ecmaArray (filled [] pairs))
        (Amf0Marker.ecmaArray :: (count ++ (body ++ [0, 0, Amf0Marker.objectEnd])))

/-- A sequence of names that are not empty, each followed by a complete encoding of its value. -/
inductive EncodesAll : List (Bytes × Amf0Data) → Bytes → Prop
  | nil : EncodesAll [] []
  | cons {hi lo : UInt8} {name head tail : Bytes} {value : Amf0Data}
      {pairs : List (Bytes × Amf0Data)} (named : name ≠ []) (size : name.length = lengthField hi lo)
      (first : Encodes value head) (all : EncodesAll pairs tail) :
      EncodesAll ((name, value) :: pairs) (hi :: lo :: (name ++ (head ++ tail)))
end

/-- What the reader finds where reading ends so: it takes what is not left, and what it returns is
    what is encoded there if everything was there. -/
def Finds (bytes : Bytes) (fate : Fate) (rest : Bytes) : Part → Prop
  | .value => ∀ fuel front, bytes.length + 2 ≤ fuel → ∃ taken v, bytes = taken ++ rest ∧
      createAmf0data fuel ⟨front, bytes⟩ = .ok (v, ⟨front ++ taken, rest⟩) ∧
      (v = none ↔ fate = .failed) ∧ (fate = .clean → ∃ value, v = some value ∧ Encodes value taken)
  | .properties => ∀ fuel front acc, bytes.length + 1 ≤ fuel → ∃ taken done properties,
      bytes = taken ++ rest ∧
      readProperties fuel acc ⟨front, bytes⟩ = .ok (done, properties, ⟨front ++ taken, rest⟩) ∧
      (done = false ↔ fate = .failed) ∧
      (fate = .clean → ∃ pairs body, EncodesAll pairs body ∧
        taken = body ++ [0, 0, Amf0Marker.objectEnd] ∧ properties = filled acc pairs)

theorem readProperties_sized (fuel : Nat) (acc : Amf0Properties) (front : Bytes) (hi lo : UInt8)
    (b : Bytes) : readProperties (fuel + 1) acc ⟨front, hi :: lo :: b⟩ = (do
      let sb : SimpleBuffer := ⟨front ++ [hi, lo], b⟩
      if ← sb.require (signed (lengthField hi lo)) then
        if signed (lengthField hi lo) = 0 then
          if ← sb.require 1 then
            let (marker, sb) ← sb.read1byte
            pure (marker == Amf0Marker.objectEnd, acc, sb)
          else pure (false, acc, sb)
        else
          let (name, sb) ← sb.readString (signed (lengthField hi lo))
          let (value, sb) ← createAmf0data fuel sb
          readProperties fuel (acc.put name value) sb
      else pure (false, acc, sb)) := by
  have more : empty ⟨front, hi :: lo :: b⟩ = false := rfl
  have there := require_enough (b := hi :: lo :: b) front (n := 2) (Nat.le_add_left 2 _)
  change require _ 2 = _ at there
  simp [readProperties, more, there, read2bytes_cons, bind, Except.bind]

theorem Finds.leaf {bytes rest : Bytes} {fate : Fate} (taken : Bytes) (v : Option Amf0Data)
    (split : bytes = taken ++ rest)
    (read : ∀ fuel front, createAmf0data (fuel + 1) ⟨front, bytes⟩ = .ok (v, ⟨front ++ taken, rest⟩))
    (ends : match v with
      | some value => fate = .clean ∧ Encodes value taken
      | none => fate = .failed) : Finds bytes fate rest .value := by
  intro fuel front enough
  obtain ⟨fuel, rfl⟩ := Nat.exists_eq_add_one_of_ne_zero (Nat.ne_zero_of_lt enough)
  refine ⟨taken, v, split, read fuel front, ?_⟩
  cases v with
  | none =>
      subst ends
      exact ⟨⟨fun _ => rfl, fun _ => rfl⟩, by simp⟩
  | some value =>
      obtain ⟨rfl, encodes⟩ := ends
      exact ⟨by simp, fun _ => ⟨value, rfl, encodes⟩⟩

theorem Finds.stop {bytes rest : Bytes} {fate : Fate} (taken : Bytes) (done : Bool)
    (split : bytes = taken ++ rest)
    (read : ∀ fuel front acc,
      readProperties (fuel + 1) acc ⟨front, bytes⟩ = .ok (done, acc, ⟨front ++ taken, rest⟩))
    (fails : done = false ↔ fate = .failed)
    (clean : fate = .clean → taken = [0, 0, Amf0Marker.objectEnd]) :
    Finds bytes fate rest .properties := by
  intro fuel front acc enough
  obtain ⟨fuel, rfl⟩ := Nat.exists_eq_add_one_of_ne_zero (Nat.ne_zero_of_lt enough)
  exact ⟨taken, done, acc, split, read fuel front acc, fails,
    fun all => ⟨[], [], .nil, clean all, rfl⟩⟩

theorem Finds.object {b rest : Bytes} {fate : Fate} (body : Finds b fate rest .properties) :
    Finds (Amf0Marker.object :: b) fate rest .value := by
  intro fuel front enough
  rw [List.length_cons] at enough
  obtain ⟨fuel, rfl⟩ : ∃ f, fuel = f + 2 := ⟨fuel - 2, by omega⟩
  obtain ⟨taken, done, properties, rfl, read, fails, clean⟩ :=
    body fuel (front ++ [Amf0Marker.object]) [] (by omega)
  refine ⟨Amf0Marker.object :: taken, if done then some (.object properties) else none, rfl,
    ?_, ?_, ?_⟩
  · simp only [List.append_assoc, List.singleton_append] at read
    simp +decide [createAmf0data, readObject, require_cons, read1byte_cons, readMarker_any, read,
      bind, Except.bind, pure, Except.pure]
  · rw [← fails]
    cases done <;> simp
  · intro all
    obtain ⟨pairs, body, encodes, rfl, rfl⟩ := clean all
    cases done with
    | false => cases all.symm.trans (fails.mp rfl)
    | true => exact ⟨_, rfl, .object encodes⟩

theorem Finds.ecmaArray {b rest : Bytes} {fate : Fate} (counted : 4 ≤ b.length)
    (body : Finds (b.drop 4) fate rest .properties) :
    Finds (Amf0Marker.ecmaArray :: b) fate rest .value := by
  intro fuel front enough
  rw [List.length_cons] at enough
  obtain ⟨fuel, rfl⟩ : ∃ f, fuel = f + 2 := ⟨fuel - 2, by omega⟩
  obtain ⟨taken, done, properties, split, read, fails, clean⟩ :=
    body fuel (front ++ [Amf0Marker.ecmaArray] ++ b.take 4) []
      (by rw [List.length_drop]; omega)
  refine ⟨Amf0Marker.ecmaArray :: (b.take 4 ++ taken),
    if done then some (.ecmaArray properties) else none, ?_, ?_, ?_, ?_⟩
  · rw [List.cons_append, List.append_assoc, ← split, List.take_append_drop]
  · have there := require_enough (front ++ [Amf0Marker.ecmaArray]) counted
    have skipped := take_enough (front ++ [Amf0Marker.ecmaArray]) counted
    change require _ 4 = _ at there
    simp only [List.append_assoc, List.singleton_append] at there skipped read
    simp +decide [createAmf0data, readEcmaArray, require_cons, read1byte_cons, readMarker_any,
      there, read4bytes, skipped, read, bind, Except.bind, pure, Except.pure]
  · rw [← fails]
    cases done <;> simp
  · intro all
    obtain ⟨pairs, body, encodes, rfl, rfl⟩ := clean all
    cases done with
    | false => cases all.symm.trans (fails.mp rfl)
    | true => exact ⟨_, rfl, .ecmaArray (List.length_take_of_le counted) encodes⟩

theorem Finds.property {hi lo : UInt8} {b rest rest' : Bytes} {fate fate' : Fate}
    (named : lengthField hi lo ≠ 0) (small : lengthField hi lo < 2 ^ 15)
    (enough : lengthField hi lo ≤ b.length)
    (first : Finds (b.drop (lengthField hi lo)) fate rest .value)
    (later : Finds rest fate' rest' .properties) :
    Finds (hi :: lo :: b) (fate.andThen fate') rest' .properties := by
  intro fuel front acc room
  simp only [List.length_cons] at room
  obtain ⟨fuel, rfl⟩ : ∃ f, fuel = f + 1 := ⟨fuel - 1, by omega⟩
  have sized : (b.drop (lengthField hi lo)).length + 1 ≤ b.length := by
    rw [List.length_drop]
    omega
  obtain ⟨head, v, split, read, fails, clean⟩ :=
    first fuel (front ++ [hi, lo] ++ b.take (lengthField hi lo)) (by omega)
  have less : rest.length ≤ (b.drop (lengthField hi lo)).length := by
    rw [split, List.length_append]
    omega
  obtain ⟨tail, done, properties, split', read', fails', clean'⟩ :=
    later fuel (front ++ [hi, lo] ++ b.take (lengthField hi lo) ++ head)
      (acc.put (b.take (lengthField hi lo)) v) (by omega)
  refine ⟨hi :: lo :: (b.take (lengthField hi lo) ++ (head ++ tail)), done, properties, ?_, ?_,
    ?_, ?_⟩
  · simp only [List.cons_append, List.append_assoc]
    rw [← split', ← split, List.take_append_drop]
  · have there := require_enough (front ++ [hi, lo]) enough
    have taken := SimpleBuffer.readString_enough (front ++ [hi, lo]) enough
    simp only [List.append_assoc, List.cons_append, List.nil_append] at there taken read read' ⊢
    simp [readProperties_sized, signed_small small, there, named, taken, read, read', bind,
      Except.bind]
  · rw [fails']
    cases fate <;> cases fate' <;> simp [Fate.andThen]
  · intro all
    obtain ⟨rfl, rfl⟩ := Fate.andThen_clean all
    obtain ⟨value, rfl, encodes⟩ := clean rfl
    obtain ⟨pairs, body, encodesAll, rfl, rfl⟩ := clean' rfl
    have size : (b.take (lengthField hi lo)).length = lengthField hi lo :=
      List.length_take_of_le enough
    refine ⟨(b.take (lengthField hi lo), value) :: pairs, _,
      .cons (fun none => ?_) size encodes encodesAll, ?_, rfl⟩
    · rw [none] at size
      exact named size.symm
    · simp only [List.cons_append, List.append_assoc]

theorem Passes.finds {part : Part} {bytes rest : Bytes} {fate : Fate}
    (passes : Passes part bytes fate rest) : Finds bytes fate rest part := by
  induction passes with
  | nothing =>
      refine .leaf [] none rfl (fun fuel front => ?_) rfl
      rw [List.append_nil]
      rfl
  | @unknown m b unknown =>
      refine .leaf [] none rfl (fun fuel front => ?_) rfl
      simp only [Known, not_or] at unknown
      simp [createAmf0data, require_cons, read1byte_cons, unknown, bind, Except.bind, pure, Except.pure]
  | @number b enough =>
      refine .leaf (Amf0Marker.number :: b.take 8) (some (.number (be64 (b.take 8)))) ?_
        (fun fuel front => ?_) ⟨rfl, .number (List.length_take_of_le enough)⟩
      · rw [List.cons_append, List.take_append_drop]
      · have read := readNumber_enough front enough
        simp [createAmf0data, require_cons, read1byte_cons, read, bind, Except.bind, pure, Except.pure]
  | @numberShort b short =>
      refine .leaf [Amf0Marker.number] none rfl (fun fuel front => ?_) rfl
      have read := readNumber_short front short
      simp [createAmf0data, require_cons, read1byte_cons, read, bind, Except.bind, pure, Except.pure]
  | @boolean v b =>
      refine .leaf [Amf0Marker.boolean, v] (some (.boolean (v != 0))) rfl (fun fuel front => ?_)
        ⟨rfl, .boolean v⟩
      have read := readBoolean_any (b := b) front v
      simp +decide [createAmf0data, require_cons, read1byte_cons, read, bind, Except.bind, pure,
        Except.pure]
  | booleanShort =>
      refine .leaf [Amf0Marker.boolean] none rfl (fun fuel front => ?_) rfl
      have read := readBoolean_short front
      simp +decide [createAmf0data, require_cons, read1byte_cons, read, bind, Except.bind, pure,
        Except.pure]
  | @string hi lo b small enough =>
      refine .leaf (Amf0Marker.string :: hi :: lo :: b.take (lengthField hi lo))
        (some (.string (b.take (lengthField hi lo)))) ?_ (fun fuel front => ?_)
        ⟨rfl, .string (List.length_take_of_le enough)⟩
      · simp only [List.cons_append, List.take_append_drop]
      · have read := readString_filled front small enough
        simp +decide [createAmf0data, require_cons, read1byte_cons, read, bind, Except.bind, pure,
          Except.pure]
  | @stringShort hi lo b small short =>
      refine .leaf [Amf0Marker.string, hi, lo] none rfl (fun fuel front => ?_) rfl
      have read := readString_short front small short
      simp +decide [createAmf0data, require_cons, read1byte_cons, read, bind, Except.bind, pure,
        Except.pure]
  | @stringUnsized b short =>
      refine .leaf [Amf0Marker.string] none rfl (fun fuel front => ?_) rfl
      have read := readString_unsized front short
      simp +decide [createAmf0data, require_cons, read1byte_cons, read, bind, Except.bind, pure,
        Except.pure]
  | @null b =>
      refine .leaf [Amf0Marker.null] (some .null) rfl (fun fuel front => ?_) ⟨rfl, .null⟩
      have read := readMarker_any (b := b) front Amf0Marker.null Amf0Marker.null
      simp +decide [createAmf0data, require_cons, read1byte_cons, readNull, read, bind, Except.bind,
        pure, Except.pure]
  | @undefined b =>
      refine .leaf [Amf0Marker.undefined] (some .undefined) rfl (fun fuel front => ?_)
        ⟨rfl, .undefined⟩
      have read := readMarker_any (b := b) front Amf0Marker.undefined Amf0Marker.undefined
      simp +decide [createAmf0data, require_cons, read1byte_cons, readUndefined, read, bind,
        Except.bind, pure, Except.pure]
  | object _ ih => exact ih.object
  | ecmaArray counted _ ih => exact ih.ecmaArray counted
  | @ecmaArrayShort b short =>
      intro fuel front enough
      rw [List.length_cons] at enough
      obtain ⟨fuel, rfl⟩ : ∃ f, fuel = f + 2 := ⟨fuel - 2, by omega⟩
      have missing := require_short (front ++ [Amf0Marker.ecmaArray]) short
      change require _ 4 = _ at missing
      refine ⟨[Amf0Marker.ecmaArray], none, rfl, ?_, ⟨fun _ => rfl, fun _ => rfl⟩, by simp⟩
      simp +decide [createAmf0data, readEcmaArray, require_cons, read1byte_cons, readMarker_any,
        missing, bind, Except.bind, pure, Except.pure]
  | ranOut =>
      refine .stop [] true rfl (fun fuel front acc => ?_) (by simp) (by simp)
      rw [List.append_nil]
      rfl
  | unsized =>
      refine .stop [] false rfl (fun fuel front acc => ?_) (by simp) (by simp)
      rw [List.append_nil]
      rfl
  | @nameShort hi lo b small short =>
      refine .stop [hi, lo] false rfl (fun fuel front acc => ?_) (by simp) (by simp)
      have missing := require_short (front ++ [hi, lo]) short
      simp [readProperties_sized, signed_small small, missing, bind, Except.bind, pure, Except.pure]
  | unended =>
      refine .stop [0, 0] false rfl (fun fuel front acc => ?_) (by simp) (by simp)
      have missing : require ⟨front ++ [0, 0], []⟩ 1 = .ok false := rfl
      simp [readProperties_sized, signed_zero, require_zero, missing, bind, Except.bind, pure,
        Except.pure]
  | @ended m b =>
      refine .stop [0, 0, m] (m == Amf0Marker.objectEnd) rfl (fun fuel front acc => ?_) ?_ ?_
      · simp [readProperties_sized, signed_zero, require_zero, require_cons, read1byte_cons, bind,
          Except.bind, pure, Except.pure]
      · split <;> simp [*]
      · intro all
        split at all
        · next marker => rw [marker]
        · cases all
  | property named small enough _ _ first later => exact first.property named small enough later

/-- The reader ends with a failed assertion. -/
def Trips (bytes : Bytes) : Part → Prop
  | .value => ∀ fuel front, bytes.length + 2 ≤ fuel →
      createAmf0data fuel ⟨front, bytes⟩ = .error .assertion
  | .properties => ∀ fuel front acc, bytes.length + 1 ≤ fuel →
      readProperties fuel acc ⟨front, bytes⟩ = .error .assertion

theorem Reaches.trips {part : Part} {bytes : Bytes} {n : Nat} (reaches : Reaches part bytes n)
    (large : 2 ^ 15 ≤ n) : Trips bytes part := by
  induction reaches with
  | @string hi lo b =>
      intro fuel front enough
      obtain ⟨fuel, rfl⟩ := Nat.exists_eq_add_one_of_ne_zero (Nat.ne_zero_of_lt enough)
      have read := readString_large (b := b) front large
      simp +decide [createAmf0data, require_cons, read1byte_cons, read, bind, Except.bind]
  | @object b _ _ ih =>
      intro fuel front enough
      rw [List.length_cons] at enough
      obtain ⟨fuel, rfl⟩ : ∃ f, fuel = f + 2 := ⟨fuel - 2, by omega⟩
      have read := ih large fuel (front ++ [Amf0Marker.object]) [] (by omega)
      simp +decide [createAmf0data, readObject, require_cons, read1byte_cons, readMarker_any, read,
        bind, Except.bind]
  | @ecmaArray b _ counted _ ih =>
      intro fuel front enough
      rw [List.length_cons] at enough
      obtain ⟨fuel, rfl⟩ : ∃ f, fuel = f + 2 := ⟨fuel - 2, by omega⟩
      have there := require_enough (front ++ [Amf0Marker.ecmaArray]) counted
      have skipped := take_enough (front ++ [Amf0Marker.ecmaArray]) counted
      have read := ih large fuel (front ++ [Amf0Marker.ecmaArray] ++ b.take 4) []
        (by rw [List.length_drop]; omega)
      change require _ 4 = _ at there
      simp only [List.append_assoc, List.singleton_append] at there skipped read
      simp +decide [createAmf0data, readEcmaArray, require_cons, read1byte_cons, readMarker_any,
        there, read4bytes, skipped, read, bind, Except.bind, pure, Except.pure]
  | @name hi lo b =>
      intro fuel front acc enough
      obtain ⟨fuel, rfl⟩ := Nat.exists_eq_add_one_of_ne_zero (Nat.ne_zero_of_lt enough)
      simp [readProperties_sized, require_large _ large, bind, Except.bind]
  | @value hi lo b _ named small enough _ ih =>
      intro fuel front acc room
      simp only [List.length_cons] at room
      obtain ⟨fuel, rfl⟩ : ∃ f, fuel = f + 1 := ⟨fuel - 1, by omega⟩
      have there := require_enough (front ++ [hi, lo]) enough
      have taken := SimpleBuffer.readString_enough (front ++ [hi, lo]) enough
      have read := ih large fuel (front ++ [hi, lo] ++ b.take (lengthField hi lo))
        (by rw [List.length_drop]; omega)
      simp only [List.append_assoc, List.cons_append, List.nil_append] at there taken read ⊢
      simp [readProperties_sized, signed_small small, there, named, taken, read, bind, Except.bind]
  | @next hi lo b rest fate _ named small enough value _ ih =>
      intro fuel front acc room
      simp only [List.length_cons] at room
      obtain ⟨fuel, rfl⟩ : ∃ f, fuel = f + 1 := ⟨fuel - 1, by omega⟩
      have there := require_enough (front ++ [hi, lo]) enough
      have taken := SimpleBuffer.readString_enough (front ++ [hi, lo]) enough
      have less := value.suffix.length_le
      rw [List.length_drop] at less
      obtain ⟨head, v, _, first, _, _⟩ := value.finds fuel
        (front ++ [hi, lo] ++ b.take (lengthField hi lo)) (by rw [List.length_drop]; omega)
      have read := ih large fuel (front ++ [hi, lo] ++ b.take (lengthField hi lo) ++ head)
        (acc.put (b.take (lengthField hi lo)) v) (by omega)
      simp only [List.append_assoc, List.cons_append, List.nil_append] at there taken first read ⊢
      simp [readProperties_sized, signed_small small, there, named, taken, first, read, bind,
        Except.bind]

/-- Where every length field that is reached is below 2^15, reading ends in some way. -/
theorem passes_of_small (size : Nat) (part : Part) (bytes : Bytes) (within : bytes.length ≤ size)
    (small : ∀ n, Reaches part bytes n → n < 2 ^ 15) : ∃ fate rest, Passes part bytes fate rest := by
  induction size generalizing part bytes with
  | zero =>
      obtain rfl := List.length_eq_zero_iff.mp (Nat.le_zero.mp within)
      cases part with
      | value => exact ⟨_, _, .nothing⟩
      | properties => exact ⟨_, _, .ranOut⟩
  | succ size ih =>
      cases part with
      | value =>
          match bytes with
          | [] => exact ⟨_, _, .nothing⟩
          | m :: b =>
              simp only [List.length_cons, Nat.add_le_add_iff_right] at within
              by_cases known : Known m
              · rcases known with rfl | rfl | rfl | rfl | rfl | rfl | rfl
                · rcases Nat.lt_or_ge b.length 8 with short | enough
                  · exact ⟨_, _, .numberShort short⟩
                  · exact ⟨_, _, .number enough⟩
                · cases b with
                  | nil => exact ⟨_, _, .booleanShort⟩
                  | cons v b => exact ⟨_, _, .boolean⟩
                · match b with
                  | [] | [_] => exact ⟨_, _, .stringUnsized (by simp)⟩
                  | hi :: lo :: b =>
                      have size := small _ .string
                      rcases Nat.lt_or_ge b.length (lengthField hi lo) with short | enough
                      · exact ⟨_, _, .stringShort size short⟩
                      · exact ⟨_, _, .string size enough⟩
                · obtain ⟨fate, rest, body⟩ :=
                    ih .properties b within fun n inner => small n (.object inner)
                  exact ⟨_, _, .object body⟩
                · exact ⟨_, _, .null⟩
                · exact ⟨_, _, .undefined⟩
                · rcases Nat.lt_or_ge b.length 4 with short | counted
                  · exact ⟨_, _, .ecmaArrayShort short⟩
                  · obtain ⟨fate, rest, body⟩ := ih .properties (b.drop 4)
                      ((List.drop_suffix 4 b).length_le.trans within)
                      fun n inner => small n (.ecmaArray counted inner)
                    exact ⟨_, _, .ecmaArray counted body⟩
              · exact ⟨_, _, .unknown known⟩
      | properties =>
          match bytes with
          | [] => exact ⟨_, _, .ranOut⟩
          | [_] => exact ⟨_, _, .unsized⟩
          | hi :: lo :: b =>
              simp only [List.length_cons, Nat.add_le_add_iff_right] at within
              have sized := small _ .name
              by_cases named : lengthField hi lo = 0
              · obtain ⟨rfl, rfl⟩ := lengthField_zero named
                cases b with
                | nil => exact ⟨_, _, .unended⟩
                | cons m b => exact ⟨_, _, .ended⟩
              rcases Nat.lt_or_ge b.length (lengthField hi lo) with short | enough
              · exact ⟨_, _, .nameShort sized short⟩
              · have behind := (List.drop_suffix (lengthField hi lo) b).length_le
                obtain ⟨fate, rest, value⟩ := ih .value (b.drop (lengthField hi lo)) (by omega)
                  fun n inner => small n (.value named sized enough inner)
                have left := value.suffix.length_le
                obtain ⟨fate', rest', more⟩ := ih .properties rest (by omega)
                  fun n later => small n (.next named sized enough value later)
                exact ⟨_, _, .property named sized enough value more⟩

end Amf0Data

end DroneServer
