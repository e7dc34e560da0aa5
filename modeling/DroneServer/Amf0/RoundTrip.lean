import DroneServer.Amf0.Value
import Mathlib.Data.List.Nodup

/-! # AMF0 decoding undoes encoding

Whatever follows the encoding of a value, the reader takes exactly the encoding.
The two functions that read values and the properties of an object follow each
other down the value, and so do the two theorems about them. The reader finds the
end of an object by an empty name, which no property has, and collects the
properties through `put`, which keeps their order because no name comes twice.
-/

namespace DroneServer

namespace SimpleBuffer

variable {bytes : Bytes} (front rest : Bytes)

theorem require_append {n : Int} (natural : 0 ≤ n) (enough : n ≤ bytes.length) :
    require ⟨front, bytes ++ rest⟩ n = .ok true := by
  have there : n ≤ (bytes ++ rest).length := by
    rw [List.length_append]
    omega
  simp only [require, Int.not_lt.mpr natural, if_false, there, decide_true]

theorem take_append :
    take ⟨front, bytes ++ rest⟩ bytes.length = .ok (bytes, ⟨front ++ bytes, rest⟩) := by
  have enough : ¬ (bytes ++ rest).length < bytes.length := by
    rw [List.length_append]
    omega
  simp only [take, enough, if_false, List.take_left, List.drop_left]

theorem require_cons (b : UInt8) : require ⟨front, b :: rest⟩ 1 = .ok true :=
  @require_append [b] front rest 1 (by omega) (Int.le_refl 1)

theorem read1byte_cons (b : UInt8) :
    read1byte ⟨front, b :: rest⟩ = .ok (b, ⟨front ++ [b], rest⟩) := by
  have taken := @take_append [b] front rest
  rw [List.singleton_append] at taken
  rw [read1byte, List.length_singleton.symm, taken]
  rfl

theorem read2bytes_write {n : Nat} (short : n < 2 ^ 15) :
    read2bytes ⟨front, Amf0Data.write2bytes n ++ rest⟩ =
      .ok ((n : Int), ⟨front ++ Amf0Data.write2bytes n, rest⟩) := by
  have taken := @take_append (Amf0Data.write2bytes n) front rest
  have byte : n / 256 < 2 ^ 8 := by omega
  have high : (UInt8.ofNat (n / 256)).toNat = n / 256 := UInt8.toNat_ofNat_of_lt' byte
  have low : (UInt8.ofNat n).toNat = n % 256 := UInt8.toNat_ofNat'
  have value : n / 256 * 256 + n % 256 = n := Nat.div_add_mod' n 256
  have positive : n < 0x8000 := short
  change (SimpleBuffer.take _ 2 : Except Fault _) = _ at taken
  rw [read2bytes, taken]
  simp only [bind, Except.bind, Amf0Data.write2bytes, List.getD_cons_zero, List.getD_cons_succ, high,
    low, value, positive, if_true]
  rfl

theorem read4bytes_append (word : UInt32) :
    ∃ value, read4bytes ⟨front, Endian.toBE32 word ++ rest⟩ =
      .ok (value, ⟨front ++ Endian.toBE32 word, rest⟩) := by
  have taken := @take_append (Endian.toBE32 word) front rest
  change (SimpleBuffer.take _ 4 : Except Fault _) = _ at taken
  rw [read4bytes, taken]
  exact ⟨_, rfl⟩

theorem read8bytes_write (bits : UInt64) :
    read8bytes ⟨front, Endian.toBE64 bits ++ rest⟩ =
      .ok (bits, ⟨front ++ Endian.toBE64 bits, rest⟩) := by
  have taken := @take_append (Endian.toBE64 bits) front rest
  have value : UInt64.ofNat ((Endian.toBE64 bits).foldl (fun value b => value * 256 + b.toNat) 0) =
      bits := by
    apply UInt64.toNat_inj.mp
    have fits := bits.toNat_lt
    have top : bits.toNat / 72057594037927936 % 256 = bits.toNat / 72057594037927936 :=
      Nat.mod_eq_of_lt (by omega)
    -- The bytes so far are the number shifted; each step takes in one byte more.
    have digit : ∀ k k', k' = k * 256 →
        bits.toNat / k' * 256 + bits.toNat / k % 256 = bits.toNat / k := by
      rintro k _ rfl
      rw [← Nat.div_div_eq_div_mul, Nat.div_add_mod']
    have last : bits.toNat / 256 * 256 + bits.toNat % 256 = bits.toNat := Nat.div_add_mod' _ _
    simp [Endian.toBE64, Nat.shiftRight_eq_div_pow]
    rw [top, digit 281474976710656 _ rfl, digit 1099511627776 _ rfl, digit 4294967296 _ rfl,
      digit 16777216 _ rfl, digit 65536 _ rfl, digit 256 _ rfl, last, Nat.mod_eq_of_lt fits]
  change (SimpleBuffer.take _ 8 : Except Fault _) = _ at taken
  rw [read8bytes, taken]
  simp only [bind, Except.bind, value]
  rfl

theorem readString_append :
    readString ⟨front, bytes ++ rest⟩ bytes.length = .ok (bytes, ⟨front ++ bytes, rest⟩) := by
  have natural : ¬ (bytes.length : Int) < 0 := by omega
  rw [readString, if_neg natural, Int.toNat_natCast, take_append]

end SimpleBuffer

namespace Amf0Data

open SimpleBuffer

variable (front rest : Bytes)

theorem readMarker_cons (marker : UInt8) :
    readMarker marker ⟨front, marker :: rest⟩ = .ok (true, ⟨front ++ [marker], rest⟩) := by
  simp [readMarker, require_cons, read1byte_cons, bind, Except.bind, pure, Except.pure]

theorem readNumber_write (bits : UInt64) :
    readNumber ⟨front, Amf0Marker.number :: Endian.toBE64 bits ++ rest⟩ =
      .ok (some bits, ⟨front ++ Amf0Marker.number :: Endian.toBE64 bits, rest⟩) := by
  have there := @require_append (Endian.toBE64 bits) (front ++ [Amf0Marker.number]) rest 8
    (by omega) (Int.le_refl 8)
  simp [readNumber, readMarker_cons, there, read8bytes_write, bind, Except.bind, pure, Except.pure]

theorem readBoolean_write (value : Bool) :
    readBoolean ⟨front, Amf0Marker.boolean :: (if value then 1 else 0) :: rest⟩ =
      .ok (some value, ⟨front ++ [Amf0Marker.boolean, if value then 1 else 0], rest⟩) := by
  cases value <;>
    simp [readBoolean, readMarker_cons, require_cons, read1byte_cons, bind, Except.bind, pure,
      Except.pure]

theorem readString_write {value : Bytes} (short : value.length < 2 ^ 15) :
    readString ⟨front, Amf0Marker.string :: write2bytes value.length ++ value ++ rest⟩ =
      .ok (some value, ⟨front ++ (Amf0Marker.string :: write2bytes value.length ++ value), rest⟩) := by
  have size := @require_append (write2bytes value.length) (front ++ [Amf0Marker.string])
    (value ++ rest) 2 (by omega) (Int.le_refl 2)
  have there := @require_append value (front ++ [Amf0Marker.string] ++ write2bytes value.length) rest
    value.length (by omega) (Int.le_refl _)
  have read :=
    @readString_append value (front ++ [Amf0Marker.string] ++ write2bytes value.length) rest
  simp only [List.append_assoc, List.cons_append, List.nil_append] at size there read ⊢
  simp [readString, readMarker_cons, size, read2bytes_write _ _ short, there, read, bind, Except.bind,
    pure, Except.pure]

/-! ## Values a program builds -/

mutual
/-- A value built from the seven kinds, with every string shorter than 2^15. -/
inductive Built : Amf0Data → Prop
  | number (bits : UInt64) : Built (.number bits)
  | boolean (value : Bool) : Built (.boolean value)
  | string {value : Bytes} (short : value.length < 2 ^ 15) : Built (.string value)
  | null : Built .null
  | undefined : Built .undefined
  | object {properties : Amf0Properties} (filled : Filled properties) : Built (.object properties)
  | ecmaArray {properties : Amf0Properties} (filled : Filled properties) :
      Built (.ecmaArray properties)

/-- Properties filled through `put`, under names that are not empty. -/
inductive Filled : Amf0Properties → Prop
  | empty : Filled []
  | put {properties : Amf0Properties} {name : Bytes} {value : Amf0Data} (filled : Filled properties)
      (named : name ≠ []) (short : name.length < 2 ^ 15) (built : Built value) :
      Filled (properties.put name (some value))
end

mutual
/-- What the writer needs of a value to be read back. -/
def Encodable : Amf0Data → Prop
  | .number _ | .boolean _ | .null | .undefined => True
  | .string value => value.length < 2 ^ 15
  | .object properties | .ecmaArray properties =>
      (properties.map Prod.fst).Nodup ∧ EncodableAll properties

def EncodableAll : Amf0Properties → Prop
  | [] => True
  | (_, none) :: _ => False
  | (name, some value) :: rest =>
      name ≠ [] ∧ name.length < 2 ^ 15 ∧ value.Encodable ∧ EncodableAll rest
end

theorem encodableAll_iff {properties : Amf0Properties} : EncodableAll properties ↔
    ∀ name value, (name, value) ∈ properties →
      name ≠ [] ∧ name.length < 2 ^ 15 ∧ ∃ v, value = some v ∧ v.Encodable := by
  induction properties with
  | nil => simp [EncodableAll]
  | cons property properties ih =>
      obtain ⟨name, _ | value⟩ := property
      · refine iff_of_false id fun all => ?_
        obtain ⟨-, -, v, none, -⟩ := all name none List.mem_cons_self
        cases none
      · rw [EncodableAll, ih]
        constructor
        · rintro ⟨named, short, encodable, all⟩ name' value' there
          obtain same | there := List.mem_cons.mp there
          · cases same
            exact ⟨named, short, value, rfl, encodable⟩
          · exact all name' value' there
        · intro all
          obtain ⟨named, short, v, same, encodable⟩ := all name (some value) List.mem_cons_self
          cases same
          exact ⟨named, short, encodable, fun name' value' there =>
            all name' value' (List.mem_cons_of_mem _ there)⟩

end Amf0Data

namespace Amf0Properties

theorem put_nodup {properties : Amf0Properties} (name : Bytes) (value : Option Amf0Data)
    (apart : (properties.map Prod.fst).Nodup) : ((properties.put name value).map Prod.fst).Nodup := by
  have names : (properties.put name value).map Prod.fst =
      (properties.map Prod.fst).erase name ++ [name] := by
    rw [put, List.map_append, List.erase_eq_eraseP', List.eraseP_map]
    rfl
  rw [names, ← List.concat_eq_append, List.nodup_concat]
  exact ⟨apart.not_mem_erase, apart.erase name⟩

theorem mem_put {properties : Amf0Properties} {name name' : Bytes} {value value' : Option Amf0Data}
    (there : (name', value') ∈ properties.put name value) :
    (name', value') ∈ properties ∨ name' = name ∧ value' = value := by
  obtain kept | new := List.mem_append.mp there
  · exact .inl (List.mem_of_mem_eraseP kept)
  · cases List.mem_singleton.mp new
    exact .inr ⟨rfl, rfl⟩

theorem put_new {properties : Amf0Properties} {name : Bytes} (new : name ∉ properties.map Prod.fst)
    (value : Option Amf0Data) : properties.put name value = properties ++ [(name, value)] := by
  rw [put, List.eraseP_of_forall_not]
  intro property there same
  exact new (List.mem_map.mpr ⟨property, there, eq_of_beq same⟩)

end Amf0Properties

namespace Amf0Data

open SimpleBuffer

mutual
theorem Built.encodable {value : Amf0Data} : Built value → value.Encodable
  | .number _ | .boolean _ | .null | .undefined => trivial
  | .string short => short
  | .object filled => filled.encodable
  | .ecmaArray filled => filled.encodable

theorem Filled.encodable {properties : Amf0Properties} :
    Filled properties → (properties.map Prod.fst).Nodup ∧ EncodableAll properties
  | .empty => ⟨List.nodup_nil, trivial⟩
  | @Filled.put _ name value filled named short built => by
      obtain ⟨apart, all⟩ := filled.encodable
      refine ⟨Amf0Properties.put_nodup name value apart,
        encodableAll_iff.mpr fun name' value' there => ?_⟩
      obtain kept | ⟨rfl, rfl⟩ := Amf0Properties.mem_put there
      · exact encodableAll_iff.mp all name' value' kept
      · exact ⟨named, short, value, rfl, built.encodable⟩
end

section Steps

variable (front rest : Bytes) {fuel : Nat}

/-- The marker of an object is looked at, stepped back over, and read. -/
theorem createAmf0data_object {properties : Amf0Properties} {sb : SimpleBuffer}
    (read : readProperties fuel [] ⟨front ++ [Amf0Marker.object], rest⟩ = .ok (true, properties, sb)) :
    createAmf0data (fuel + 2) ⟨front, Amf0Marker.object :: rest⟩ =
      .ok (some (.object properties), sb) := by
  simp +decide [createAmf0data, readObject, require_cons, read1byte_cons, readMarker_cons, read, bind,
    Except.bind, pure, Except.pure]

theorem createAmf0data_ecmaArray (count : UInt32) {properties : Amf0Properties} {sb : SimpleBuffer}
    (read : readProperties fuel []
      ⟨front ++ Amf0Marker.ecmaArray :: Endian.toBE32 count, rest⟩ = .ok (true, properties, sb)) :
    createAmf0data (fuel + 2) ⟨front, Amf0Marker.ecmaArray :: Endian.toBE32 count ++ rest⟩ =
      .ok (some (.ecmaArray properties), sb) := by
  have there := @require_append (Endian.toBE32 count) (front ++ [Amf0Marker.ecmaArray]) rest 4
    (by omega) (Int.le_refl 4)
  obtain ⟨_, skipped⟩ := read4bytes_append (front ++ [Amf0Marker.ecmaArray]) rest count
  simp only [List.append_assoc, List.singleton_append] at there skipped
  simp +decide [createAmf0data, readEcmaArray, require_cons, read1byte_cons, readMarker_cons, there,
    skipped, read, bind, Except.bind, pure, Except.pure]

theorem readProperties_end (properties : Amf0Properties) :
    readProperties (fuel + 1) properties ⟨front, [0, 0, Amf0Marker.objectEnd] ++ rest⟩ =
      .ok (true, properties, ⟨front ++ [0, 0, Amf0Marker.objectEnd], rest⟩) := by
  have more : empty ⟨front, 0 :: 0 :: Amf0Marker.objectEnd :: rest⟩ = false := rfl
  have size : require ⟨front, 0 :: 0 :: Amf0Marker.objectEnd :: rest⟩ 2 = .ok true :=
    @require_append [0, 0] front (Amf0Marker.objectEnd :: rest) 2 (by omega) (Int.le_refl 2)
  have zero : read2bytes ⟨front, 0 :: 0 :: Amf0Marker.objectEnd :: rest⟩ =
      .ok (0, ⟨front ++ [0, 0], Amf0Marker.objectEnd :: rest⟩) :=
    @read2bytes_write front (Amf0Marker.objectEnd :: rest) 0 (by omega)
  have nothing : require ⟨front ++ [0, 0], Amf0Marker.objectEnd :: rest⟩ 0 = .ok true :=
    @require_append [] (front ++ [0, 0]) (Amf0Marker.objectEnd :: rest) 0 (by omega) (Int.le_refl 0)
  simp [readProperties, more, size, zero, nothing, require_cons, read1byte_cons, bind, Except.bind,
    pure, Except.pure]

theorem readProperties_step (properties : Amf0Properties) {name : Bytes} {value : Option Amf0Data}
    {sb : SimpleBuffer} (named : name ≠ []) (short : name.length < 2 ^ 15)
    (read : createAmf0data fuel ⟨front ++ (write2bytes name.length ++ name), rest⟩ = .ok (value, sb)) :
    readProperties (fuel + 1) properties ⟨front, write2bytes name.length ++ name ++ rest⟩ =
      readProperties fuel (properties.put name value) sb := by
  have more : empty ⟨front, write2bytes name.length ++ (name ++ rest)⟩ = false := rfl
  have size := @require_append (write2bytes name.length) front (name ++ rest) 2
    (by omega) (Int.le_refl 2)
  have there := @require_append name (front ++ write2bytes name.length) rest name.length
    (by omega) (Int.le_refl _)
  have taken := @readString_append name (front ++ write2bytes name.length) rest
  simp only [List.append_assoc] at size there taken read ⊢
  simp [readProperties, more, size, read2bytes_write _ _ short, there, taken, read, named, bind,
    Except.bind]

end Steps

mutual
/-- The encoding of a value is read back as that value, and no byte more. -/
theorem createAmf0data_write (value : Amf0Data) (encodable : value.Encodable) :
    ∃ bytes, value.write = .ok bytes ∧ ∀ fuel front rest, bytes.length < fuel →
      createAmf0data fuel ⟨front, bytes ++ rest⟩ = .ok (some value, ⟨front ++ bytes, rest⟩) := by
  cases value with
  | number bits =>
      refine ⟨_, rfl, fun fuel front rest enough => ?_⟩
      obtain ⟨fuel, rfl⟩ := Nat.exists_eq_add_one_of_ne_zero (Nat.ne_zero_of_lt enough)
      have read := readNumber_write front rest bits
      simp only [List.cons_append] at read ⊢
      simp [createAmf0data, require_cons, read1byte_cons, read, bind, Except.bind, pure, Except.pure]
  | boolean b =>
      refine ⟨_, rfl, fun fuel front rest enough => ?_⟩
      obtain ⟨fuel, rfl⟩ := Nat.exists_eq_add_one_of_ne_zero (Nat.ne_zero_of_lt enough)
      have read := readBoolean_write front rest b
      simp only [List.cons_append] at read ⊢
      simp +decide [createAmf0data, require_cons, read1byte_cons, read, bind, Except.bind, pure,
        Except.pure]
  | string text =>
      refine ⟨_, rfl, fun fuel front rest enough => ?_⟩
      obtain ⟨fuel, rfl⟩ := Nat.exists_eq_add_one_of_ne_zero (Nat.ne_zero_of_lt enough)
      have read := readString_write front rest encodable
      simp only [List.cons_append, List.append_assoc] at read ⊢
      simp +decide [createAmf0data, require_cons, read1byte_cons, read, bind, Except.bind, pure,
        Except.pure]
  | null | undefined =>
      refine ⟨_, rfl, fun fuel front rest enough => ?_⟩
      obtain ⟨fuel, rfl⟩ := Nat.exists_eq_add_one_of_ne_zero (Nat.ne_zero_of_lt enough)
      simp +decide [createAmf0data, readNull, readUndefined, require_cons, read1byte_cons,
        readMarker_cons, bind, Except.bind, pure, Except.pure]
  | object properties =>
      obtain ⟨body, written, reads⟩ := readProperties_write properties encodable.2
      refine ⟨Amf0Marker.object :: body ++ [0, 0, Amf0Marker.objectEnd], ?_,
        fun fuel front rest enough => ?_⟩
      · simp only [write, written, bind, Except.bind, pure, Except.pure]
      · simp only [List.length_append, List.length_cons] at enough
        obtain ⟨fuel, rfl⟩ := Nat.exists_eq_add_of_le' (by omega : 2 ≤ fuel)
        have read := reads [] fuel (front ++ [Amf0Marker.object]) rest encodable.1 (by omega)
        have object := createAmf0data_object front _ read
        simpa only [List.append_assoc, List.cons_append, List.nil_append] using object
  | ecmaArray properties =>
      obtain ⟨body, written, reads⟩ := readProperties_write properties encodable.2
      refine ⟨Amf0Marker.ecmaArray :: Endian.toBE32 (UInt32.ofNat properties.length) ++ body ++
        [0, 0, Amf0Marker.objectEnd], ?_, fun fuel front rest enough => ?_⟩
      · simp only [write, written, bind, Except.bind, pure, Except.pure]
      · simp only [List.length_append, List.length_cons] at enough
        obtain ⟨fuel, rfl⟩ := Nat.exists_eq_add_of_le' (by omega : 2 ≤ fuel)
        have read := reads [] fuel (front ++ Amf0Marker.ecmaArray ::
          Endian.toBE32 (UInt32.ofNat properties.length)) rest encodable.1 (by omega)
        have array := createAmf0data_ecmaArray front _ _ read
        simpa only [List.append_assoc, List.cons_append, List.nil_append] using array

theorem readProperties_write (properties : Amf0Properties) (encodable : EncodableAll properties) :
    ∃ bytes, writeProperties properties = .ok bytes ∧ ∀ before fuel front rest,
      ((before ++ properties).map Prod.fst).Nodup → bytes.length < fuel →
      readProperties fuel before ⟨front, bytes ++ ([0, 0, Amf0Marker.objectEnd] ++ rest)⟩ =
        .ok (true, before ++ properties, ⟨front ++ bytes ++ [0, 0, Amf0Marker.objectEnd], rest⟩) := by
  match properties, encodable with
  | [], _ =>
      refine ⟨[], rfl, fun before fuel front rest _ enough => ?_⟩
      obtain ⟨fuel, rfl⟩ := Nat.exists_eq_add_one_of_ne_zero (Nat.ne_zero_of_lt enough)
      rw [List.append_nil, List.nil_append, List.append_nil, readProperties_end]
  | (name, some value) :: later, ⟨named, short, valueEncodable, laterEncodable⟩ =>
      obtain ⟨head, headWritten, headReads⟩ := createAmf0data_write value valueEncodable
      obtain ⟨tail, tailWritten, tailReads⟩ := readProperties_write later laterEncodable
      refine ⟨write2bytes name.length ++ name ++ head ++ tail, ?_,
        fun before fuel front rest apart enough => ?_⟩
      · simp only [writeProperties, headWritten, tailWritten, bind, Except.bind, pure, Except.pure]
      · simp only [List.length_append] at enough
        obtain ⟨fuel, rfl⟩ := Nat.exists_eq_add_one_of_ne_zero (Nat.ne_zero_of_lt enough)
        have new : name ∉ before.map Prod.fst := by
          rw [List.map_append, List.map_cons] at apart
          exact fun there => (List.nodup_append.mp apart).2.2 name there name List.mem_cons_self rfl
        have size : (write2bytes name.length).length = 2 := rfl
        have first := headReads fuel (front ++ (write2bytes name.length ++ name))
          (tail ++ ([0, 0, Amf0Marker.objectEnd] ++ rest)) (by omega)
        have step := readProperties_step front _ before named short first
        have others := tailReads (before ++ [(name, some value)]) fuel
          (front ++ (write2bytes name.length ++ name) ++ head) rest (by simpa using apart) (by omega)
        rw [Amf0Properties.put_new new, others] at step
        simpa only [List.append_assoc, List.cons_append, List.nil_append] using step
end

end Amf0Data

/-- A value that a program built, encoded and followed by any bytes, is decoded to itself, and the
    position is left where those bytes begin. -/
theorem amf0_round_trip {value : Amf0Data} (built : value.Built) :
    ∃ bytes, value.write = .ok bytes ∧ ∀ front rest,
      Amf0Data.createAmf0data (Amf0Data.readFuel { front, rest := bytes ++ rest })
          { front, rest := bytes ++ rest } =
        .ok (some value, { front := front ++ bytes, rest }) := by
  obtain ⟨bytes, written, reads⟩ := Amf0Data.createAmf0data_write value built.encodable
  refine ⟨bytes, written, fun front rest => reads _ front rest ?_⟩
  simp only [Amf0Data.readFuel, List.length_append]
  omega

/-- An object whose first property is replaced and whose other one is an array. -/
def nestedObject : Amf0Data :=
  .object (((Amf0Properties.put [] [1] (some .null)).put [2]
    (some (.ecmaArray (Amf0Properties.put [] [1] (some (.string [7])))))).put [1] (some (.number 3)))

theorem amf0_round_trip_nested : ∃ bytes, nestedObject.write = .ok bytes ∧ ∀ front rest,
    Amf0Data.createAmf0data (Amf0Data.readFuel { front, rest := bytes ++ rest })
        { front, rest := bytes ++ rest } =
      .ok (some nestedObject, { front := front ++ bytes, rest }) := by
  have array : (Amf0Data.ecmaArray (Amf0Properties.put [] [1] (some (.string [7])))).Built :=
    .ecmaArray (.put .empty (by decide) (by decide) (.string (by decide)))
  refine amf0_round_trip (.object ?_)
  refine .put (.put (.put .empty ?_ ?_ .null) ?_ ?_ array) ?_ ?_ (.number 3)
  all_goals decide

end DroneServer
