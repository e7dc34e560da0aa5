import DroneServer.Amf0.RoundTrip

/-! # What the reader makes can be written and read again

From bytes that nobody checked the reader makes a value whose names are apart and whose
strings fit their length fields; all it may lack is the value of a property that could not
be read, which is left as a null pointer. Writing trips over such a pointer, and is
otherwise undone by reading.
-/

namespace DroneServer

namespace Amf0Data

mutual
/-- What the reader makes. -/
inductive Made : Amf0Data → Prop
  | number (bits : UInt64) : Made (.number bits)
  | boolean (value : Bool) : Made (.boolean value)
  | string {value : Bytes} (short : value.length < 2 ^ 15) : Made (.string value)
  | null : Made .null
  | undefined : Made .undefined
  | object {properties : Amf0Properties} (all : MadeAll properties) : Made (.object properties)
  | ecmaArray {properties : Amf0Properties} (all : MadeAll properties) :
      Made (.ecmaArray properties)

/-- Each property is put over an earlier one of its name, with its value or a null pointer. -/
inductive MadeAll : Amf0Properties → Prop
  | empty : MadeAll []
  | put {properties : Amf0Properties} {name : Bytes} {value : Amf0Data} (all : MadeAll properties)
      (named : name ≠ []) (short : name.length < 2 ^ 15) (made : Made value) :
      MadeAll (properties.put name (some value))
  | lose {properties : Amf0Properties} {name : Bytes} (all : MadeAll properties)
      (named : name ≠ []) (short : name.length < 2 ^ 15) : MadeAll (properties.put name none)
end

mutual
/-- There is no null pointer in the value, at any depth. -/
def whole : Amf0Data → Bool
  | .number _ | .boolean _ | .string _ | .null | .undefined => true
  | .object properties | .ecmaArray properties => wholeAll properties

def wholeAll : Amf0Properties → Bool
  | [] => true
  | (_, none) :: _ => false
  | (_, some value) :: rest => value.whole && wholeAll rest
end

theorem wholeAll_iff {properties : Amf0Properties} : wholeAll properties = true ↔
    ∀ name value, (name, value) ∈ properties → ∃ v, value = some v ∧ v.whole = true := by
  induction properties with
  | nil => simp [wholeAll]
  | cons property properties ih =>
      obtain ⟨name, _ | value⟩ := property
      · refine iff_of_false nofun fun all => ?_
        obtain ⟨v, none, -⟩ := all name none List.mem_cons_self
        cases none
      · rw [wholeAll, Bool.and_eq_true, ih]
        constructor
        · rintro ⟨first, others⟩ name' value' there
          obtain same | there := List.mem_cons.mp there
          · cases same
            exact ⟨value, rfl, first⟩
          · exact others name' value' there
        · intro all
          obtain ⟨v, same, first⟩ := all name (some value) List.mem_cons_self
          cases same
          exact ⟨first, fun name' value' there => all name' value' (List.mem_cons_of_mem _ there)⟩

mutual
theorem Made.encodable {value : Amf0Data} :
    Made value → value.whole = true → value.Encodable
  | .number _, _ | .boolean _, _ | .null, _ | .undefined, _ => trivial
  | .string short, _ => short
  | .object all, whole | .ecmaArray all, whole => by
      obtain ⟨apart, each⟩ := all.encodable
      refine ⟨apart, encodableAll_iff.mpr fun name value there => ?_⟩
      obtain ⟨named, short, encodable⟩ := each name value there
      obtain ⟨v, rfl, whole⟩ := wholeAll_iff.mp whole name value there
      exact ⟨named, short, v, rfl, encodable v rfl whole⟩

theorem MadeAll.encodable {properties : Amf0Properties} :
    MadeAll properties → (properties.map Prod.fst).Nodup ∧
      ∀ name value, (name, value) ∈ properties → name ≠ [] ∧ name.length < 2 ^ 15 ∧
        ∀ v, value = some v → v.whole = true → v.Encodable
  | .empty => ⟨List.nodup_nil, fun _ _ there => absurd there List.not_mem_nil⟩
  | @MadeAll.put _ name value all named short made => by
      obtain ⟨apart, each⟩ := all.encodable
      refine ⟨Amf0Properties.put_nodup name value apart, fun name' value' there => ?_⟩
      obtain kept | ⟨rfl, rfl⟩ := Amf0Properties.mem_put there
      · exact each name' value' kept
      · refine ⟨named, short, fun v same whole => ?_⟩
        cases same
        exact made.encodable whole
  | @MadeAll.lose _ name all named short => by
      obtain ⟨apart, each⟩ := all.encodable
      refine ⟨Amf0Properties.put_nodup name none apart, fun name' value' there => ?_⟩
      obtain kept | ⟨rfl, rfl⟩ := Amf0Properties.mem_put there
      · exact each name' value' kept
      · exact ⟨named, short, nofun⟩
end

mutual
/-- Writing fails on a null pointer and on nothing else. -/
theorem write_whole (value : Amf0Data) :
    if value.whole then ∃ bytes, value.write = .ok bytes
    else value.write = .error .nullDereference := by
  cases value with
  | number | boolean | string | null | undefined => exact ⟨_, rfl⟩
  | object properties | ecmaArray properties =>
      have all := writeProperties_whole properties
      rw [whole]
      split
      · next whole =>
          rw [if_pos whole] at all
          obtain ⟨body, written⟩ := all
          exact ⟨_, by rw [write, written]; rfl⟩
      · next torn =>
          rw [if_neg torn] at all
          rw [write, all]
          rfl

theorem writeProperties_whole (properties : Amf0Properties) :
    if wholeAll properties then ∃ bytes, writeProperties properties = .ok bytes
    else writeProperties properties = .error .nullDereference := by
  match properties with
  | [] => exact ⟨_, rfl⟩
  | (_, none) :: _ => rfl
  | (name, some value) :: rest =>
      have first := write_whole value
      have others := writeProperties_whole rest
      rw [wholeAll]
      cases here : value.whole with
      | false =>
          rw [here] at first
          exact bind_error first _
      | true =>
          rw [here] at first
          obtain ⟨head, written⟩ := first
          rw [Bool.true_and, writeProperties, written]
          split
          · next whole =>
              rw [if_pos whole] at others
              obtain ⟨tail, written⟩ := others
              exact ⟨_, by rw [written]; rfl⟩
          · next torn =>
              rw [if_neg torn] at others
              exact bind_error others _
end

section Reading

variable {sb sb' : SimpleBuffer}

/-- A length field that lets the bytes be read is below 2^15. -/
theorem read2bytes_below {len : Int} (read : sb.read2bytes = .ok (len, sb')) : len < 2 ^ 15 := by
  unfold SimpleBuffer.read2bytes at read
  obtain ⟨⟨bytes, sb⟩, -, read⟩ := bind_ok.mp read
  have same := congrArg Prod.fst (pure_ok.mp read)
  have hi := (bytes.getD 0 0).toNat_lt
  have lo := (bytes.getD 1 0).toNat_lt
  dsimp only at same
  split at same <;> omega

theorem readString_length {len : Int} {value : Bytes} (read : sb.readString len = .ok (value, sb')) :
    0 ≤ len ∧ value.length = len.toNat := by
  unfold SimpleBuffer.readString at read
  split at read
  · cases read
  · next natural =>
      unfold SimpleBuffer.take at read
      split at read
      · cases read
      · cases read
        refine ⟨by omega, ?_⟩
        rw [List.length_take]
        omega

theorem readString_made {value : Bytes} (read : readString sb = .ok (some value, sb')) :
    value.length < 2 ^ 15 := by
  unfold readString at read
  obtain ⟨⟨isString, sb⟩, -, read⟩ := bind_ok.mp read
  dsimp only at read
  split at read
  · cases read
  obtain ⟨sized, -, read⟩ := bind_ok.mp read
  split at read
  · obtain ⟨⟨len, sb⟩, size, read⟩ := bind_ok.mp read
    have below := read2bytes_below size
    obtain ⟨there, -, read⟩ := bind_ok.mp read
    split at read
    · obtain ⟨⟨text, sb⟩, taken, read⟩ := bind_ok.mp read
      obtain ⟨natural, length⟩ := readString_length taken
      cases read
      change text.length < 2 ^ 15
      omega
    · cases read
  · cases read

mutual
theorem createAmf0data_made (fuel : Nat) {sb sb' : SimpleBuffer} {v : Amf0Data}
    (read : createAmf0data fuel sb = .ok (some v, sb')) : v.Made := by
  cases fuel with
  | zero => cases read
  | succ fuel =>
      unfold createAmf0data at read
      obtain ⟨there, -, read⟩ := bind_ok.mp read
      split at read
      · obtain ⟨⟨marker, sb⟩, -, read⟩ := bind_ok.mp read
        dsimp only at read
        split at read
        · obtain ⟨⟨value, sb⟩, -, read⟩ := bind_ok.mp read
          cases value <;> cases read
          exact .number _
        split at read
        · obtain ⟨⟨value, sb⟩, -, read⟩ := bind_ok.mp read
          cases value <;> cases read
          exact .boolean _
        split at read
        · obtain ⟨⟨value, sb⟩, text, read⟩ := bind_ok.mp read
          cases value <;> cases read
          exact .string (readString_made text)
        split at read
        · obtain ⟨⟨done, properties, sb⟩, body, read⟩ := bind_ok.mp read
          cases done <;> cases read
          exact .object (readObject_made fuel body)
        split at read
        · obtain ⟨⟨done, sb⟩, -, read⟩ := bind_ok.mp read
          cases done <;> cases read
          exact .null
        split at read
        · obtain ⟨⟨done, sb⟩, -, read⟩ := bind_ok.mp read
          cases done <;> cases read
          exact .undefined
        split at read
        · obtain ⟨⟨done, properties, sb⟩, body, read⟩ := bind_ok.mp read
          cases done <;> cases read
          exact .ecmaArray (readEcmaArray_made fuel body)
        · cases read
      · cases read

theorem readObject_made (fuel : Nat) {sb sb' : SimpleBuffer} {done : Bool}
    {properties : Amf0Properties} (read : readObject fuel sb = .ok (done, properties, sb')) :
    MadeAll properties := by
  cases fuel with
  | zero => cases read
  | succ fuel =>
      unfold readObject at read
      obtain ⟨⟨isObject, sb⟩, -, read⟩ := bind_ok.mp read
      dsimp only at read
      split at read
      · exact readProperties_made fuel .empty read
      · cases read
        exact .empty

theorem readEcmaArray_made (fuel : Nat) {sb sb' : SimpleBuffer} {done : Bool}
    {properties : Amf0Properties} (read : readEcmaArray fuel sb = .ok (done, properties, sb')) :
    MadeAll properties := by
  cases fuel with
  | zero => cases read
  | succ fuel =>
      unfold readEcmaArray at read
      obtain ⟨⟨isArray, sb⟩, -, read⟩ := bind_ok.mp read
      dsimp only at read
      split at read
      · cases read
        exact .empty
      obtain ⟨counted, -, read⟩ := bind_ok.mp read
      split at read
      · obtain ⟨⟨count, sb⟩, -, read⟩ := bind_ok.mp read
        exact readProperties_made fuel .empty read
      · cases read
        exact .empty

theorem readProperties_made (fuel : Nat) {sb sb' : SimpleBuffer} {done : Bool}
    {before properties : Amf0Properties} (all : MadeAll before)
    (read : readProperties fuel before sb = .ok (done, properties, sb')) :
    MadeAll properties := by
  cases fuel with
  | zero => cases read
  | succ fuel =>
      unfold readProperties at read
      split at read
      · cases read
        exact all
      obtain ⟨sized, -, read⟩ := bind_ok.mp read
      split at read
      · obtain ⟨⟨len, sb⟩, size, read⟩ := bind_ok.mp read
        have below := read2bytes_below size
        obtain ⟨there, -, read⟩ := bind_ok.mp read
        split at read
        · dsimp only at read
          split at read
          -- the empty name ends the properties, whatever stands behind it
          · obtain ⟨marked, -, read⟩ := bind_ok.mp read
            split at read
            · obtain ⟨⟨marker, sb⟩, -, read⟩ := bind_ok.mp read
              cases read
              exact all
            · cases read
              exact all
          · next some =>
              obtain ⟨⟨name, sb⟩, taken, read⟩ := bind_ok.mp read
              obtain ⟨natural, length⟩ := readString_length taken
              obtain ⟨⟨value, sb⟩, first, read⟩ := bind_ok.mp read
              have named : name ≠ [] := by
                rintro rfl
                rw [List.length_nil] at length
                omega
              have short : name.length < 2 ^ 15 := by omega
              refine readProperties_made fuel ?_ read
              cases value with
              | none => exact .lose all named short
              | some v => exact .put all named short (createAmf0data_made fuel first)
        · cases read
          exact all
      · cases read
        exact all
end

end Reading

end Amf0Data

/-- Whatever bytes a value was read from, written it is read back as that value, and no byte more; if
    a property of it was left as a null pointer, at any depth, writing it dereferences that. -/
theorem decoded_settles {fuel : Nat} {sb sb' : SimpleBuffer} {v : Amf0Data}
    (read : Amf0Data.createAmf0data fuel sb = .ok (some v, sb')) :
    if v.whole then
      ∃ bytes, v.write = .ok bytes ∧ ∀ front rest,
        Amf0Data.createAmf0data (Amf0Data.readFuel { front, rest := bytes ++ rest })
            { front, rest := bytes ++ rest } =
          .ok (some v, { front := front ++ bytes, rest })
    else v.write = .error .nullDereference := by
  split
  · next whole =>
      have encodable := (Amf0Data.createAmf0data_made fuel read).encodable whole
      obtain ⟨bytes, written, reads⟩ := Amf0Data.createAmf0data_write v encodable
      refine ⟨bytes, written, fun front rest => reads _ front rest ?_⟩
      simp only [Amf0Data.readFuel, List.length_append]
      omega
  · next torn =>
      have written := v.write_whole
      rwa [if_neg torn] at written

/-- An object that gives one name twice and whose end is cut off. -/
def loose : SimpleBuffer :=
  .ofBytes [Amf0Marker.object, 0, 1, 0x61, Amf0Marker.boolean, 7, 0, 1, 0x61, Amf0Marker.null]

set_option maxRecDepth 4000 in
/-- What it is read as is written with its end, and read back. -/
theorem decoded_settles_loose :
    ∃ bytes, (Amf0Data.object [([0x61], some .null)]).write = .ok bytes ∧ ∀ front rest,
      Amf0Data.createAmf0data (Amf0Data.readFuel { front, rest := bytes ++ rest })
          { front, rest := bytes ++ rest } =
        .ok (some (.object [([0x61], some .null)]), { front := front ++ bytes, rest }) := by
  have read : Amf0Data.createAmf0data 8 loose =
      .ok (some (.object [([0x61], some .null)]), ⟨loose.rest, []⟩) := by rfl
  exact decoded_settles read

end DroneServer
