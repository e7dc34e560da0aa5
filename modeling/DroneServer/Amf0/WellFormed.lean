import DroneServer.Amf0.Walk
import Mathlib.Data.List.Infix

/-! # What success of a reader means

`Amf0Object::read` and `Amf0EcmaArray::read` return success in two cases where there
is no complete object: when the data ends between two properties, and when a value
that did not decode was passed over on the way to the end marker. Otherwise what
they took is an encoding of what they return.
-/

namespace DroneServer

namespace Amf0Data

open SimpleBuffer

mutual
/-- Where there is an encoding, reading finds everything. -/
theorem Encodes.clean {value : Amf0Data} {bytes : Bytes} : Encodes value bytes →
    ∀ {behind rest fate}, Passes .value (bytes ++ behind) fate rest → fate = .clean ∧ rest = behind
  | .number eight, _, _, _, passes => by
      rw [List.cons_append] at passes
      cases passes with
      | number => exact ⟨rfl, List.drop_left' eight⟩
      | numberShort short =>
          rw [List.length_append, eight] at short
          omega
      | unknown unknown => exact absurd (.inl rfl) unknown
  | .boolean v, _, _, _, passes => by
      cases passes with
      | boolean => exact ⟨rfl, rfl⟩
      | unknown unknown => exact absurd (.inr (.inl rfl)) unknown
  | .string size, _, _, _, passes => by
      simp only [List.cons_append] at passes
      cases passes with
      | string => exact ⟨rfl, List.drop_left' size⟩
      | stringShort _ short =>
          rw [List.length_append, size] at short
          omega
      | stringUnsized short =>
          simp only [List.length_cons] at short
          omega
      | unknown unknown => exact absurd (.inr (.inr (.inl rfl))) unknown
  | .null, _, _, _, passes => by
      cases passes with
      | null => exact ⟨rfl, rfl⟩
      | unknown unknown => exact absurd (.inr (.inr (.inr (.inr (.inl rfl))))) unknown
  | .undefined, _, _, _, passes => by
      cases passes with
      | undefined => exact ⟨rfl, rfl⟩
      | unknown unknown => exact absurd (.inr (.inr (.inr (.inr (.inr (.inl rfl)))))) unknown
  | .object all, _, _, _, passes => by
      have inner := @all.clean
      rw [List.cons_append, List.append_assoc] at passes
      cases passes with
      | object body => exact inner body
      | unknown unknown => exact absurd (.inr (.inr (.inr (.inl rfl)))) unknown
  | .ecmaArray four all, _, _, _, passes => by
      have inner := @all.clean
      rw [List.cons_append, List.append_assoc, List.append_assoc] at passes
      cases passes with
      | ecmaArray _ body =>
          rw [List.drop_left' four] at body
          exact inner body
      | ecmaArrayShort short =>
          rw [List.length_append, four] at short
          omega
      | unknown unknown =>
          exact absurd (.inr (.inr (.inr (.inr (.inr (.inr rfl)))))) unknown

theorem EncodesAll.clean {pairs : List (Bytes × Amf0Data)} {body : Bytes} : EncodesAll pairs body →
    ∀ {behind rest fate},
      Passes .properties (body ++ ([0, 0, Amf0Marker.objectEnd] ++ behind)) fate rest →
        fate = .clean ∧ rest = behind
  | .nil, _, _, _, passes => by
      cases passes with
      | ended => exact ⟨if_pos rfl, rfl⟩
      | nameShort _ short => exact absurd short (Nat.not_lt_zero _)
      | property named => exact absurd rfl named
  | .cons named size first all, _, _, _, passes => by
      have head := @first.clean
      have tail := @all.clean
      obtain ⟨c, name, rfl⟩ := List.exists_cons_of_ne_nil named
      simp only [List.cons_append, List.append_assoc] at passes
      cases passes with
      | property _ _ _ value more =>
          rw [← List.cons_append, List.drop_left' size] at value
          obtain ⟨rfl, rfl⟩ := head value
          obtain ⟨rfl, rfl⟩ := tail more
          exact ⟨rfl, rfl⟩
      | nameShort _ short =>
          rw [← List.cons_append, List.length_append, size] at short
          omega
      | ended => exact absurd size (Nat.succ_ne_zero _)
end

/-- The two kinds that have properties. -/
inductive Container where
  | object
  | ecmaArray

namespace Container

def marker : Container → UInt8
  | .object => Amf0Marker.object
  | .ecmaArray => Amf0Marker.ecmaArray

/-- How many bytes there are between the marker and the properties. -/
def countSize : Container → Nat
  | .object => 0
  | .ecmaArray => 4

def read : Container → Nat → SimpleBuffer → Except Fault (Bool × Amf0Properties × SimpleBuffer)
  | .object => readObject
  | .ecmaArray => readEcmaArray

/-- If it returns success, what it took are the marker, the count of an array, names that are not
    empty, each followed by a complete encoding of a value, and the end marker; and these values are
    what it returns, under their names. -/
def Sound (c : Container) (sb : SimpleBuffer) : Prop :=
  ∀ properties sb', c.read (readFuel sb) sb = .ok (true, properties, sb') →
    ∃ taken count pairs body, sb'.front = sb.front ++ taken ∧ sb.rest = taken ++ sb'.rest ∧
      taken = c.marker :: (count ++ (body ++ [0, 0, Amf0Marker.objectEnd])) ∧
      count.length = c.countSize ∧ EncodesAll pairs body ∧ properties = filled [] pairs

/-- Reading its properties succeeds, and on the way the data ended between two properties or a value
    failed, at some depth. -/
def Spoilt (c : Container) (bytes : Bytes) : Prop :=
  ∃ b rest, bytes = c.marker :: b ∧ c.countSize ≤ b.length ∧
    Passes .properties (b.drop c.countSize) .spoilt rest

variable {c : Container} {b : Bytes} {fuel : Nat} (front : Bytes)

theorem read_counted (counted : c.countSize ≤ b.length) :
    c.read (fuel + 1) ⟨front, c.marker :: b⟩ =
      readProperties fuel [] ⟨front ++ c.marker :: b.take c.countSize, b.drop c.countSize⟩ := by
  cases c with
  | object =>
      simp [read, marker, countSize, readObject, readMarker_any, bind, Except.bind]
  | ecmaArray =>
      have there := require_enough (front ++ [Amf0Marker.ecmaArray]) counted
      have skipped := take_enough (front ++ [Amf0Marker.ecmaArray]) counted
      simp only [countSize] at there skipped
      change require _ 4 = _ at there
      simp [read, marker, countSize, readEcmaArray, readMarker_any, there, read4bytes, skipped, bind,
        Except.bind, pure, Except.pure]

theorem read_fails {bytes : Bytes} (missing : ∀ b, bytes = c.marker :: b → b.length < c.countSize) :
    ∃ properties sb, c.read (fuel + 1) ⟨front, bytes⟩ = .ok (false, properties, sb) := by
  cases bytes with
  | nil => cases c <;> exact ⟨_, _, rfl⟩
  | cons m b =>
      by_cases own : m = c.marker
      · subst own
        have short := missing b rfl
        cases c with
        | object => exact absurd short (Nat.not_lt_zero _)
        | ecmaArray =>
            have few := require_short (front ++ [Amf0Marker.ecmaArray]) short
            simp only [countSize] at few
            change require _ 4 = _ at few
            refine ⟨[], ⟨front ++ [Amf0Marker.ecmaArray], b⟩, ?_⟩
            simp [read, marker, readEcmaArray, readMarker_any, few, bind, Except.bind, pure, Except.pure]
      · have differ : (m == c.marker) = false := beq_eq_false_iff_ne.mpr own
        refine ⟨[], ⟨front ++ [m], b⟩, ?_⟩
        cases c <;> simp only [marker] at differ <;>
          simp [read, readObject, readEcmaArray, readMarker_any, differ, bind, Except.bind, pure,
            Except.pure]

theorem readFuel_enough (sb : SimpleBuffer) :
    ∃ fuel, readFuel sb = fuel + 1 ∧ ∀ k, 0 < k → (sb.rest.drop k).length + 1 ≤ fuel := by
  refine ⟨2 * sb.rest.length + 1, rfl, fun k some => ?_⟩
  rw [List.length_drop]
  omega

/-- Where the end of the data or a value that failed is passed over, what is taken is no encoding. -/
theorem Spoilt.unsound {sb : SimpleBuffer} (spoilt : c.Spoilt sb.rest) : ¬ c.Sound sb := by
  obtain ⟨front, bytes⟩ := sb
  obtain ⟨b, rest, start, counted, passes⟩ := spoilt
  obtain rfl : bytes = c.marker :: b := start
  intro sound
  obtain ⟨fuel, enough, within⟩ := readFuel_enough ⟨front, c.marker :: b⟩
  unfold Sound at sound
  rw [enough] at sound
  obtain ⟨_, done, properties, _, read, fails, _⟩ :=
    passes.finds fuel (front ++ c.marker :: b.take c.countSize) []
      (within (c.countSize + 1) (Nat.succ_pos _))
  have success : done = true := by
    cases done with
    | true => rfl
    | false => cases fails.mp rfl
  subst success
  rw [← read_counted front counted] at read
  obtain ⟨taken, count, pairs, body, _, split, rfl, size, encodes, _⟩ := sound _ _ read
  have same : b = count ++ (body ++ [0, 0, Amf0Marker.objectEnd]) ++ rest := (List.cons.inj split).2
  rw [same, List.append_assoc, List.append_assoc, List.drop_left' size] at passes
  cases (encodes.clean passes).1

/-- In all other cases success comes from reading that found everything. -/
theorem sound_of_unspoilt {sb : SimpleBuffer} (unspoilt : ¬ c.Spoilt sb.rest) : c.Sound sb := by
  obtain ⟨front, bytes⟩ := sb
  obtain ⟨fuel, enough, within⟩ := readFuel_enough ⟨front, bytes⟩
  intro properties sb' read
  rw [enough] at read
  by_cases there : ∃ b, bytes = c.marker :: b ∧ c.countSize ≤ b.length
  · obtain ⟨b, rfl, counted⟩ := there
    have within : (b.drop c.countSize).length + 1 ≤ fuel := within (c.countSize + 1) (Nat.succ_pos _)
    rw [read_counted front counted] at read
    obtain ⟨fate, rest, passes⟩ : ∃ fate rest, Passes .properties (b.drop c.countSize) fate rest := by
      refine passes_of_small _ _ _ (Nat.le_refl _) fun n reaches => ?_
      by_contra large
      have trips := reaches.trips (Nat.not_lt.mp large) fuel (front ++ c.marker :: b.take c.countSize)
        [] within
      cases trips.symm.trans read
    obtain ⟨taken, done, _, split, found, fails, clean⟩ :=
      passes.finds fuel (front ++ c.marker :: b.take c.countSize) [] within
    cases found.symm.trans read
    cases fate with
    | failed => cases fails.mpr rfl
    | spoilt => exact absurd ⟨b, rest, rfl, counted, passes⟩ unspoilt
    | clean =>
        obtain ⟨pairs, body, encodes, rfl, rfl⟩ := clean rfl
        refine ⟨c.marker :: (b.take c.countSize ++ (body ++ [0, 0, Amf0Marker.objectEnd])),
          b.take c.countSize, pairs, body, ?_, ?_, rfl, List.length_take_of_le counted, encodes, rfl⟩
        · simp only [List.append_assoc, List.cons_append]
        · simp only [List.cons_append, List.append_assoc] at split ⊢
          rw [← split, List.take_append_drop]
  · push Not at there
    obtain ⟨_, _, failed⟩ : ∃ properties sb,
        c.read (fuel + 1) ⟨front, bytes⟩ = .ok (false, properties, sb) := read_fails front there
    cases failed.symm.trans read

end Container

end Amf0Data

open Amf0Data

/-- Whatever the bytes are: success of an object's or an array's reader means that there was one,
    exactly when they do not make it succeed at the end of the data or past a value that failed. -/
theorem success_well_formed_iff (c : Container) (sb : SimpleBuffer) :
    c.Sound sb ↔ ¬ c.Spoilt sb.rest :=
  ⟨fun sound spoilt => spoilt.unsound sound, Container.sound_of_unspoilt⟩

/-- The value of a property is cut off, and with it the end of the object: that is a success. -/
theorem cut_object_accepted : ¬ ∀ (c : Container) (sb : SimpleBuffer), c.Sound sb := by
  intro all
  have cut : Passes .properties [0, 1, 0x61, Amf0Marker.boolean] (Fate.failed.andThen .spoilt) [] :=
    @Passes.property 0 1 [0x61, Amf0Marker.boolean] _ _ _ _ (by decide) (by decide) (by decide)
      .booleanShort .ranOut
  have spoilt : Container.object.Spoilt [Amf0Marker.object, 0, 1, 0x61, Amf0Marker.boolean] :=
    ⟨_, _, rfl, Nat.zero_le _, cut⟩
  exact spoilt.unsound (all .object (.ofBytes _))

end DroneServer
