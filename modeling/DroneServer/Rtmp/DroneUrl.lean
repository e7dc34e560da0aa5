import DroneServer.Json
import DroneServer.Rtmp.Isolation
import DroneServer.Rtmp.Peer
import Mathlib.Data.List.TakeWhile

/-! # The url of a drone's stream

A client streams under its app, a slash and its id in hex. The stream splits the url
again, at the first slash, although the session had the two parts apart. Formatting
and parsing agree on every id; the split is right for an app without a slash only.
-/

namespace DroneServer

theorem hexDigits_digits (b : UInt8) : ∃ high low, hexDigits b = [high, low] ∧
    hexDigit high = some (b.toNat / 16) ∧ hexDigit low = some (b.toNat % 16) := by
  have all : ∀ n < 256, (hexDigits (UInt8.ofNat n)).map hexDigit =
      [some (n / 16), some (n % 16)] := by decide +kernel
  have digits := all b.toNat b.toNat_lt
  rw [UInt8.ofNat_toNat] at digits
  refine ⟨_, _, rfl, ?_⟩
  simpa only [hexDigits, List.map_cons, List.map_nil, List.cons.injEq, and_true] using digits

theorem hexValue_hexDigits (acc : Nat) (b : UInt8) (rest : Bytes) :
    hexValue acc (hexDigits b ++ rest) = hexValue (acc * 256 + b.toNat) rest := by
  obtain ⟨high, low, printed, first, second⟩ := hexDigits_digits b
  have joined : (acc * 16 + b.toNat / 16) * 16 + b.toNat % 16 = acc * 256 + b.toNat := by omega
  simp only [printed, List.cons_append, List.nil_append, hexValue, first, second, joined]

/-- An id is read back from its eight digits. -/
theorem hexValue_cidToHex (c : ClientId) : hexValue 0 (cidToHex c) = c.toNat := by
  have small := c.toNat_lt
  have whole := Endian.be32_toNat (c >>> 24).toUInt8 (c >>> 16).toUInt8 (c >>> 8).toUInt8 c.toUInt8
  rw [Endian.be32_toBE32] at whole
  have last (acc : Nat) (b : UInt8) : hexValue acc (hexDigits b) = acc * 256 + b.toNat := by
    have := hexValue_hexDigits acc b []
    rwa [List.append_nil] at this
  simp only [cidToHex, Endian.toBE32, List.flatMap_cons, List.flatMap_nil, List.append_nil,
    hexValue_hexDigits, last]
  omega

theorem cidFromHex_cidToHex (c : ClientId) : cidFromHex (cidToHex c) = .ok c := by
  have small : c.toNat < 2 ^ 64 := c.toNat_lt.trans (by decide)
  simp only [cidFromHex, hexValue_cidToHex, if_pos small, UInt32.ofNat_toNat]

theorem hexValue_slash (acc : Nat) (digits rest : Bytes) :
    hexValue acc (digits ++ 0x2f :: rest) = hexValue acc digits := by
  induction digits generalizing acc with
  | nil => rfl
  | cons c digits ih =>
      simp only [List.cons_append, hexValue]
      cases hexDigit c with
      | none => rfl
      | some digit => exact ih (acc * 16 + digit)

namespace RtmpStream

variable {before : Bytes}

theorem appOf_slash (first : 0x2f ∉ before) (rest : Bytes) :
    appOf (before ++ 0x2f :: rest) = before := by
  have passes : ∀ c ∈ before, decide (c ≠ 0x2f) = true := fun c inside => by
    simpa only [decide_eq_true_eq] using ne_of_mem_of_not_mem inside first
  rw [appOf, List.takeWhile_append_of_pos passes, List.takeWhile_cons_of_neg (by decide),
    List.append_nil]

theorem nameOf_slash (first : 0x2f ∉ before) (rest : Bytes) :
    nameOf (before ++ 0x2f :: rest) = rest := by
  have passes : ∀ c ∈ before, decide (c ≠ 0x2f) = true := fun c inside => by
    simpa only [decide_eq_true_eq] using ne_of_mem_of_not_mem inside first
  rw [nameOf, if_pos (List.mem_append_right _ List.mem_cons_self),
    List.dropWhile_append_of_pos passes, List.dropWhile_cons_of_neg (by decide), List.drop_one,
    List.tail_cons]

theorem not_mem_appOf (url : Bytes) : 0x2f ∉ appOf url := fun inside => by
  simpa only [ne_eq, not_true_eq_false, decide_false, Bool.false_eq_true] using
    List.mem_takeWhile_imp inside

/-- The url that `publish` and `play` make for the client `c` under the app `a`. -/
def urlFor (a : Bytes) (c : ClientId) : Bytes := Server.urlOf a (cidToHex c)

/-- The stream carries the id, and every packet made for it carries the app and the id. -/
def Carries (st : RtmpStream) (a : Bytes) (c : ClientId) : Prop :=
  st.cid = c ∧ ∀ ptr cs pkt, st.chunkStreamToMediaPkt ptr cs = .ok pkt → pkt.app = a ∧ pkt.cid = c

variable {st : RtmpStream} {a : Bytes} {c : ClientId}

theorem urlFor_plain (plain : 0x2f ∉ a) (c : ClientId) :
    appOf (urlFor a c) = a ∧ nameOf (urlFor a c) = cidToHex c :=
  ⟨appOf_slash plain _, nameOf_slash plain _⟩

/-- With a slash in the app, what is parsed as the id begins inside the app, and ends there. -/
theorem hexValue_urlFor (slash : 0x2f ∈ a) (c : ClientId) :
    hexValue 0 (nameOf (urlFor a c)) = hexValue 0 (nameOf a) := by
  obtain ⟨before, rest, rfl, first⟩ := List.eq_append_cons_of_mem slash
  rw [urlFor, Server.urlOf, List.append_assoc, List.cons_append, nameOf_slash first,
    nameOf_slash first, hexValue_slash]

theorem Fed.carries (fed : st.Fed) (url : st.url = urlFor a c)
    (short : 0x2f ∈ a → 2 ^ 64 ≤ hexValue 0 (nameOf a)) : st.Carries a c := by
  have drone := fed.drone
  by_cases slash : 0x2f ∈ a
  · have large := Nat.not_lt.mpr (short slash)
    rw [url, cidFromHex, hexValue_urlFor slash, if_neg large] at drone
    cases drone
  · obtain ⟨app, name⟩ := urlFor_plain slash c
    rw [url, name, cidFromHex_cidToHex] at drone
    cases drone
    refine ⟨rfl, fun ptr cs pkt made => ?_⟩
    obtain ⟨named, split, _⟩ := chunkStreamToMediaPkt_ok made
    rw [url, name, cidFromHex_cidToHex] at named
    rw [url, app] at split
    exact ⟨split, (Except.ok.inj named).symm⟩

/-- No stream carries an app with a slash in it. -/
theorem not_carries (slash : 0x2f ∈ a) (url : st.url = urlFor a c)
    (small : hexValue 0 (nameOf a) < 2 ^ 64) : ¬ st.Carries a c := by
  rintro ⟨_, packets⟩
  -- any packet shows it, such as the one made of a chunk stream that nothing was read on
  obtain ⟨pkt, made⟩ : ∃ pkt, st.chunkStreamToMediaPkt 0 { csid := 2 } = .ok pkt := by
    simp only [chunkStreamToMediaPkt, url, cidFromHex, hexValue_urlFor slash, if_pos small]
    exact ⟨_, rfl⟩
  have app := (packets 0 _ pkt made).1
  rw [(chunkStreamToMediaPkt_ok made).2.1] at app
  exact not_mem_appOf _ (app ▸ slash)

/-- So whether all that is made under that url carries them depends on the app alone. -/
theorem create_carries_iff : (∀ ref st, create ref (urlFor a c) = .ok st → st.Carries a c) ↔
    (0x2f ∈ a → 2 ^ 64 ≤ hexValue 0 (nameOf a)) := by
  constructor
  · intro all slash
    by_contra small
    rw [Nat.not_le] at small
    obtain ⟨st, made, url⟩ : ∃ st, create 0 (urlFor a c) = .ok st ∧ st.url = urlFor a c := by
      simp only [create, cidFromHex, hexValue_urlFor slash, if_pos small]
      exact ⟨_, rfl, rfl⟩
    exact not_carries slash url small (all 0 st made)
  · intro short ref st made
    have fed := create_fed made
    obtain ⟨_, _, rest⟩ := bind_ok.mp made
    exact fed.carries (by cases rest; rfl) short

end RtmpStream

open RtmpStream (urlFor nameOf)

/-- The streams of the client `c` under the app `a`: as they are made, and in every state of every
    run. -/
def StreamsCarry (a : Bytes) (c : ClientId) : Prop :=
  (∀ ref st, RtmpStream.create ref (urlFor a c) = .ok st → st.Carries a c) ∧
    ∀ recordForce labels st,
      ((machine recordForce).run labels).server.streams (urlFor a c) = some st → st.Carries a c

/-- The streams of a client carry its app and its id exactly when there is no slash in the app, or
    when the digits after the first one are past 64 bits, so that there never is a stream. -/
theorem streams_carry_iff (a : Bytes) (c : ClientId) :
    StreamsCarry a c ↔ (0x2f ∈ a → 2 ^ 64 ≤ hexValue 0 (nameOf a)) := by
  constructor
  · exact fun all => RtmpStream.create_carries_iff.mp all.1
  · intro short
    refine ⟨RtmpStream.create_carries_iff.mpr short, fun recordForce labels st found => ?_⟩
    have reached := Machine.Reachable.run (machine recordForce) labels
    exact (Server.Fed.reachable reached _ st found).carries
      ((Registry.reachable reached).sound found).named short

/-- A drone publishes under an app with a slash, as an app with an instance name is. -/
def publishInstance : List Label :=
  Peer.enter 1 "live" ++ Peer.deliver 1 (Peer.publish "00000007" "live/x")

set_option maxRecDepth 4000 in
/-- Its stream belongs to the drone with the id that the instance name starts with, here none. -/
theorem streams_not_carry : ¬ ∀ a c, StreamsCarry a c := by
  intro all
  obtain ⟨st, found, drone⟩ := Option.map_eq_some_iff.mp (by decide +kernel :
    (((machine false).run publishInstance).server.streams (urlFor (ascii "live/x") 7)).map (·.cid) =
      some 0)
  have carried := ((all (ascii "live/x") 7).2 false publishInstance st found).1
  rw [drone] at carried
  cases carried

end DroneServer
