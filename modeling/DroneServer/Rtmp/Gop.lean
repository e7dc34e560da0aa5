import DroneServer.Lib.Suffix
import DroneServer.Rtmp.Stream

/-! # What a late joiner is sent

The group-of-pictures cache after any sequence of insertions: the last of each of
the three headers, and the other packets from a key frame on. Which key frame
follows from how many there were, because every `min_gop`-th of them empties the
list before it enters it.
-/

namespace DroneServer

namespace MediaPacket

/-- The packets `insert` keeps apart. -/
def isMetadata (pkt : MediaPacket) : Bool := pkt.type = .metadata

def isVideoHeader (pkt : MediaPacket) : Bool := pkt.type = .video ∧ pkt.seqHeader

def isAudioHeader (pkt : MediaPacket) : Bool := pkt.type = .audio ∧ pkt.seqHeader

def isHeader (pkt : MediaPacket) : Bool :=
  pkt.isMetadata || pkt.isVideoHeader || pkt.isAudioHeader

/-- A video key frame, which may open a group of pictures. -/
def isKey (pkt : MediaPacket) : Bool := pkt.type = .video ∧ pkt.keyFrame ∧ ¬ pkt.seqHeader

theorem isKey_plain {pkt : MediaPacket} (key : pkt.isKey = true) : pkt.isHeader = false := by
  simp only [isKey, decide_eq_true_eq] at key
  simp [isHeader, isMetadata, isVideoHeader, isAudioHeader, key]

/-- The last packet of a kind, if any. -/
def lastOf (kind : MediaPacket → Bool) (pkts : List MediaPacket) : Option MediaPacket :=
  (pkts.filter kind).getLast?

theorem lastOf_snoc (kind : MediaPacket → Bool) (pkts : List MediaPacket) (pkt : MediaPacket) :
    lastOf kind (pkts ++ [pkt]) = if kind pkt then some pkt else lastOf kind pkts := by
  by_cases hit : kind pkt <;> simp [lastOf, hit]

end MediaPacket

namespace GopCache

open MediaPacket

/-- The cache after these insertions. -/
def inserted (n : UInt32) (pkts : List MediaPacket) : GopCache := pkts.foldl insert { minGop := n }

/-- The packets a cache should hold: all but the headers, from the last key frame on whose number is
    a multiple of `n`. -/
def group (n : Nat) (pkts : List MediaPacket) : List MediaPacket :=
  (pkts.fromNth isKey (n * (pkts.countP isKey / n))).filter fun pkt => !pkt.isHeader

theorem group_snoc (n : Nat) (pkts : List MediaPacket) {pkt : MediaPacket}
    (other : pkt.isKey = false) :
    group n (pkts ++ [pkt]) = if pkt.isHeader then group n pkts else group n pkts ++ [pkt] := by
  have count : (pkts ++ [pkt]).countP isKey = pkts.countP isKey := by simp [other]
  have start : n * (pkts.countP isKey / n) ≤ pkts.countP isKey := Nat.mul_div_le _ _
  simp only [group, count]
  rw [List.fromNth_append [pkt] start, List.filter_append]
  by_cases header : pkt.isHeader <;> simp [header]

theorem group_key (n : Nat) (pkts : List MediaPacket) {pkt : MediaPacket} (key : pkt.isKey = true) :
    group n (pkts ++ [pkt]) =
      (if (pkts.countP isKey + 1) % n = 0 then [] else group n pkts) ++ [pkt] := by
  have count : (pkts ++ [pkt]).countP isKey = pkts.countP isKey + 1 := by simp [key]
  simp only [group, count]
  split
  · next opens =>
    have number : n * ((pkts.countP isKey + 1) / n) = pkts.countP isKey + 1 :=
      Nat.mul_div_cancel' (Nat.dvd_of_mod_eq_zero opens)
    rw [number, List.fromNth_snoc key]
    simp [isKey_plain key]
  · next joins =>
    have number : (pkts.countP isKey + 1) / n = pkts.countP isKey / n := by
      rw [Nat.succ_div, if_neg fun divides => joins (Nat.mod_eq_zero_of_dvd divides), Nat.add_zero]
    rw [number, List.fromNth_append [pkt] (Nat.mul_div_le _ _), List.filter_append]
    simp [isKey_plain key]

/-- The cache is what these insertions should have made of it. -/
structure Caches (n : UInt32) (pkts : List MediaPacket) (gop : GopCache) : Prop where
  minGop : gop.minGop = n
  gopCount : gop.gopCount = UInt32.ofNat (pkts.countP isKey)
  metadata : gop.metadataHeader = lastOf isMetadata pkts
  video : gop.videoHeader = lastOf isVideoHeader pkts
  audio : gop.audioHeader = lastOf isAudioHeader pkts
  pkts : gop.pkts = group n.toNat pkts

/-- The counter of key frames, which wraps, tells the multiples as long as it has not, and those of one
    in any case. -/
theorem counted {n : UInt32} {k : Nat} (few : k + 1 < 2 ^ 32 ∨ n = 1) :
    (UInt32.ofNat k + 1) % n = 0 ↔ (k + 1) % n.toNat = 0 := by
  obtain few | rfl := few
  case inr =>
    refine iff_of_true (UInt32.toNat_inj.mp ?_) (Nat.mod_one _)
    rw [UInt32.toNat_mod]
    exact Nat.mod_one _
  have small : k < 2 ^ 32 := Nat.lt_of_succ_lt few
  have size : (UInt32.ofNat k + 1).toNat = k + 1 := by
    rw [UInt32.toNat_add, UInt32.toNat_ofNat_of_lt' small]
    exact Nat.mod_eq_of_lt few
  rw [← UInt32.toNat_inj, UInt32.toNat_mod, size]
  rfl

section Insert

variable (gop : GopCache) (pkt : MediaPacket)

theorem insert_minGop : (gop.insert pkt).minGop = gop.minGop := by
  cases type : pkt.type <;> grind [insert, push]

theorem insert_gopCount :
    (gop.insert pkt).gopCount = if pkt.isKey then gop.gopCount + 1 else gop.gopCount := by
  cases type : pkt.type <;> grind [insert, push, isKey]

theorem insert_metadata : (gop.insert pkt).metadataHeader =
    if pkt.isMetadata then some pkt else gop.metadataHeader := by
  cases type : pkt.type <;> grind [insert, push, isMetadata]

theorem insert_video : (gop.insert pkt).videoHeader =
    if pkt.isVideoHeader then some pkt else gop.videoHeader := by
  cases type : pkt.type <;> grind [insert, push, isVideoHeader]

theorem insert_audio : (gop.insert pkt).audioHeader =
    if pkt.isAudioHeader then some pkt else gop.audioHeader := by
  cases type : pkt.type <;> grind [insert, push, isAudioHeader]

theorem insert_pkts : (gop.insert pkt).pkts =
    if pkt.isHeader then gop.pkts
    else if pkt.isKey ∧ (gop.gopCount + 1) % gop.minGop = 0 then [pkt]
    else gop.pkts ++ [pkt] := by
  cases type : pkt.type <;>
    grind [insert, push, isHeader, isMetadata, isVideoHeader, isAudioHeader, isKey]

end Insert

theorem Caches.insert {n : UInt32} {pkts : List MediaPacket} {gop : GopCache}
    (caches : Caches n pkts gop) (pkt : MediaPacket)
    (few : (pkts ++ [pkt]).countP isKey < 2 ^ 32 ∨ n = 1) :
    Caches n (pkts ++ [pkt]) (gop.insert pkt) where
  minGop := by rw [insert_minGop, caches.minGop]
  gopCount := by
    rw [insert_gopCount, caches.gopCount, List.countP_append, List.countP_singleton]
    split
    · exact (UInt32.ofNat_add _ _).symm
    · rfl
  metadata := by rw [insert_metadata, caches.metadata, lastOf_snoc]
  video := by rw [insert_video, caches.video, lastOf_snoc]
  audio := by rw [insert_audio, caches.audio, lastOf_snoc]
  pkts := by
    rw [insert_pkts, caches.pkts, caches.gopCount, caches.minGop]
    by_cases key : pkt.isKey
    · rw [List.countP_append, List.countP_singleton, if_pos key] at few
      rw [group_key n.toNat pkts key]
      simp only [isKey_plain key, key, true_and, counted few, Bool.false_eq_true, if_false]
      split <;> rfl
    · have other : pkt.isKey = false := Bool.eq_false_iff.mpr key
      rw [group_snoc n.toNat pkts other]
      simp [other]

theorem inserted_snoc (n : UInt32) (pkts : List MediaPacket) (pkt : MediaPacket) :
    inserted n (pkts ++ [pkt]) = (inserted n pkts).insert pkt := by
  rw [inserted, List.foldl_append]
  rfl

theorem caches_inserted (n : UInt32) (pkts : List MediaPacket)
    (few : pkts.countP isKey < 2 ^ 32 ∨ n = 1) : Caches n pkts (inserted n pkts) := by
  induction pkts using List.reverseRecOn with
  | nil => exact ⟨rfl, rfl, rfl, rfl, rfl, by simp [group, inserted, List.fromNth]⟩
  | append_singleton pkts pkt ih =>
      have fewer : pkts.countP isKey < 2 ^ 32 ∨ n = 1 := by
        rw [List.countP_append] at few
        exact few.imp_left fun few => by omega
      rw [inserted_snoc]
      exact (ih fewer).insert pkt few

end GopCache

open MediaPacket in
/-- After any insertions, the cache sends the last header of each sort and then the other packets
    from the last key frame on whose number is a multiple of `n`. With `n` one that is the last key
    frame there was. -/
theorem late_joiner_sent {n : UInt32} (_positive : 1 ≤ n) {pkts : List MediaPacket}
    (few : pkts.countP isKey < 2 ^ 32) :
    (GopCache.inserted n pkts).write =
        (lastOf isMetadata pkts).toList ++ (lastOf isVideoHeader pkts).toList ++
          (lastOf isAudioHeader pkts).toList ++
          (pkts.fromNth isKey (n.toNat * (pkts.countP isKey / n.toNat))).filter (!·.isHeader) ∧
      (n = 1 → 0 < pkts.countP isKey → ∃ before key after, pkts = before ++ key :: after ∧
        key.isKey ∧ (∀ pkt ∈ after, ¬ pkt.isKey) ∧
        (GopCache.inserted n pkts).pkts = key :: after.filter (!·.isHeader)) := by
  have caches := GopCache.caches_inserted n pkts (.inl few)
  refine ⟨?_, ?_⟩
  · rw [GopCache.write, caches.metadata, caches.video, caches.audio, caches.pkts, GopCache.group]
  · rintro rfl some
    obtain ⟨before, key, after, split, hit, count, latest⟩ :=
      List.fromNth_split some (Nat.le_refl _)
    have none : after.countP isKey = 0 := by
      rw [split, List.countP_append, List.countP_cons_of_pos hit] at count
      omega
    refine ⟨before, key, after, split, hit, List.countP_eq_zero.mp none, ?_⟩
    rw [caches.pkts, GopCache.group]
    simp [latest, isKey_plain hit]

/-- A video packet with this number. -/
def MediaPacket.frame (ptr : Nat) (keyFrame : Bool) : MediaPacket :=
  { ptr, streamId := 1, rtmpType := 9, url := [], app := [], cid := 0, type := .video, keyFrame }

open MediaPacket in
theorem late_joiner_sent_second :
    (GopCache.inserted 2 [frame 0 true, frame 1 false, frame 2 true, frame 3 false, frame 4 true]).write =
      [frame 2 true, frame 3 false, frame 4 true] :=
  (late_joiner_sent (n := 2) (by decide) (by decide)).1.trans (by decide)

end DroneServer
