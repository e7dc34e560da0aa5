import Mathlib.Data.List.Nodup

/-! # Tables with unique keys

A finite map that can be walked: a list of entries in which no key occurs twice.
It stands for `std::unordered_map` where the program iterates over one, with the
operations such a program uses. Uniqueness is a field, so no operation has to
re-establish it for its callers.
-/

universe u v w

structure Table (κ : Type u) (ν : Type v) where
  entries : List (κ × ν) := []
  nodup : (entries.map Prod.fst).Nodup := by simp

namespace Table

variable {κ : Type u} {ν : Type v} {α : Type w}

instance : Membership κ (Table κ ν) := ⟨fun t k => k ∈ t.entries.map Prod.fst⟩

theorem mem_iff {t : Table κ ν} {k : κ} : k ∈ t ↔ ∃ v, (k, v) ∈ t.entries := by
  change k ∈ t.entries.map Prod.fst ↔ _
  simp

theorem mem_of_entry {t : Table κ ν} {k : κ} {v : ν} (entry : (k, v) ∈ t.entries) : k ∈ t :=
  mem_iff.mpr ⟨v, entry⟩

def empty : Table κ ν := {}

/-- Number of entries. -/
def count (t : Table κ ν) : Nat := t.entries.length

/-- Rewrite every value, keeping the keys and their order. -/
def mapValues (t : Table κ ν) (f : κ → ν → ν) : Table κ ν where
  entries := t.entries.map fun e => (e.1, f e.1 e.2)
  nodup := by simpa [Function.comp_def] using t.nodup

variable [DecidableEq κ]

instance (t : Table κ ν) (k : κ) : Decidable (k ∈ t) :=
  inferInstanceAs (Decidable (k ∈ t.entries.map Prod.fst))

/-- Add an entry unless the key is present: `insert` of a map, which never overwrites. -/
def insertNew (t : Table κ ν) (k : κ) (v : ν) : Table κ ν :=
  if fresh : k ∈ t then t
  else
    { entries := t.entries ++ [(k, v)]
      nodup := by
        have absent : k ∉ t.entries.map Prod.fst := fresh
        rw [List.map_append, List.nodup_append]
        refine ⟨t.nodup, by simp, fun a inside b last same => ?_⟩
        rw [same, List.mem_singleton.mp last] at inside
        exact absent inside }

/-- The value of a key, if it has one. -/
def get? (t : Table κ ν) (k : κ) : Option ν := (t.entries.find? fun e => e.1 = k).map Prod.snd

/-- Remove the entry of a key, if any. -/
def erase (t : Table κ ν) (k : κ) : Table κ ν where
  entries := t.entries.filter fun e => e.1 ≠ k
  nodup := t.nodup.sublist (List.filter_sublist.map Prod.fst)

omit [DecidableEq κ] in
@[simp] theorem not_mem_empty (k : κ) : k ∉ (empty : Table κ ν) := by
  simp [mem_iff, empty]

theorem insertNew_present {t : Table κ ν} {k : κ} (present : k ∈ t) (v : ν) :
    t.insertNew k v = t := by
  simp only [insertNew, present, dite_true]

theorem insertNew_entries {t : Table κ ν} {k : κ} (fresh : k ∉ t) (v : ν) :
    (t.insertNew k v).entries = t.entries ++ [(k, v)] := by
  simp only [insertNew, fresh, dite_false]

@[simp] theorem mem_insertNew {t : Table κ ν} {k k' : κ} {v : ν} :
    k' ∈ t.insertNew k v ↔ k' = k ∨ k' ∈ t := by
  by_cases present : k ∈ t
  · rw [insertNew_present present]
    exact ⟨.inr, fun h => h.elim (· ▸ present) id⟩
  · simp only [mem_iff, insertNew_entries present, List.mem_append, List.mem_singleton,
      Prod.mk.injEq]
    constructor
    · rintro ⟨w, inside | ⟨rfl, rfl⟩⟩
      · exact .inr ⟨w, inside⟩
      · exact .inl rfl
    · rintro (rfl | ⟨w, inside⟩)
      · exact ⟨v, .inr ⟨rfl, rfl⟩⟩
      · exact ⟨w, .inl inside⟩

@[simp] theorem mem_erase {t : Table κ ν} {k k' : κ} : k' ∈ t.erase k ↔ k' ≠ k ∧ k' ∈ t := by
  simp only [mem_iff, erase, List.mem_filter, decide_eq_true_eq]
  exact ⟨fun ⟨v, inside, other⟩ => ⟨other, v, inside⟩, fun ⟨other, v, inside⟩ => ⟨v, inside, other⟩⟩

omit [DecidableEq κ] in
@[simp] theorem mem_mapValues {t : Table κ ν} {f : κ → ν → ν} {k : κ} :
    k ∈ t.mapValues f ↔ k ∈ t := by
  simp [mem_iff, mapValues]

omit [DecidableEq κ] in
theorem count_eq_zero {t : Table κ ν} : t.count = 0 ↔ ∀ k, k ∉ t := by
  constructor
  · intro none k inside
    obtain ⟨v, entry⟩ := mem_iff.mp inside
    rw [List.length_eq_zero_iff.mp none] at entry
    exact List.not_mem_nil entry
  · intro absent
    refine List.length_eq_zero_iff.mpr (List.eq_nil_iff_forall_not_mem.mpr fun e inside => ?_)
    exact absent e.1 (mem_of_entry (v := e.2) inside)

theorem erase_entry {t : Table κ ν} {k k' : κ} {v : ν} :
    (k', v) ∈ (t.erase k).entries ↔ k' ≠ k ∧ (k', v) ∈ t.entries := by
  simp only [erase, List.mem_filter, decide_eq_true_eq]
  exact and_comm

theorem get?_eq_some {t : Table κ ν} {k : κ} {v : ν} : t.get? k = some v ↔ (k, v) ∈ t.entries := by
  obtain ⟨entries, nodup⟩ := t
  unfold get?
  dsimp only
  induction entries with
  | nil => simp
  | cons e rest ih =>
      rw [List.map_cons, List.nodup_cons] at nodup
      by_cases here : e.1 = k
      · rw [List.find?_cons_of_pos (by simpa using here), List.mem_cons, Option.map_some,
          Option.some.injEq]
        constructor
        · intro same
          exact .inl (Prod.ext here same).symm
        · rintro (rfl | inside)
          · rfl
          · exact absurd (List.mem_map.mpr ⟨_, inside, here.symm⟩) nodup.1
      · rw [List.find?_cons_of_neg (by simpa using here), ih nodup.2, List.mem_cons]
        refine ⟨.inr, fun inside => inside.resolve_left ?_⟩
        rintro rfl
        exact here rfl

/-- What is addressed to a key. -/
def addressed (k : κ) (posts : List (κ × α)) : List α :=
  posts.filterMap fun post => if post.1 = k then some post.2 else none

theorem addressed_append (k : κ) (posts more : List (κ × α)) :
    addressed k (posts ++ more) = addressed k posts ++ addressed k more :=
  List.filterMap_append

private theorem addressed_map (k key : κ) (as : List α) :
    addressed k (as.map fun a => (key, a)) = if key = k then as else [] := by
  unfold addressed
  by_cases same : key = k <;> simp [List.filterMap_map, same]

private theorem addressed_entries {k : κ} {f : κ → ν → List α} (entries : List (κ × ν))
    (nodup : (entries.map Prod.fst).Nodup) :
    (∀ {v}, (k, v) ∈ entries →
      addressed k (entries.flatMap fun e => (f e.1 e.2).map fun a => (e.1, a)) = f k v) ∧
    (k ∉ entries.map Prod.fst →
      addressed k (entries.flatMap fun e => (f e.1 e.2).map fun a => (e.1, a)) = []) := by
  induction entries with
  | nil => exact ⟨fun inside => absurd inside List.not_mem_nil, fun _ => rfl⟩
  | cons e entries ih =>
      rw [List.map_cons, List.nodup_cons] at nodup
      obtain ⟨present, absent⟩ := ih nodup.2
      simp only [List.flatMap_cons, addressed_append, addressed_map]
      constructor
      · intro v inside
        rcases List.mem_cons.mp inside with rfl | inside
        · rw [if_pos rfl, absent nodup.1, List.append_nil]
        · have other : e.1 ≠ k := by
            rintro rfl
            exact nodup.1 (List.mem_map.mpr ⟨_, inside, rfl⟩)
          rw [if_neg other, present inside, List.nil_append]
      · intro outside
        rw [List.map_cons, List.mem_cons, not_or] at outside
        rw [if_neg (Ne.symm outside.1), absent outside.2, List.append_nil]

/-- When every entry posts to its own key, a key gets what its entry posts. -/
theorem addressed_posts (t : Table κ ν) {k : κ} {v : ν} (entry : (k, v) ∈ t.entries)
    (f : κ → ν → List α) :
    addressed k (t.entries.flatMap fun e => (f e.1 e.2).map fun a => (e.1, a)) = f k v :=
  (addressed_entries t.entries t.nodup).1 entry

theorem addressed_absent (t : Table κ ν) {k : κ} (absent : k ∉ t) (f : κ → ν → List α) :
    addressed k (t.entries.flatMap fun e => (f e.1 e.2).map fun a => (e.1, a)) = [] :=
  (addressed_entries t.entries t.nodup).2 absent

theorem insertNew_keeps {t : Table κ ν} {k k' : κ} {v v' : ν} (entry : (k, v) ∈ t.entries) :
    (k, v) ∈ (t.insertNew k' v').entries := by
  by_cases present : k' ∈ t
  · rwa [insertNew_present present]
  · rw [insertNew_entries present]
    exact List.mem_append_left _ entry

theorem erase_keeps {t : Table κ ν} {k k' : κ} {v : ν} (entry : (k, v) ∈ t.entries)
    (other : k ≠ k') : (k, v) ∈ (t.erase k').entries :=
  List.mem_filter.mpr ⟨entry, decide_eq_true other⟩

omit [DecidableEq κ] in
theorem mapValues_entry {t : Table κ ν} {k : κ} {v : ν} (entry : (k, v) ∈ t.entries)
    (f : κ → ν → ν) : (k, f k v) ∈ (t.mapValues f).entries :=
  List.mem_map.mpr ⟨(k, v), entry, rfl⟩

end Table
