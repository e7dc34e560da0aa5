import DroneServer.Lib.Machine

/-! # Topics with a retained message

A topic passes what is posted to its members, and keeps one message for those who
join later. What a member hears from its join on is then the message retained by
that time and everything posted since, in order.
-/

universe u v

structure Topic (κ : Type u) (μ : Type v) where
  members : List κ := []
  retained : Option μ := none

namespace Topic

variable {κ : Type u} {μ : Type v}

/-- What can be done to a topic. -/
inductive Act (κ : Type u) (μ : Type v) where
  | join (k : κ)
  | leave (k : κ)
  | post (m : μ)
  /-- Post the message and keep it. -/
  | retain (m : μ)
  /-- The topic goes; what is done next is done to a new one. -/
  | dissolve

/-- What an act posts. -/
def Act.posted : Act κ μ → Option μ
  | .post m | .retain m => some m
  | .join _ | .leave _ | .dissolve => none

/-- What a list of acts posts, in order. -/
def posted (acts : List (Act κ μ)) : List μ := acts.filterMap Act.posted

variable [DecidableEq κ]

def step (t : Topic κ μ) : Act κ μ → Topic κ μ
  | .join k => if k ∈ t.members then t else { t with members := t.members ++ [k] }
  | .leave k => { t with members := t.members.filter (· ≠ k) }
  | .post _ => t
  | .retain m => { t with retained := some m }
  | .dissolve => {}

/-- What the act passes to one party. -/
def hears (t : Topic κ μ) (k : κ) : Act κ μ → List μ
  | .join k' => if k' = k then t.retained.toList else []
  | .post m | .retain m => if k ∈ t.members then [m] else []
  | .leave _ | .dissolve => []

/-- The topic after the acts. -/
def exec (t : Topic κ μ) (acts : List (Act κ μ)) : Topic κ μ := acts.foldl step t

/-- What the acts pass to one party. -/
def heard (t : Topic κ μ) (k : κ) : List (Act κ μ) → List μ
  | [] => []
  | a :: acts => t.hears k a ++ (t.step a).heard k acts

@[simp] theorem exec_nil (t : Topic κ μ) : t.exec [] = t := rfl

@[simp] theorem exec_cons (t : Topic κ μ) (a : Act κ μ) (acts : List (Act κ μ)) :
    t.exec (a :: acts) = (t.step a).exec acts := rfl

@[simp] theorem exec_append (t : Topic κ μ) (acts more : List (Act κ μ)) :
    t.exec (acts ++ more) = (t.exec acts).exec more := List.foldl_append

theorem heard_append (t : Topic κ μ) (k : κ) (acts more : List (Act κ μ)) :
    t.heard k (acts ++ more) = t.heard k acts ++ (t.exec acts).heard k more := by
  induction acts generalizing t with
  | nil => rfl
  | cons a acts ih => rw [List.cons_append, heard, heard, ih, List.append_assoc, exec_cons]

/-- The acts neither remove the party nor let it join again. -/
def Steady (k : κ) (acts : List (Act κ μ)) : Prop :=
  ∀ a ∈ acts, a ≠ .join k ∧ a ≠ .leave k ∧ a ≠ .dissolve

variable {t : Topic κ μ} {k : κ}

theorem step_member {a : Act κ μ} (inside : k ∈ t.members) (leaves : a ≠ .leave k)
    (dissolves : a ≠ .dissolve) : k ∈ (t.step a).members := by
  cases a with
  | join k' =>
      simp only [step]
      split
      · exact inside
      · exact List.mem_append_left _ inside
  | leave k' =>
      refine List.mem_filter.mpr ⟨inside, decide_eq_true ?_⟩
      rintro rfl
      exact leaves rfl
  | post | retain => exact inside
  | dissolve => exact absurd rfl dissolves

theorem step_outside {a : Act κ μ} (outside : k ∉ t.members) (joins : a ≠ .join k) :
    k ∉ (t.step a).members := by
  cases a with
  | join k' =>
      simp only [step]
      split
      · exact outside
      · rw [List.mem_append, not_or, List.mem_singleton]
        refine ⟨outside, ?_⟩
        rintro rfl
        exact joins rfl
  | leave k' => exact fun inside => outside (List.mem_of_mem_filter inside)
  | post | retain => exact outside
  | dissolve => exact List.not_mem_nil

theorem member_joined (t : Topic κ μ) (k : κ) : k ∈ (t.step (.join k)).members := by
  simp only [step]
  split
  · assumption
  · exact List.mem_append_right _ (List.mem_singleton_self k)

theorem heard_member (inside : k ∈ t.members) {acts : List (Act κ μ)} (steady : Steady k acts) :
    t.heard k acts = posted acts := by
  induction acts generalizing t with
  | nil => rfl
  | cons a acts ih =>
      obtain ⟨joins, leaves, dissolves⟩ := steady a List.mem_cons_self
      have later := ih (step_member inside leaves dissolves)
        fun a' among => steady a' (List.mem_cons_of_mem a among)
      rw [heard, later]
      cases a with
      | join k' =>
          have other : k' ≠ k := by
            rintro rfl
            exact joins rfl
          rw [hears, if_neg other]
          rfl
      | leave | dissolve => rfl
      | post | retain =>
          rw [hears, if_pos inside]
          rfl

theorem heard_outside (outside : k ∉ t.members) {acts : List (Act κ μ)}
    (stays : ∀ a ∈ acts, a ≠ .join k) : t.heard k acts = [] := by
  induction acts generalizing t with
  | nil => rfl
  | cons a acts ih =>
      have joins := stays a List.mem_cons_self
      have later := ih (step_outside outside joins)
        fun a' among => stays a' (List.mem_cons_of_mem a among)
      rw [heard, later, List.append_nil]
      cases a with
      | join k' =>
          have other : k' ≠ k := by
            rintro rfl
            exact joins rfl
          rw [hears, if_neg other]
      | leave | dissolve => rfl
      | post | retain => rw [hears, if_neg outside]

/-- From its join on a party that stays hears the retained message and everything posted since. -/
theorem heard_joined (t : Topic κ μ) {before during : List (Act κ μ)} (steady : Steady k during) :
    t.heard k (before ++ .join k :: during) =
      t.heard k before ++ (t.exec before).retained.toList ++ posted during := by
  rw [heard_append, heard, heard_member (member_joined _ k) steady, hears, if_pos rfl,
    List.append_assoc]

end Topic
