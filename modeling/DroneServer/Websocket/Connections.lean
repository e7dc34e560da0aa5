import DroneServer.Websocket.Client

/-! # The table of the connections and the pool after an event

What is found under a connection and in the pool after a connection opened, closed or
was looked up, in terms of what was found before.
-/

namespace DroneServer

namespace ClientPool

variable {pool : ClientPool} {ref r : ClientRef} {c c' : WebsocketClient}

theorem mem_add : r ∈ (pool.add ref c).clients ↔ r ∈ pool.clients ∨ r = ref := by
  rw [add, List.mem_append, List.mem_singleton]

theorem mem_del : r ∈ (pool.del ref c).clients ↔ r ≠ ref ∧ r ∈ pool.clients := by
  rw [del, List.mem_filter, decide_eq_true_eq]
  exact and_comm

theorem add_clientIds (id : ClientId) :
    (pool.add ref c).clientIds id = if id = c.id then some (some ref) else pool.clientIds id :=
  Function.update_apply ..

theorem del_clientIds (entry : pool.clientIds c.id = some (some ref)) (id : ClientId) :
    (pool.del ref c).clientIds id = if id = c.id then none else pool.clientIds id := by
  rw [del, entry]
  exact Function.update_apply ..

theorem del_missing (missing : pool.clientIds c.id = none) :
    (pool.del ref c).clientIds c.id = some none := by
  rw [del, missing]
  exact Function.update_self ..

theorem drones_add (inside : r ∈ (pool.add ref c).drones) : r ∈ pool.drones ∨ r = ref := by
  dsimp only [add] at inside
  split at inside
  · exact (List.mem_append.mp inside).imp_right List.mem_singleton.mp
  · exact .inl inside

theorem drones_del (inside : r ∈ (pool.del ref c).drones) : r ∈ pool.drones := by
  dsimp only [del] at inside
  split at inside
  · exact List.mem_of_mem_filter inside
  · exact inside

/-- Whether a client was a drone makes no difference to the pool where it is none of the drones. -/
theorem del_same (ids : c.id = c'.id) (drone : ref ∈ pool.drones → c = c') :
    pool.del ref c = pool.del ref c' := by
  by_cases inside : ref ∈ pool.drones
  · rw [drone inside]
  · have left : pool.drones.filter (· ≠ ref) = pool.drones :=
      List.filter_eq_self.mpr fun r there => decide_eq_true fun itself => inside (itself ▸ there)
    simp only [del, left, ite_self, ids]

end ClientPool

namespace World

variable {w : World} {conn c : ConnId} {ref r : ClientRef} {id : ClientId}

theorem update_objects (w : World) (ref : ClientRef) (client : WebsocketClient) (r : ClientRef) :
    (w.update ref client).objects r = if r = ref then client else w.objects r :=
  Function.update_apply ..

theorem client_eq_some : w.client conn = some ref ↔ (conn, some ref) ∈ w.clients.entries := by
  rw [client, Option.join_eq_some_iff, Table.get?_eq_some]

theorem onOpen_old (below : r < w.nextClient) : (w.onOpen conn id).objects r = w.objects r :=
  Function.update_of_ne (Nat.ne_of_lt below) ..

theorem onOpen_new : (w.onOpen conn id).objects w.nextClient = { id } := Function.update_self ..

theorem onOpen_entry {entry : Option ClientRef} :
    (c, entry) ∈ (w.onOpen conn id).clients.entries ↔
      (c = conn ∧ entry = some w.nextClient) ∨ (c ≠ conn ∧ (c, entry) ∈ w.clients.entries) := by
  have erased : conn ∉ w.clients.erase conn := fun inside => (Table.mem_erase.mp inside).1 rfl
  rw [onOpen, Table.insertNew_entries erased, List.mem_append, Table.erase_entry]
  simp [or_comm]

theorem onOpen_client : (w.onOpen conn id).client c = some ref ↔
    (c = conn ∧ ref = w.nextClient) ∨ (c ≠ conn ∧ w.client c = some ref) := by
  rw [client_eq_some, onOpen_entry, client_eq_some, Option.some.injEq]

theorem looked_client : (w.looked conn).client c = some ref ↔ w.client c = some ref := by
  rw [client_eq_some, client_eq_some]
  by_cases present : conn ∈ w.clients
  · rw [looked, Table.insertNew_present present]
  · rw [looked, Table.insertNew_entries present, List.mem_append, or_iff_left]
    simp

theorem looked_null (missing : w.client conn = none) :
    (conn, none) ∈ (w.looked conn).clients.entries := by
  by_cases present : conn ∈ w.clients
  · obtain ⟨entry, inside⟩ := Table.mem_iff.mp present
    cases entry with
    | none => exact Table.insertNew_keeps inside
    | some ref =>
        rw [client_eq_some.mpr inside] at missing
        cases missing
  · rw [looked, Table.insertNew_entries present]
    exact List.mem_append_right _ List.mem_cons_self

theorem onClose_found (found : w.client conn = some ref) :
    w.onClose conn =
      { w with pool := w.pool.del ref (w.objects ref), clients := w.clients.erase conn } := by
  rw [onClose, found]

theorem onClose_missing (missing : w.client conn = none) : w.onClose conn = w.looked conn := by
  rw [onClose, missing]

theorem onClose_client :
    (w.onClose conn).client c = some ref ↔ c ≠ conn ∧ w.client c = some ref := by
  cases here : w.client conn with
  | none =>
      rw [onClose_missing here, looked_client, and_iff_right_of_imp]
      rintro found rfl
      rw [here] at found
      cases found
  | some ref =>
      rw [onClose_found here, client_eq_some, client_eq_some]
      exact Table.erase_entry

theorem onClose_next (w : World) (conn : ConnId) : (w.onClose conn).nextClient = w.nextClient := by
  unfold onClose
  split <;> rfl

theorem onClose_objects (w : World) (conn : ConnId) : (w.onClose conn).objects = w.objects := by
  unfold onClose
  split <;> rfl

theorem onClose_drones (inside : r ∈ (w.onClose conn).pool.drones) : r ∈ w.pool.drones := by
  unfold onClose at inside
  split at inside
  · exact ClientPool.drones_del inside
  · exact inside

end World

end DroneServer
