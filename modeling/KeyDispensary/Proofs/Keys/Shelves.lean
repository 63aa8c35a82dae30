import KeyDispensary.Proofs.Keys.Records
import KeyDispensary.Proofs.Keys.Shelf
import KeyDispensary.Proofs.Store.Frames

/-!
The pools of a table as maps from ids to keys. Each operation on a pool changes the map of its device and
answers from it. Main statements: `Pool.Keeps.store` and `Pool.Keeps.take`.
-/

namespace KeyDispensary

variable {α κ : Type}

/-- Gives one device another value. -/
def amend (values : Identity → Device → α) (identity : Identity) (device : Device) (value : α) :
    Identity → Device → α :=
  fun other place => if other = identity ∧ place = device then value else values other place

/-- Gives all devices of an identity another value. -/
def amendAll (values : Identity → Device → α) (identity : Identity) (value : α) :
    Identity → Device → α :=
  fun other place => if other = identity then value else values other place

variable [Record κ]

/-- Whether rows keep the keys of maps in the pools of a table. -/
def Pool.Keeps (pool : Pool κ) (rows : Rows) (shelves : Identity → Device → Shelf κ) : Prop :=
  ∀ identity device,
    pool.contents identity device rows = (shelves identity device).rows pool identity device

namespace Shelf

variable {pool : Pool κ} {identity : Identity} {device : Device}

/-- The rows of a map have ascending keys. -/
theorem rows_ascending (shelf : Shelf κ) :
    (shelf.rows pool identity device).Pairwise fun a b => a.key < b.key := by
  -- They are in one partition of one table, in the order of their ids.
  refine List.pairwise_map.2 (shelf.ascending.imp fun less => ?_)
  exact .inr ⟨rfl, .inr ⟨rfl, Pool.sort_of_item_lt_iff.2 less⟩⟩

/-- Storing keys leaves a pool with the map of these keys. -/
theorem contents_uploaded (pool : Pool κ) (identity : Identity) (device : Device) (keys : List κ)
    (rows : Rows) : pool.contents identity device (pool.uploaded identity device keys rows) =
      (Shelf.of keys).rows pool identity device := by
  -- Both lists are in the order of the keys, so it is enough to compare their rows.
  refine Rows.eq_of_mem_iff (Rows.ascending _ |>.filter _) (rows_ascending _) fun row => ?_
  rw [Pool.mem_contents_uploaded, Shelf.rows, List.mem_map]
  constructor
  · rintro ⟨key, last, rfl⟩
    exact ⟨key, mem_of.2 last, rfl⟩
  · rintro ⟨key, member, rfl⟩
    exact ⟨key, mem_of.1 member, rfl⟩

end Shelf

namespace Pool

variable {engine : Engine} {pool : Pool κ} {rows left : Rows}
  {shelves : Identity → Device → Shelf κ} {identity : Identity} {device : Device}

omit [Record κ] in
/-- What is the same outside a pool is the same in all other tables. -/
theorem sameBeside_of_outside
    (beyond : pool.outside identity device left = pool.outside identity device rows) :
    Rows.SameBeside pool.table rows left := by
  intro key apart
  have foreign : ¬ pool.owns identity device ⟨key, []⟩ := fun owned => apart (owns_iff.1 owned).1
  have found (rows : Rows) : (pool.outside identity device rows).get? key = rows.get? key := by
    rw [get?_outside, if_neg foreign]
  rw [← found left, beyond, found rows]

omit [Record κ] in
/-- Nothing of a pool is outside it. -/
theorem contents_outside (pool : Pool κ) (identity : Identity) (device : Device) (rows : Rows) :
    pool.contents identity device (pool.outside identity device rows) = [] :=
  List.filter_eq_nil_iff.2 fun _ member => (mem_outside.1 member).2

omit [Record κ] in
/-- What is outside a pool stays when the pool is cleared. -/
theorem outside_outside (pool : Pool κ) (identity : Identity) (device : Device) (rows : Rows) :
    pool.outside identity device (pool.outside identity device rows) =
      pool.outside identity device rows := by
  simp only [outside, Rows.filter, List.filter_filter, Bool.and_self]

namespace Keeps

/-- No rows keep no keys. -/
theorem empty (pool : Pool κ) : pool.Keeps Rows.empty fun _ _ => Shelf.empty :=
  fun _ _ => rfl

/-- What another table holds does not matter. -/
theorem beside {table : String} (keeps : pool.Keeps rows shelves)
    (same : Rows.SameBeside table rows left) (apart : pool.table ≠ table) :
    pool.Keeps left shelves := by
  intro identity device
  rw [← keeps identity device]
  refine contents_congr fun row owned => same.mem_iff ?_
  rw [(owns_iff.1 owned).1]
  exact apart

/-- A change of one pool changes one map. -/
theorem amended (keeps : pool.Keeps rows shelves) {shelf : Shelf κ}
    (changed : pool.contents identity device left = shelf.rows pool identity device)
    (beyond : pool.outside identity device left = pool.outside identity device rows) :
    pool.Keeps left (amend shelves identity device shelf) := by
  -- The pools of other devices lie outside.
  intro other place
  unfold amend
  split
  · rename_i here
    obtain ⟨rfl, rfl⟩ := here
    exact changed
  · rename_i apart
    rw [contents_of_outside beyond apart, keeps other place]

/-- Storing keys makes them the map of the device. -/
theorem store (keeps : pool.Keeps rows shelves) (engine : Engine) (identity : Identity)
    (device : Device) (keys : List κ) : ∃ left,
      (pool.store identity device keys).run (engine.holding rows) = (.ok (), engine.holding left) ∧
      pool.Keeps left (amend shelves identity device (.of keys)) ∧
      Rows.SameBeside pool.table rows left := by
  have beyond := outside_uploaded pool identity device keys rows
  exact ⟨_, store_run engine pool identity device keys rows,
    keeps.amended (Shelf.contents_uploaded pool identity device keys rows) beyond,
    sameBeside_of_outside beyond⟩

/-- Counting keys answers the size of the map. -/
theorem count (keeps : pool.Keeps rows shelves) (engine : Engine) (identity : Identity)
    (device : Device) : (pool.count identity device).run (engine.holding rows) =
      (.ok (shelves identity device).size, engine.holding rows) := by
  rw [count_run, keeps identity device, Shelf.rows, List.length_map, Shelf.size]

/-- Deleting the pool of a device leaves its map empty. -/
theorem deleteDevice (keeps : pool.Keeps rows shelves) (engine : Engine) (identity : Identity)
    (device : Device) : ∃ left,
      (pool.deleteDevice identity device).run (engine.holding rows) =
        (.ok (), engine.holding left) ∧
      pool.Keeps left (amend shelves identity device .empty) ∧
      Rows.SameBeside pool.table rows left := by
  refine ⟨engine.clear rows pool.table identity.partition device.lead, ?_, ?_,
    engine.sameBeside_clear _ _ _ _⟩
  · rw [Pool.deleteDevice, Program.run, Engine.perform_holding, Engine.run_deleteRange]
    rfl
  · rw [clear_eq_outside]
    exact keeps.amended (contents_outside ..) (outside_outside ..)

/-- Deleting the pools of an identity leaves all its maps empty. -/
theorem delete (keeps : pool.Keeps rows shelves) (engine : Engine) (identity : Identity) : ∃ left,
      (pool.delete identity).run (engine.holding rows) = (.ok (), engine.holding left) ∧
      pool.Keeps left (amendAll shelves identity .empty) ∧
      Rows.SameBeside pool.table rows left := by
  refine ⟨engine.clear rows pool.table identity.partition [], ?_, ?_, engine.sameBeside_clear _ _ _ _⟩
  · rw [Pool.delete, Program.run, Engine.perform_holding, Engine.run_deleteRange]
    rfl
  · intro other place
    unfold amendAll
    split
    · rename_i here
      subst here
      -- Every row of a pool has a sort key, so it goes with its partition.
      refine List.filter_eq_nil_iff.2 fun row member owned => (Engine.mem_clear.1 member).2 ?_
      obtain ⟨tables, partitions, rest, sort⟩ := owns_iff.1 owned
      rw [Engine.covers_partition engine (by simp [sort]), Row.within]
      simp [tables, partitions]
    · -- The rows of another identity lie in another partition.
      rename_i apart
      rw [← keeps other place]
      refine contents_congr fun row owned => ?_
      rw [Engine.mem_clear]
      refine and_iff_left_of_imp fun _ covered => apart ?_
      exact Identity.eq_of_partition
        ((owns_iff.1 owned).2.1.symm.trans (Engine.covers_within covered).2)

/-- Taking a key takes the one with the smallest id out of the map. -/
theorem take [LawfulRecord κ] (keeps : pool.Keeps rows shelves) (engine : Engine)
    (identity : Identity) (device : Device) : ∃ left,
      (pool.take identity device).run (engine.holding rows) =
        (some (.ok (shelves identity device).take.1), engine.holding left) ∧
      pool.Keeps left (amend shelves identity device (shelves identity device).take.2) ∧
      Rows.SameBeside pool.table rows left := by
  have ran := take_run engine pool identity device rows
  have holds := keeps identity device
  -- The first row of the pool is that of the first key of the map.
  rcases shelf : shelves identity device with ⟨_ | ⟨key, rest⟩, ascending⟩
  · -- An empty map is an empty pool, and the take leaves it so.
    rw [shelf] at holds
    rw [show pool.contents identity device rows = [] from holds] at ran
    exact ⟨rows, ran, keeps.amended holds rfl, .refl _ _⟩
  · rw [shelf] at holds
    have head : pool.contents identity device rows =
        Row.of pool.table (item identity device key) ::
          rest.map fun key => Row.of pool.table (item identity device key) := holds
    rw [head] at ran
    -- The value of the row is the encoded key.
    have decoded : recordOf κ pool.table (Row.of pool.table (item identity device key)).value = .ok key :=
      recordOf_encode pool.table key
    simp only [decoded] at ran
    have beyond := outside_erase (owns_item pool identity device key) rows
    exact ⟨_, ran, keeps.amended (contents_erase_head head) beyond, sameBeside_of_outside beyond⟩

end Keeps

end Pool

end KeyDispensary
