import KeyDispensary.Proofs.Keys.Layout
import KeyDispensary.Proofs.Keys.Taking
import KeyDispensary.Proofs.Store.Paging

/-!
The rows of a pool, in the order in which its keys go out. Main statements: `Pool.contents_erase` and
`Pool.take_run`, what a take does when nobody else is at work.
-/

namespace KeyDispensary

/-- The row under a key that is listed has the value that is found there. -/
theorem Rows.get?_of_mem {rows : Rows} {row : Row} (member : row ∈ rows.toList) :
    rows.get? row.key = some row.value :=
  get?_eq_some_iff.2 member

namespace Pool

variable {κ : Type}

/-- Whether a row lies in the pool of a device. -/
def owns (pool : Pool κ) (identity : Identity) (device : Device) (row : Row) : Bool :=
  row.begins pool.table identity.partition device.lead

/-- The rows in the pool of a device, in ascending order of their sort keys. -/
def contents (pool : Pool κ) (identity : Identity) (device : Device) (rows : Rows) : List Row :=
  rows.toList.filter (pool.owns identity device)

variable {pool : Pool κ} {identity : Identity} {device : Device} {rows : Rows} {row : Row}

/-- A row of a pool is in the table and the partition of the pool, and its sort key is not empty. -/
theorem owns_iff : pool.owns identity device row ↔ row.key.table = pool.table ∧
    row.key.partition = identity.partition ∧ ∃ rest, row.key.sort = device.id :: rest := by
  -- A sort key begins with the byte of the device exactly if that byte is its first.
  simp only [owns, Row.begins, Row.within, Bool.and_eq_true, decide_eq_true_eq, Device.lead,
    and_assoc]
  cases row.key.sort with
  | nil => simp
  | cons first rest =>
    simp only [List.isPrefixOf_cons_cons, List.isPrefixOf_nil_left, Bool.and_true, beq_iff_eq,
      List.cons.injEq, exists_and_left, exists_eq', and_true]
    exact and_congr_right fun _ => and_congr_right fun _ => eq_comm

/-- A row lies in one pool at most. -/
theorem owns_unique {identity' : Identity} {device' : Device}
    (left : pool.owns identity device row) (right : pool.owns identity' device' row) :
    identity = identity' ∧ device = device' := by
  obtain ⟨_, partition, rest, sort⟩ := owns_iff.1 left
  obtain ⟨_, partition', rest', sort'⟩ := owns_iff.1 right
  -- The partition and the first byte of the sort key tell the pool.
  have ids : device.id = device'.id := (List.cons.inj (sort.symm.trans sort')).1
  cases device
  cases device'
  exact ⟨Identity.eq_of_partition (partition.symm.trans partition'), congrArg Device.mk ids⟩

/-- Both engines count exactly the rows of a pool to the range of its device. -/
theorem covers_lead (engine : Engine) (pool : Pool κ) (identity : Identity) (device : Device)
    (row : Row) : engine.covers pool.table identity.partition device.lead row =
      pool.owns identity device row := by
  -- A sort key that begins with a byte is not empty.
  by_cases owned : pool.owns identity device row
  · obtain ⟨_, _, rest, sort⟩ := owns_iff.1 owned
    rw [owned, Engine.covers, show row.begins pool.table identity.partition device.lead = true from
      owned, sort]
    simp
  · -- A row that does not begin with the device is covered by neither.
    rw [Engine.covers, show row.begins pool.table identity.partition device.lead = false from
      Bool.eq_false_iff.2 owned, Bool.eq_false_iff.2 owned, Bool.false_and]

/-- The range of a device holds the rows of its pool. -/
theorem range_eq_contents (engine : Engine) (pool : Pool κ) (identity : Identity)
    (device : Device) (rows : Rows) :
    engine.range rows pool.table identity.partition device.lead =
      pool.contents identity device rows :=
  List.filter_congr fun row _ => covers_lead engine pool identity device row

/-- A query for the first key after a place finds the rows of the pool after it. -/
theorem found_asked (engine : Engine) (pool : Pool κ) (identity : Identity) (device : Device)
    (after : Option Bytes) (rows : Rows) :
    engine.found rows (pool.asked identity device after) =
      (pool.contents identity device rows).filter fun row => Memory.isPast after row.key.sort := by
  -- The range of the query is the pool.
  rw [Engine.found, asked, range_eq_contents]

/-- A row of a pool is a row, and the pool owns it. -/
theorem mem_contents :
    row ∈ pool.contents identity device rows ↔ row ∈ rows.toList ∧ pool.owns identity device row :=
  List.mem_filter

/-- The first row of a pool is one of its rows. -/
theorem mem_head {rest : List Row} (holds : pool.contents identity device rows = row :: rest) :
    row ∈ rows.toList ∧ pool.owns identity device row := by
  rw [← mem_contents, holds]
  exact .head _

/-- The key of an item of a pool is the key of its row. -/
theorem rowKey_of_owned (owned : pool.owns identity device row) :
    RowKey.of pool.table row.item.key = row.key := by
  -- The item keeps all of the key but the table, which is the pool's.
  simp only [RowKey.of, Row.item, ← (owns_iff.1 owned).1]

/-- The rows of a pool have ascending sort keys. -/
theorem contents_ascending (pool : Pool κ) (identity : Identity) (device : Device) (rows : Rows) :
    (pool.contents identity device rows).Pairwise fun a b => a.key.sort < b.key.sort := by
  -- The pool is a range of its table.
  rw [← range_eq_contents .memory]
  exact Engine.range_ascending ..

/-- A pool is known from the rows that it owns. -/
theorem contents_congr {left : Rows}
    (same : ∀ row, pool.owns identity device row → (row ∈ left.toList ↔ row ∈ rows.toList)) :
    pool.contents identity device left = pool.contents identity device rows := by
  -- Both lists are in the order of their keys, so they are the same if they have the same rows.
  refine Rows.eq_of_mem_iff (left.ascending.filter _) (rows.ascending.filter _) fun row => ?_
  rw [mem_contents, mem_contents]
  exact and_congr_left (same row)

/-- Erasing a key takes the row under it out of a pool, and no other. -/
theorem contents_erase (pool : Pool κ) (identity : Identity) (device : Device) (rows : Rows)
    (key : RowKey) :
    pool.contents identity device (rows.erase key) =
      (pool.contents identity device rows).filter fun row => row.key ≠ key := by
  -- The order of the two tests does not matter.
  simp only [contents, Rows.erase, Rows.filter, List.filter_filter, Bool.and_comm]

/-- A pool from which the first key is erased holds the others. -/
theorem contents_erase_head {rest : List Row}
    (holds : pool.contents identity device rows = row :: rest) :
    pool.contents identity device (rows.erase row.key) = rest := by
  -- The other rows have later sort keys, so none of them has this key.
  have ascending := contents_ascending pool identity device rows
  rw [holds] at ascending
  rw [contents_erase, holds, List.filter_cons_of_neg (by simp), List.filter_eq_self]
  intro other member
  have less := (List.pairwise_cons.1 ascending).1 other member
  have apart : other.key ≠ row.key := fun same => List.lt_irrefl _ (same ▸ less)
  simpa using apart

/-! ### The rows outside a pool -/

/-- The rows outside the pool of a device. -/
def outside (pool : Pool κ) (identity : Identity) (device : Device) (rows : Rows) : Rows :=
  rows.filter fun row => !pool.owns identity device row

/-- Clearing the range of a device leaves the rows outside its pool. -/
theorem clear_eq_outside (engine : Engine) (pool : Pool κ) (identity : Identity)
    (device : Device) (rows : Rows) :
    engine.clear rows pool.table identity.partition device.lead =
      pool.outside identity device rows := by
  -- The two tests agree on every row.
  rw [Engine.clear, outside]
  congr
  funext row
  rw [covers_lead]

/-- Whether a pool owns a row depends on the key of the row alone. -/
theorem owns_congr {other : Row} (same : row.key = other.key) :
    pool.owns identity device row = pool.owns identity device other := by
  -- No part of the test reads the value.
  simp only [owns, Row.begins, Row.within, same]

/-- A key is not found exactly if no row of the pool has it. -/
theorem get?_eq_none_iff (owned : pool.owns identity device row) :
    rows.get? row.key = none ↔ ∀ other ∈ pool.contents identity device rows, other.key ≠ row.key := by
  constructor
  · -- A row with this key would be found.
    rintro absent other member same
    have value := Rows.get?_of_mem (mem_contents.1 member).1
    rw [same, absent] at value
    cases value
  · intro gone
    -- Whatever is found under the key would be a row of the pool.
    cases held : rows.get? row.key with
    | none => rfl
    | some value =>
      have listed := Rows.get?_eq_some_iff.1 held
      exact absurd rfl (gone ⟨row.key, value⟩ (mem_contents.2 ⟨listed, (owns_congr rfl).trans owned⟩))

/-- Outside a pool nothing is found under its keys, and under other keys what was there. -/
theorem get?_outside (rows : Rows) (key : RowKey) :
    (pool.outside identity device rows).get? key =
      if pool.owns identity device ⟨key, []⟩ then none else rows.get? key := by
  -- Whether a row is kept depends on its key alone.
  rw [outside, Rows.get?_filter]
  have same (value : Bytes) : pool.owns identity device ⟨key, value⟩ =
      pool.owns identity device ⟨key, []⟩ := owns_congr rfl
  split
  · rename_i owned
    -- A row in the pool is dropped with whatever value it has.
    cases rows.get? key with
    | none => rfl
    | some value => rw [Option.filter_some, if_neg (by simp [same, owned])]
  · rename_i apart
    cases rows.get? key with
    | none => rfl
    | some value => rw [Option.filter_some, if_pos (by simp [same, apart])]

/-- Erasing a row of a pool changes nothing outside it. -/
theorem outside_erase (owned : pool.owns identity device row) (rows : Rows) :
    pool.outside identity device (rows.erase row.key) = pool.outside identity device rows := by
  -- Whatever has the key of the row is in the pool as well.
  apply Rows.ext_get?
  intro key
  rw [get?_outside, get?_outside, Rows.get?_erase]
  split
  · rfl
  · rename_i apart
    have other : key ≠ row.key := fun same => apart ((owns_congr same).trans owned)
    rw [if_neg other]

/-- Outside a pool there are the rows that it does not own. -/
theorem mem_outside :
    row ∈ (pool.outside identity device rows).toList ↔
      row ∈ rows.toList ∧ ¬ pool.owns identity device row := by
  -- The rows outside are filtered.
  simp [outside, Rows.filter, List.mem_filter]

/-- What is the same outside a pool is the same in every other pool. -/
theorem contents_of_outside {left : Rows} {identity' : Identity} {device' : Device}
    (beyond : pool.outside identity device left = pool.outside identity device rows)
    (apart : ¬ (identity' = identity ∧ device' = device)) :
    pool.contents identity' device' left = pool.contents identity' device' rows := by
  -- A row has one pool at most, so the rows of another pool lie outside this one.
  refine contents_congr fun row owned => ?_
  have other : ¬ pool.owns identity device row := fun inside => apart (owns_unique owned inside)
  have members : row ∈ (pool.outside identity device left).toList ↔
      row ∈ (pool.outside identity device rows).toList := by rw [beyond]
  simpa [mem_outside, other] using members

/-- Rows are known from those in a pool and those outside it. -/
theorem ext_contents {left right : Rows}
    (inside : pool.contents identity device left = pool.contents identity device right)
    (beyond : pool.outside identity device left = pool.outside identity device right) :
    left = right := by
  -- Each row is on one side or on the other.
  have same : left.toList = right.toList := by
    refine Rows.eq_of_mem_iff left.ascending right.ascending fun row => ?_
    by_cases owned : pool.owns identity device row
    · have members : row ∈ pool.contents identity device left ↔
          row ∈ pool.contents identity device right := by rw [inside]
      simpa [mem_contents, owned] using members
    · have members : row ∈ (pool.outside identity device left).toList ↔
          row ∈ (pool.outside identity device right).toList := by rw [beyond]
      simpa [mem_outside, owned] using members
  cases left
  cases right
  simpa using same

/-! ### Counting and taking alone -/

/-- Counting the keys of a device counts the rows of its pool. -/
theorem count_run (engine : Engine) (pool : Pool κ) (identity : Identity) (device : Device)
    (rows : Rows) : (pool.count identity device).run (engine.holding rows) =
      (.ok (pool.contents identity device rows).length, engine.holding rows) := by
  -- The engine counts the rows of the range, which are those of the pool.
  rw [Pool.count, Program.run, Engine.perform_holding]
  simp only [Engine.answer, range_eq_contents]
  rfl

variable [Record κ]

/-- A take that nobody disturbs takes the first key of the pool, or finds it empty. -/
theorem take_run (engine : Engine) (pool : Pool κ) (identity : Identity) (device : Device)
    (rows : Rows) :
    (pool.take identity device).run (engine.holding rows) =
      match pool.contents identity device rows with
      | [] => (some (.ok none), engine.holding rows)
      | row :: _ =>
        (some ((recordOf κ pool.table row.value).map some), engine.holding (rows.erase row.key)) := by
  -- One round suffices, since the candidate is still there when it is claimed.
  have all : engine.found rows (pool.asked identity device none) =
      pool.contents identity device rows := by
    rw [found_asked]
    exact List.filter_eq_self.2 fun _ _ => rfl
  have first : (pool.takeFrom identity device none).run (engine.holding rows) =
      (pool.claim (Memory.page 1 ((pool.contents identity device rows).map Row.item)).items
        (Memory.page 1 ((pool.contents identity device rows).map Row.item)).last).run
          (engine.holding rows) := by
    rw [takeFrom, Program.run, Engine.perform_holding]
    exact congrArg (fun found => (pool.claim (Memory.page 1 (found.map Row.item)).items
      (Memory.page 1 (found.map Row.item)).last).run (engine.holding rows)) all
  -- Claiming a row that is there removes it and answers what its value encodes.
  have claimed (row : Row) (last : Option Bytes)
      (member : row ∈ pool.contents identity device rows) :
      (pool.claim [row.item] last).run (engine.holding rows) =
        (.finished ((recordOf κ pool.table row.value).map some),
          engine.holding (rows.erase row.key)) := by
    obtain ⟨listed, owned⟩ := mem_contents.1 member
    rw [claim, Program.run, Engine.perform_holding]
    simp only [Engine.answer, rowKey_of_owned owned, Rows.get?_of_mem listed]
    rfl
  have round : (pool.take identity device).round (pool.take identity device).start =
      pool.takeFrom identity device none := rfl
  rw [Walk.run, Engine.rounds_holding, Walk.runFrom, round, first]
  cases holds : pool.contents identity device rows with
  | nil => rfl
  | cons row others =>
    have member : row ∈ pool.contents identity device rows := holds ▸ List.mem_cons_self
    -- The page has a last key only if there is another row.
    cases others with
    | nil =>
      have shown : pool.claim (Memory.page 1 ([row].map Row.item)).items
          (Memory.page 1 ([row].map Row.item)).last = pool.claim [row.item] none := rfl
      rw [shown, claimed row none member]
    | cons next rest =>
      have shown : pool.claim (Memory.page 1 ((row :: next :: rest).map Row.item)).items
          (Memory.page 1 ((row :: next :: rest).map Row.item)).last =
            pool.claim [row.item] (some row.key.sort) := rfl
      rw [shown, claimed row _ member]

end Pool

end KeyDispensary
