import KeyDispensary.Proofs.Keys.Contents

/-!
What storing keys leaves: of the given keys with one id the last, and outside the pool what was there.
Main statements: `Pool.store_run` and `Pool.mem_contents_uploaded`.
-/

namespace KeyDispensary

namespace Pool

variable {κ : Type} [Record κ]

/-- The key that a list of keys has for an id: the last of those with the id. -/
def keyFor? (keys : List κ) (id : UInt64) : Option κ :=
  keys.reverse.find? fun key => Record.keyId key = id

/-- The rows that storing keys leaves. -/
def uploaded (pool : Pool κ) (identity : Identity) (device : Device) (keys : List κ)
    (rows : Rows) : Rows :=
  (pool.outside identity device rows).putAll pool.table (keys.map (item identity device))

variable {pool : Pool κ} {identity : Identity} {device : Device} {keys : List κ} {rows : Rows}
  {row : Row}

/-- Storing keys succeeds and leaves them in place of the pool. -/
theorem store_run (engine : Engine) (pool : Pool κ) (identity : Identity) (device : Device)
    (keys : List κ) (rows : Rows) :
    (pool.store identity device keys).run (engine.holding rows) =
      (.ok (), engine.holding (pool.uploaded identity device keys rows)) := by
  -- The replacement clears the range of the device and puts the items.
  rw [store, Program.run, Engine.perform_holding]
  simp only [Engine.answer, clear_eq_outside]
  rfl

/-- The row that a key is stored in lies in the pool. -/
theorem owns_item (pool : Pool κ) (identity : Identity) (device : Device) (key : κ) :
    pool.owns identity device (Row.of pool.table (item identity device key)) :=
  owns_iff.2 ⟨rfl, rfl, _, rfl⟩

/-- What is found in a pool after storing keys. -/
theorem get?_uploaded (owned : pool.owns identity device row) :
    (pool.uploaded identity device keys rows).get? row.key =
      (keys.reverse.find? fun key => (Row.of pool.table (item identity device key)).key = row.key).map
        Record.encode := by
  -- Nothing of the pool was left when the keys were put.
  have cleared : (pool.outside identity device rows).get? row.key = none := by
    have inside : pool.owns identity device ⟨row.key, []⟩ = true := (owns_congr rfl).trans owned
    rw [get?_outside, if_pos inside]
  rw [uploaded, Rows.get?_putAll, cleared, Option.or_none, ← List.map_reverse, List.find?_map,
    Option.map_map]
  rfl

/-- Storing keys changes nothing outside the pool. -/
theorem outside_uploaded (pool : Pool κ) (identity : Identity) (device : Device) (keys : List κ)
    (rows : Rows) : pool.outside identity device (pool.uploaded identity device keys rows) =
      pool.outside identity device rows := by
  apply Rows.ext_get?
  intro key
  rw [get?_outside, get?_outside]
  split
  · -- In the pool neither side has anything.
    rfl
  · rename_i apart
    -- The rows that are put lie in the pool, so none of them has this key.
    have absent : ((keys.map (item identity device)).reverse.find? fun item =>
        RowKey.of pool.table item.key = key) = none := by
      rw [List.find?_eq_none]
      intro stored member
      obtain ⟨put, _, rfl⟩ := List.mem_map.1 (List.mem_reverse.1 member)
      have owned := owns_item pool identity device put
      simp only [decide_eq_true_eq]
      exact fun same => apart ((owns_congr same.symm).trans owned)
    rw [uploaded, Rows.get?_putAll, absent, get?_outside, if_neg apart]
    rfl

/-- Keys of a pool are stored in one row exactly if they have one id. -/
theorem key_of_item_eq_iff {left right : κ} :
    (Row.of pool.table (item identity device left)).key =
      (Row.of pool.table (item identity device right)).key ↔
        Record.keyId left = Record.keyId right := by
  constructor
  · intro same
    -- The sort key carries the id.
    have places : poolKey identity device (Record.keyId left) =
        poolKey identity device (Record.keyId right) := by
      simpa [Row.of, RowKey.of, item, poolKey] using same
    exact (poolKey_eq_iff.1 places).2.2
  · intro same
    simp only [Row.of, item, same]

/-- After storing keys a pool holds the row of the last key with each id. -/
theorem mem_contents_uploaded : row ∈ pool.contents identity device
      (pool.uploaded identity device keys rows) ↔
    ∃ key, keyFor? keys (Record.keyId key) = some key ∧
      row = Row.of pool.table (item identity device key) := by
  have found (key : κ) (same : (Row.of pool.table (item identity device key)).key = row.key) :
      (keys.reverse.find? fun key =>
        (Row.of pool.table (item identity device key)).key = row.key) =
          keyFor? keys (Record.keyId key) := by
    -- The rows of two keys have one place exactly if the keys have one id.
    refine congrArg (keys.reverse.find? ·) (funext fun other => ?_)
    rw [← same, decide_eq_decide]
    exact key_of_item_eq_iff
  constructor
  · -- The value of a row that is there comes from the last key of its id.
    intro member
    obtain ⟨listed, owned⟩ := mem_contents.1 member
    have value := Rows.get?_of_mem listed
    rw [get?_uploaded owned, Option.map_eq_some_iff] at value
    obtain ⟨key, search, encoded⟩ := value
    have same : (Row.of pool.table (item identity device key)).key = row.key := by
      simpa using List.find?_some search
    refine ⟨key, (found key same).symm.trans search, ?_⟩
    cases row
    simp only at same encoded
    rw [← same, ← encoded]
    rfl
  · -- The last key of an id is found under its place.
    rintro ⟨key, search, rfl⟩
    have owned := owns_item pool identity device key
    have value : (pool.uploaded identity device keys rows).get?
        (Row.of pool.table (item identity device key)).key = some (Record.encode key) := by
      rw [get?_uploaded owned, found key rfl, search]
      rfl
    exact mem_contents.2 ⟨Rows.get?_eq_some_iff.1 value, owned⟩

/-- A pool that keys were stored in has a row for exactly the ids of these keys. -/
theorem exists_mem_contents_uploaded (id : UInt64) :
    (∃ row ∈ pool.contents identity device (pool.uploaded identity device keys rows),
      row.key = RowKey.of pool.table (poolKey identity device id)) ↔
        ∃ key ∈ keys, Record.keyId key = id := by
  constructor
  · -- A row of the pool is that of a key with its id.
    rintro ⟨row, member, same⟩
    obtain ⟨key, search, rfl⟩ := mem_contents_uploaded.1 member
    have places : poolKey identity device (Record.keyId key) = poolKey identity device id := by
      simpa [Row.of, RowKey.of, item, poolKey] using same
    exact ⟨key, List.mem_reverse.1 (List.mem_of_find?_eq_some search), (poolKey_eq_iff.1 places).2.2⟩
  · rintro ⟨key, member, rfl⟩
    -- Some key with this id is the last one.
    obtain ⟨last, search⟩ : ∃ last, keyFor? keys (Record.keyId key) = some last :=
      Option.isSome_iff_exists.1 (List.find?_isSome.2 ⟨key, List.mem_reverse.2 member, by simp⟩)
    have same : Record.keyId last = Record.keyId key := by simpa using List.find?_some search
    refine ⟨_, mem_contents_uploaded.2 ⟨last, same.symm ▸ search, rfl⟩, ?_⟩
    simp only [Row.of, item, same]

/-- The rows of keys come in the order of their ids. -/
theorem sort_of_item_lt_iff {left right : κ} :
    (Row.of pool.table (item identity device left)).key.sort <
      (Row.of pool.table (item identity device right)).key.sort ↔
        Record.keyId left < Record.keyId right := by
  change (poolKey identity device (Record.keyId left)).sort <
    (poolKey identity device (Record.keyId right)).sort ↔ _
  -- The device is the same.
  rw [poolKey_sort_lt_iff, UInt64.lt_iff_toNat_lt]
  simp

/-- The first row of a pool that keys were stored in is that of a key with the smallest id. -/
theorem uploaded_head {first : Row} {rest : List Row}
    (holds : pool.contents identity device (pool.uploaded identity device keys rows) = first :: rest) :
    ∃ key ∈ keys, first = Row.of pool.table (item identity device key) ∧
      ∀ other ∈ keys, Record.keyId key ≤ Record.keyId other := by
  obtain ⟨key, search, rfl⟩ := mem_contents_uploaded.1 (mem_contents.2 (mem_head holds))
  refine ⟨key, List.mem_reverse.1 (List.mem_of_find?_eq_some search), rfl, fun other inside => ?_⟩
  -- The row with the id of the other key is the first one or comes after it.
  obtain ⟨row, listed, same⟩ := (exists_mem_contents_uploaded (Record.keyId other)).2
    ⟨other, inside, rfl⟩
  have ascending := contents_ascending pool identity device (pool.uploaded identity device keys rows)
  rw [holds] at ascending listed
  rcases List.mem_cons.1 listed with rfl | later
  · exact UInt64.le_of_eq (key_of_item_eq_iff.1 same)
  · have less := (List.pairwise_cons.1 ascending).1 row later
    rw [same] at less
    exact UInt64.le_of_lt (sort_of_item_lt_iff.1 less)

end Pool

end KeyDispensary
