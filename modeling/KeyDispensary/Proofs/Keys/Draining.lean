import KeyDispensary.Proofs.Keys.Sharing
import KeyDispensary.Proofs.Keys.Shelves

/-!
A pool that is emptied by takes one after another. Each take removes the first row, whether the value of
that row stands for a key or not. Main statement: `Pool.drained_in_order`.
-/

namespace KeyDispensary

variable {σ π α κ : Type}

/-- One more run of a walk goes on from what the runs before have left. -/
theorem Walk.times_succ [Store σ] (walk : Walk π α) (count : Nat) (store : σ) :
    (walk.times (count + 1) store).2 = (walk.run (walk.times count store).2).2 := by
  -- One run more may be the first or the last.
  induction count generalizing store with
  | zero => rfl
  | succ count ih => exact ih (walk.run store).2

/-- All rows but those of a list. -/
def Rows.without (rows : Rows) (gone : List Row) : Rows :=
  rows.filter fun row => row ∉ gone

namespace Pool

variable {engine : Engine} {pool : Pool κ} {identity : Identity} {device : Device} {rows : Rows}

/-- The rows of a pool that are not among its first ones are the others. -/
theorem filter_not_mem_take (pool : Pool κ) (identity : Identity) (device : Device) (rows : Rows)
    (count : Nat) : (pool.contents identity device rows).filter
        (fun row => row ∉ (pool.contents identity device rows).take count) =
      (pool.contents identity device rows).drop count := by
  have ascending := contents_ascending pool identity device rows
  generalize pool.contents identity device rows = held at ascending
  -- The first rows come before the others, so no row is on both sides.
  rw [← List.take_append_drop count held] at ascending
  have before := (List.pairwise_append.1 ascending).2.2
  have gone : (held.take count).filter (fun row => row ∉ held.take count) = [] :=
    List.filter_eq_nil_iff.2 fun row member => by simpa using member
  have kept : (held.drop count).filter (fun row => row ∉ held.take count) = held.drop count :=
    List.filter_eq_self.2 fun row member => by
      simpa using fun early => List.lt_irrefl _ (before row early row member)
  -- The list is split, and each part is kept or dropped as a whole.
  calc held.filter (fun row => row ∉ held.take count)
      = (held.take count ++ held.drop count).filter (fun row => row ∉ held.take count) := by
        rw [List.take_append_drop]
    _ = held.drop count := by rw [List.filter_append, gone, kept, List.nil_append]

/-- A pool without its first rows holds the others. -/
theorem contents_without_take (pool : Pool κ) (identity : Identity) (device : Device) (rows : Rows)
    (count : Nat) : pool.contents identity device
        (rows.without ((pool.contents identity device rows).take count)) =
      (pool.contents identity device rows).drop count := by
  -- The order of the two tests does not matter.
  rw [← filter_not_mem_take]
  simp only [contents, Rows.without, Rows.filter, List.filter_filter, Bool.and_comm]

/-- Takes that come one after another leave all rows but the first ones of the pool. -/
theorem times_left [Record κ] (engine : Engine) (pool : Pool κ) (identity : Identity)
    (device : Device) (rows : Rows) (count : Nat) :
    ((pool.take identity device).times count (engine.holding rows)).2 =
      engine.holding (rows.without ((pool.contents identity device rows).take count)) := by
  obtain ⟨left, inside, beyond, taken⟩ := times_run engine pool identity device rows count
  rw [taken]
  -- Both sides agree in the pool and beyond it.
  rw [← contents_without_take] at inside
  refine congrArg engine.holding (ext_contents inside (beyond.trans ?_))
  · -- A row outside the pool is not among its first ones.
    simp only [outside, Rows.without, Rows.filter, List.filter_filter, Rows.mk.injEq]
    refine List.filter_congr fun row _ => ?_
    by_cases owned : pool.owns identity device row
    · simp [owned]
    · have late : row ∉ (pool.contents identity device rows).take count :=
        fun early => owned (mem_contents.1 (List.mem_of_mem_take early)).2
      simp [owned, late]

/-- What takes of a pool do one after another, whatever the values of its rows are. -/
structure Drained [Record κ] (engine : Engine) (pool : Pool κ) (identity : Identity)
    (device : Device) (rows : Rows) : Prop where
  /-- The rows of the pool are those whose sort keys begin with the byte of the device. -/
  held : ∀ row, row ∈ pool.contents identity device rows ↔ row ∈ rows.toList ∧
    row.key.table = pool.table ∧ row.key.partition = identity.partition ∧
    ∃ rest, row.key.sort = device.id :: rest
  /-- They come in ascending order. -/
  ascending : (pool.contents identity device rows).Pairwise fun a b => a.key.sort < b.key.sort
  /-- When some rows have been taken, the rest is counted, and the next take removes the next row. -/
  next : ∀ before row after, pool.contents identity device rows = before ++ row :: after →
    ((pool.take identity device).times before.length (engine.holding rows)).2 =
      engine.holding (rows.without before) ∧
    (pool.count identity device).run (engine.holding (rows.without before)) =
      (.ok (after.length + 1), engine.holding (rows.without before)) ∧
    (pool.take identity device).run (engine.holding (rows.without before)) =
      (some (match (Record.decode row.value : Except Json.Error κ) with
        | .ok key => .ok (some key)
        | .error error => .error (.malformed pool.table (.value error))),
      engine.holding (rows.without (before ++ [row])))
  /-- When all rows have been taken, a take finds nothing and changes nothing. -/
  empty : ∃ left,
    ((pool.take identity device).times (pool.contents identity device rows).length
      (engine.holding rows)).2 = engine.holding left ∧
    left = rows.without (pool.contents identity device rows) ∧
    (pool.count identity device).run (engine.holding left) = (.ok 0, engine.holding left) ∧
    (pool.take identity device).run (engine.holding left) = (some (.ok none), engine.holding left)

/-- Takes drain a pool row by row. -/
theorem drained [Record κ] (engine : Engine) (pool : Pool κ) (identity : Identity)
    (device : Device) (rows : Rows) : Drained engine pool identity device rows where
  held row := by rw [mem_contents, owns_iff]
  ascending := contents_ascending pool identity device rows
  next before row after holds := by
    have now := contents_without_take pool identity device rows before.length
    have left := times_left engine pool identity device rows before.length
    have next := times_left engine pool identity device rows (before ++ [row]).length
    -- The takes before this one have removed the rows before this one.
    have split : before ++ row :: after = before ++ [row] ++ after := by simp
    rw [holds, List.take_left, List.drop_left] at now
    rw [holds, List.take_left] at left
    rw [holds, split, List.take_left, List.length_append, List.length_singleton, Walk.times_succ,
      left] at next
    refine ⟨left, by rw [count_run, now, List.length_cons], Prod.ext ?_ next⟩
    -- The next row is the first that the pool still holds.
    rw [take_run, now]
    change some ((recordOf κ pool.table row.value).map some) = _
    rw [recordOf]
    cases (Record.decode row.value : Except Json.Error κ) <;> rfl
  empty := by
    -- After as many takes as there were rows, none is left.
    have now := contents_without_take pool identity device rows
      (pool.contents identity device rows).length
    have left := times_left engine pool identity device rows
      (pool.contents identity device rows).length
    rw [List.take_length, List.drop_length] at now
    rw [List.take_length] at left
    exact ⟨_, left, rfl, by rw [count_run, now]; rfl, by rw [take_run, now]⟩

/--
Takes empty a pool in the order of its sort keys, one row each, whatever its values are: a value that is
no record makes its take fail and is gone with it. A pool in which keys were just stored hands out the
last key of each id, in ascending order of the ids, and then nothing.
-/
theorem drained_in_order [Record κ] [LawfulRecord κ] (engine : Engine) (pool : Pool κ)
    (identity : Identity) (device : Device) (rows : Rows) :
    Drained engine pool identity device rows ∧
    ∀ keys : List κ, ∃ stored handedOut,
      (pool.store identity device keys).run (engine.holding rows) = (.ok (), engine.holding stored) ∧
      (handedOut.Pairwise fun a b => Record.keyId a < Record.keyId b) ∧
      (∀ id, (handedOut.find? fun key => Record.keyId key = id) =
        keys.reverse.find? fun key => Record.keyId key = id) ∧
      ∀ count, ((pool.take identity device).times count (engine.holding stored)).1 =
        (shares handedOut count).map some := by
  refine ⟨drained engine pool identity device rows, fun keys => ?_⟩
  -- What was stored is read back key by key.
  have decoded : (pool.contents identity device
      (pool.uploaded identity device keys rows)).map (fun row => recordOf κ pool.table row.value) =
        (Shelf.of keys).keys.map .ok := by
    rw [Shelf.contents_uploaded, Shelf.rows, List.map_map]
    exact List.map_congr_left fun key _ => recordOf_encode pool.table key
  refine ⟨_, (Shelf.of keys).keys, store_run engine pool identity device keys rows,
    (Shelf.of keys).ascending, Shelf.get?_of keys, fun count => ?_⟩
  obtain ⟨left, _, _, taken⟩ := take_times engine decoded count
  rw [taken]

/-- A pool is drained although two of its three rows hold no record. -/
theorem drained_in_order_garbled :
    let identity : Identity := ⟨List.replicate 16 0, rfl⟩
    let pool : Pool EcKey := ⟨"ec"⟩
    let rows := Rows.empty.putAll "ec" [⟨⟨identity.partition, [1]⟩, []⟩,
      ⟨⟨identity.partition, [1, 255]⟩, Record.encode (⟨7, [8]⟩ : EcKey)⟩,
      ⟨⟨identity.partition, [1, 255, 0]⟩, Bytes.ofText "null"⟩, ⟨⟨identity.partition, [2]⟩, []⟩]
    let keys : List EcKey := [⟨18446744073709551615, [1]⟩, ⟨5, [2]⟩, ⟨256, [3]⟩, ⟨5, [4]⟩]
    LawfulRecord EcKey ∧ (pool.contents identity .primary rows).length = 3 ∧
    Drained .database pool identity .primary rows ∧
    ∃ stored handedOut,
      (pool.store identity .primary keys).run (Engine.database.holding rows) =
        (.ok (), Engine.database.holding stored) ∧
      (handedOut.find? fun key => Record.keyId key = 5) = some ⟨5, [4]⟩ ∧
      ∀ count, ((pool.take identity .primary).times count (Engine.database.holding stored)).1 =
        (shares handedOut count).map some := by
  intro identity pool rows keys
  obtain ⟨drained, dispensed⟩ := drained_in_order .database pool identity .primary rows
  obtain ⟨stored, handedOut, ran, _, last, taken⟩ := dispensed keys
  exact ⟨inferInstance, by decide +kernel, drained, stored, handedOut, ran, last 5, taken⟩

end Pool

end KeyDispensary
