import KeyDispensary.Proofs.Store.Transactions

/-!
Transactions whose writes come from two sources. When the writes of one source only put items, at keys
that the other spares, the order between the two does not matter. Main statements:
`Engine.answer_merged`, and `Engine.answer_deletions` for transactions that only delete keys.
-/

namespace KeyDispensary

variable {α β : Type}

/-- Whether a list is two lists merged, each of them in its own order. -/
inductive Merges : List α → List α → List α → Prop where
  /-- Both lists are used up. -/
  | nil : Merges [] [] []
  /-- The next element is of the first list. -/
  | left {element : α} {first second merged : List α} (rest : Merges first second merged) :
    Merges (element :: first) second (element :: merged)
  /-- The next element is of the second list. -/
  | right {element : α} {first second merged : List α} (rest : Merges first second merged) :
    Merges first (element :: second) (element :: merged)

namespace Merges

variable {first second merged : List α}

/-- A merged list has the elements of both lists. -/
theorem length_eq (merges : Merges first second merged) :
    merged.length = first.length + second.length := by
  -- Each step of the merge takes one element from one of the lists.
  induction merges with
  | nil => rfl
  | left rest ih =>
    simp only [List.length_cons, ih]
    omega
  | right rest ih =>
    simp only [List.length_cons, ih]
    omega

/-- A search that finds nothing in the second list finds in a merged list what is in the first. -/
theorem findSome?_eq (merges : Merges first second merged) (search : α → Option β)
    (nothing : ∀ element ∈ second, search element = none) :
    merged.findSome? search = first.findSome? search := by
  induction merges with
  | nil => rfl
  | left rest ih => rw [List.findSome?_cons, List.findSome?_cons, ih nothing]
  | right rest ih =>
    -- The search passes by an element of the second list.
    rw [List.findSome?_cons, nothing _ List.mem_cons_self]
    exact ih fun element member => nothing element (.tail _ member)

/-- A first step that may be put off behind each of some steps may be put off behind all of them. -/
theorem foldl_put_off {step : β → α → β} {element : α} {passed : List α}
    (commutes : ∀ later ∈ passed, ∀ state,
      step (step state element) later = step (step state later) element) (state : β) :
    passed.foldl step (step state element) = step (passed.foldl step state) element := by
  -- The step is put off behind the others one by one.
  induction passed generalizing state with
  | nil => rfl
  | cons later rest ih =>
    rw [List.foldl_cons, List.foldl_cons, commutes later List.mem_cons_self]
    exact ih (fun other member => commutes other (.tail _ member)) _

/--
Folding over a merged list is folding over the first list and then over the second, if the steps of
the second may be put off behind those of the first.
-/
theorem foldl_eq (merges : Merges first second merged) (step : β → α → β)
    (commutes : ∀ earlier ∈ second, ∀ later ∈ first, ∀ state,
      step (step state earlier) later = step (step state later) earlier) (state : β) :
    merged.foldl step state = second.foldl step (first.foldl step state) := by
  -- An element of the second list has all that is left of the first to pass.
  induction merges generalizing state with
  | nil => rfl
  -- An element of the first list is met where it stands on both sides.
  | left rest ih =>
    exact ih (fun earlier member later member' => commutes earlier member later (.tail _ member')) _
  | right rest ih =>
    rw [List.foldl_cons, List.foldl_cons, ih fun earlier member => commutes earlier (.tail _ member),
      foldl_put_off fun later => commutes _ List.mem_cons_self later]

end Merges

/-! ### Writes that do not meet -/

/-- Whether a write leaves alone what is under a key; a check leaves everything alone. -/
def Write.Spares (key : RowKey) : Write → Prop
  | .put table item => RowKey.of table item.key ≠ key
  | .delete table erased => RowKey.of table erased ≠ key
  | .deleteRange table partition lead => ¬ Row.begins ⟨key, []⟩ table partition lead
  | .check _ _ _ => True

namespace Engine

variable {engine : Engine} {rows : Rows}

/-- An engine does not clear a key with a range that the key lies outside of. -/
theorem not_covers_of_not_begins {table : String} {partition lead : Bytes} {row : Row}
    (outside : ¬ row.begins table partition lead) : ¬ engine.covers table partition lead row :=
  fun covered => outside (Bool.and_eq_true_iff.1 covered).1

/-- A write does not change what is under a key that it spares. -/
theorem edit_of_spares {write : Write} {key : RowKey} (spares : write.Spares key)
    (values : RowKey → Option Bytes) : write.edit engine values key = values key := by
  -- A write reaches the key that it names, or the keys of its range.
  cases write with
  | put table item => exact if_neg fun same => spares same.symm
  | delete table erased => exact if_neg fun same => spares same.symm
  | deleteRange table partition lead => exact if_neg (not_covers_of_not_begins spares)
  | check => rfl

/-- What a write makes of the value under a key depends on that value alone. -/
theorem edit_congr {values values' : RowKey → Option Bytes} (write : Write) {key : RowKey}
    (same : values key = values' key) :
    write.edit engine values key = write.edit engine values' key := by
  cases write <;> simp only [Write.edit, same]

/-- Writes do not change what is under a key that they all spare. -/
theorem edits_of_spares {writes : List Write} {key : RowKey}
    (spares : ∀ write ∈ writes, write.Spares key) (values : RowKey → Option Bytes) :
    writes.foldl (Write.edit engine) values key = values key := by
  -- No write of the list changes the value, so each may be left out.
  induction writes generalizing values with
  | nil => rfl
  | cons write rest ih =>
    rw [List.foldl_cons, ih fun other member => spares other (.tail _ member)]
    exact edit_of_spares (spares write List.mem_cons_self) values

/-- An item that is put under a key may as well be put after a write that spares the key. -/
theorem edit_put_comm {write : Write} {table : String} {item : Item}
    (spares : write.Spares (RowKey.of table item.key)) (values : RowKey → Option Bytes) :
    write.edit engine ((Write.put table item).edit engine values) =
      (Write.put table item).edit engine (write.edit engine values) := by
  funext key
  by_cases here : key = RowKey.of table item.key
  · -- The write does not reach the item.
    subst here
    rw [edit_of_spares spares]
    simp only [Write.edit, if_true]
  · -- Under another key the item changes nothing, before the write or after it.
    have other (values : RowKey → Option Bytes) :
        (Write.put table item).edit engine values key = values key := if_neg here
    rw [other, edit_congr write (other values)]

/-- A transaction of few enough writes is carried out unless a check does not hold. -/
theorem answer_transact (engine : Engine) (rows : Rows) {writes : List Write}
    (few : writes.length ≤ transactionLimit) :
    engine.answer rows (.transact writes) =
      match writes.findSome? (Write.unmet? rows) with
      | some reason => (.error (.conflict reason), rows)
      | none => (.ok (), writes.foldl (Write.apply engine.clear) rows) := by
  -- The number of writes is checked first, and the conditions of checks after it.
  have size : checkSize writes = .ok () := if_neg (Nat.not_lt.2 few)
  simp only [answer, size, applyWrites]
  cases writes.findSome? (Write.unmet? rows) <;> rfl

/-- A transaction does not change what is under a key that its writes spare. -/
theorem get?_transact_of_spares {writes : List Write} {key : RowKey}
    (spares : ∀ write ∈ writes, write.Spares key) :
    (engine.answer rows (.transact writes)).2.get? key = rows.get? key := by
  have settled := engine.settled rows writes
  generalize engine.answer rows (.transact writes) = outcome at settled
  obtain ⟨reply, left⟩ := outcome
  -- Only a transaction that is carried out changes anything.
  cases settled with
  | refused => rfl
  | failed => rfl
  | carriedOut =>
    -- No write of the list edits what is under the key.
    rw [get?_writes]
    exact edits_of_spares spares rows.get?

/--
A transaction into which items are merged fails exactly as it does without them, and otherwise leaves
what putting the items leaves after it, if its own writes spare their keys.
-/
theorem answer_merged (engine : Engine) (rows : Rows) {first second merged : List Write}
    (merges : Merges first second merged) (few : merged.length ≤ transactionLimit)
    (puts : ∀ write ∈ second, ∃ table item, write = .put table item ∧
      ∀ other ∈ first, other.Spares (RowKey.of table item.key)) :
    engine.answer rows (.transact merged) =
      match engine.answer rows (.transact first) with
      | (.error error, left) => (.error error, left)
      | (.ok (), left) => (.ok (), second.foldl (Write.apply engine.clear) left) := by
  have fewer : first.length ≤ transactionLimit := by
    have size := merges.length_eq
    omega
  -- Putting an item requires nothing.
  have checks := merges.findSome?_eq (Write.unmet? rows) fun write member => by
    obtain ⟨table, item, rfl, _⟩ := puts write member
    rfl
  -- The items are put off behind the other writes, which spare their keys.
  have values := merges.foldl_eq (Write.edit engine)
    (fun earlier member later member' state => by
      obtain ⟨table, item, rfl, spares⟩ := puts earlier member
      exact edit_put_comm (spares later member') state) rows.get?
  -- Rows with the same values under all keys are the same.
  have left : merged.foldl (Write.apply engine.clear) rows =
      second.foldl (Write.apply engine.clear) (first.foldl (Write.apply engine.clear) rows) := by
    refine Rows.ext_get? fun key => ?_
    rw [get?_writes, get?_writes, get?_writes, values]
  rw [answer_transact engine rows few, answer_transact engine rows fewer, checks, left]
  cases first.findSome? (Write.unmet? rows) <;> rfl

/-! ### Deletions of single keys -/

end Engine

/-- The write that deletes a key. -/
def RowKey.deletion (key : RowKey) : Write :=
  .delete key.table ⟨key.partition, key.sort⟩

namespace Engine

/-- Deleting keys leaves nothing under them and what was there under others. -/
theorem edits_of_deletions (keys : List RowKey) (values : RowKey → Option Bytes) (key : RowKey) :
    (keys.map RowKey.deletion).foldl (Write.edit engine) values key =
      if key ∈ keys then none else values key := by
  -- The keys are deleted one after another, and what is gone stays gone.
  induction keys generalizing values with
  | nil => rfl
  | cons first rest ih =>
    -- What the first deletion leaves is deleted again or not by the others.
    have once : first.deletion.edit engine values key = if key = first then none else values key := rfl
    rw [List.map_cons, List.foldl_cons, ih, once]
    by_cases later : key ∈ rest
    · rw [if_pos later, if_pos (.tail _ later)]
    · rw [if_neg later]
      simp only [List.mem_cons, later, or_false]

/-- A transaction that deletes few enough keys succeeds. -/
theorem answer_deletions (engine : Engine) (rows : Rows) {keys : List RowKey}
    (few : keys.length ≤ transactionLimit) : ∃ left,
      engine.answer rows (.transact (keys.map RowKey.deletion)) = (.ok (), left) ∧
      ∀ key, left.get? key = if key ∈ keys then none else rows.get? key := by
  -- Deletions require nothing.
  have unchecked : (keys.map RowKey.deletion).findSome? (Write.unmet? rows) = none := by
    rw [List.findSome?_eq_none_iff]
    intro write member
    obtain ⟨key, _, rfl⟩ := List.mem_map.1 member
    rfl
  refine ⟨(keys.map RowKey.deletion).foldl (Write.apply engine.clear) rows, ?_, fun key => ?_⟩
  · -- With nothing to require and few enough writes, the transaction is carried out.
    rw [answer_transact engine rows (by rwa [List.length_map]), unchecked]
  · rw [get?_writes, edits_of_deletions]

end Engine

end KeyDispensary
