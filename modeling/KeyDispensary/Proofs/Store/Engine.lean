import KeyDispensary.Proofs.Store.Ranges
import KeyDispensary.Store.Database

/-!
Both stores answer calls from the same rows, and they differ in nothing but the rows of a range: a
database leaves out a row without a sort key. Main statement: `Engine.perform_holding`.
-/

namespace KeyDispensary

/-- Where a store holds its rows. -/
inductive Engine where
  | memory
  | database
deriving DecidableEq

namespace Engine

/-- Whether an engine counts a row to a range. -/
def covers (engine : Engine) (table : String) (partition lead : Bytes) (row : Row) : Bool :=
  row.begins table partition lead && (engine = .memory || !row.key.sort.isEmpty)

/-- The rows of a range in ascending order. -/
def range (engine : Engine) (rows : Rows) (table : String) (partition lead : Bytes) : List Row :=
  rows.toList.filter (engine.covers table partition lead)

/-- The rows outside a range. -/
def clear (engine : Engine) : RangeRemoval := fun rows table partition lead =>
  rows.filter fun row => !engine.covers table partition lead row

/-- The rows of a query's range that come after its start. -/
def found (engine : Engine) (rows : Rows) (query : Query) : List Row :=
  (engine.range rows query.table query.partition query.lead).filter fun row =>
    Memory.isPast query.after row.key.sort

/-- What a call answers and leaves, in terms of ranges alone. -/
def answer (engine : Engine) (rows : Rows) : (call : Call) → Reply call × Rows
  | .get table key => (.ok (rows.get? (RowKey.of table key)), rows)
  | .put table item => (.ok (), rows.insert (Row.of table item))
  | .delete table key =>
    (.ok (rows.get? (RowKey.of table key)), rows.erase (RowKey.of table key))
  | .query query => (.ok (Memory.page query.limit ((engine.found rows query).map Row.item)), rows)
  | .count table partition lead => (.ok (engine.range rows table partition lead).length, rows)
  | .transact writes =>
    match checkSize writes with
    | .error error => (.error error, rows)
    | .ok () =>
      match applyWrites engine.clear writes rows with
      | .error error => (.error error, rows)
      | .ok rows => (.ok (), rows)
  | .replace table partition lead items =>
    (.ok (), (engine.clear rows table partition lead).putAll table items)

/-- The state of an engine. -/
def State : Engine → Type
  | .memory => Memory
  | .database => Database

instance : (engine : Engine) → Store engine.State
  | .memory => inferInstanceAs (Store Memory)
  | .database => inferInstanceAs (Store Database)

/-- The state of an engine that holds the given rows; a database has been opened. -/
def holding : (engine : Engine) → Rows → engine.State
  | .memory, rows => (⟨rows⟩ : Memory)
  | .database, rows => (⟨tableVersion, some rows⟩ : Database)

/-- The rows of a state. -/
def rows : (engine : Engine) → engine.State → Rows
  | .memory, (state : Memory) => state.rows
  | .database, (state : Database) => state.table.getD Rows.empty

/-- The rows of a state are those that it was made to hold. -/
@[simp] theorem rows_holding (engine : Engine) (rows : Rows) :
    engine.rows (engine.holding rows) = rows := by
  -- Neither engine adds anything to the rows.
  cases engine <;> rfl

/-- An engine pages through as many rounds as it has rows, and one more. -/
theorem rounds_holding (engine : Engine) (rows : Rows) :
    Store.rounds (engine.holding rows) = rows.size + 1 := by
  -- Both engines count their rows.
  cases engine <;> rfl

end Engine

/-! ### The two stores -/

namespace Memory

/-- The store in memory answers as its engine does. -/
theorem perform_eq (memory : Memory) (call : Call) :
    memory.perform call =
      ((Engine.memory.answer memory.rows call).1, ⟨(Engine.memory.answer memory.rows call).2⟩) := by
  -- Only ranges are computed otherwise.
  have covers : Engine.memory.covers = fun table partition lead row =>
      row.begins table partition lead := by
    funext table partition lead row
    simp [Engine.covers]
  have ranges : Memory.range = Engine.memory.range := by
    funext rows table partition lead
    rw [range_eq, Engine.range, covers]
  have clears : Memory.clear = Engine.memory.clear := by
    funext rows table partition lead
    rw [clear_eq, Engine.clear, covers]
  -- Once ranges are the same, each call is answered by the same rows.
  cases call with
  | get | put | delete => rfl
  | query query => simp only [perform, lookUp, Engine.answer, Engine.found, ranges]
  | count => simp only [perform, Engine.answer, ranges]
  | replace => simp only [perform, Engine.answer, clears]
  | transact writes =>
    simp only [perform, Engine.answer, clears]
    cases checkSize writes with
    | error error => rfl
    | ok =>
      cases applyWrites Engine.memory.clear writes memory.rows <;> rfl

end Memory

namespace Database

/-- The test of a database finds the rows that its engine counts to a range. -/
theorem inRange_eq (table : String) (partition lead : Bytes) (row : Row) :
    inRange table partition lead row = Engine.database.covers table partition lead row := by
  -- Bytes that a sort key begins with do not come after it.
  have leads : (row.key.sort.take lead.length = lead) ↔ lead.isPrefixOf row.key.sort := by
    rw [List.isPrefixOf_iff_prefix, List.prefix_iff_eq_take, eq_comm]
  -- The lower end of the range is no further condition on a sort key that begins as asked.
  by_cases prefixed : lead.isPrefixOf row.key.sort
  · have notAfter : lead ≤ row.key.sort := not_lt_of_begins prefixed
    simp [inRange, begins, Engine.covers, Row.begins, Row.within, leads.2 prefixed, prefixed,
      notAfter, Bool.and_assoc]
  · simp [inRange, begins, Engine.covers, Row.begins, leads, prefixed]

/-- One item more than the limit shows whether more items follow. -/
theorem page_take (limit : Nat) (items : List Item) :
    page limit (items.take (limit + 1)) = Memory.page limit items := by
  -- The extra item is there exactly if something is left after the limit.
  by_cases short : items.length ≤ limit
  · have all : items.take (limit + 1) = items := List.take_of_length_le (by omega)
    simp [page, Memory.page, all, short, List.drop_eq_nil_of_le short, List.take_of_length_le short]
  · have more : ¬ (items.take (limit + 1)).length ≤ limit := by
      rw [List.length_take]
      omega
    -- Something is left after the limit, and the extra item is the first of it.
    cases rest : items.drop limit with
    | nil => exact absurd (List.drop_eq_nil_iff.1 rest) short
    | cons next rest =>
      rw [page, if_neg more, List.take_take, Nat.min_eq_left (by omega)]
      simp only [Memory.page, rest]

/-- A database with a table answers as its engine does. -/
theorem performOn_eq (rows : Rows) (call : Call) :
    performOn rows call = Engine.database.answer rows call := by
  -- Only ranges are computed otherwise, and a row that is not there need not be removed.
  have tests : inRange = Engine.database.covers := by
    funext table partition lead row
    exact inRange_eq table partition lead row
  have clears : Database.clear = Engine.database.clear := by
    funext rows table partition lead
    rw [clear, Engine.clear, tests]
  cases call with
  | get | put => rfl
  | delete table key =>
    simp only [performOn, Engine.answer]
    -- Erasing a key under which there is nothing changes nothing.
    cases held : rows.get? (RowKey.of table key) with
    | some value => rfl
    | none => rw [Rows.erase_of_absent held]
  | query query =>
    -- The two tests of a query are made at once or one after the other.
    have answered : rows.toList.filter (answers query) = Engine.database.found rows query := by
      rw [Engine.found, Engine.range, List.filter_filter]
      congr
      funext row
      rw [answers, tests, Bool.and_comm]
      cases query.after <;> rfl
    simp only [performOn, Engine.answer, lookUp, List.map_take, page_take, answered]
  | count => simp only [performOn, Engine.answer, range, Engine.range, tests]
  | replace => simp only [performOn, Engine.answer, clears]
  | transact writes =>
    rw [Engine.answer, ← clears]
    rfl

end Database

/-- A state that holds rows answers from them and holds what the call leaves. -/
theorem Engine.perform_holding (engine : Engine) (rows : Rows) (call : Call) :
    Store.perform (engine.holding rows) call =
      ((engine.answer rows call).1, engine.holding (engine.answer rows call).2) := by
  -- Each store was compared with its engine.
  cases engine with
  | memory => exact Memory.perform_eq ⟨rows⟩ call
  | database =>
    change Database.perform ⟨tableVersion, some rows⟩ call = _
    simp only [Database.perform, Database.performOn_eq]
    rfl

end KeyDispensary
