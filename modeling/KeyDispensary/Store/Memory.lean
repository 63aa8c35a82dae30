import KeyDispensary.Store.Call
import KeyDispensary.Store.Transaction

/-! The store in memory: ranges of rows are walked from their first possible key on. -/

namespace KeyDispensary

/-- Rows held in memory. -/
structure Memory where
  rows : Rows
deriving DecidableEq

namespace Memory

/-- A store without rows. -/
def empty : Memory := ⟨Rows.empty⟩

/--
The rows of a partition whose sort keys begin with the given bytes.

They stand together from the key of those bytes on, so the walk ends at the first other row.
-/
def range (rows : Rows) (table : String) (partition lead : Bytes) : List Row :=
  (rows.toList.dropWhile fun row => row.key < ⟨table, partition, lead⟩).takeWhile fun row =>
    row.within table partition && lead.isPrefixOf row.key.sort

/-- Removes the rows of a range one by one. -/
def clear : RangeRemoval := fun rows table partition lead =>
  (range rows table partition lead).foldl (fun rows row => rows.erase row.key) rows

/-- Whether a sort key comes after the start of a query. -/
def isPast (after : Option Bytes) (sort : Bytes) : Bool :=
  match after with
  | none => true
  | some start => start < sort

/-- A page of items up to a limit; whether more follow is seen by looking one item ahead. -/
def page (limit : Nat) (items : List Item) : Page :=
  let taken := items.take limit
  match items.drop limit with
  | [] => ⟨taken, none⟩
  | _ :: _ => ⟨taken, taken.getLast?.map fun item => item.key.sort⟩

/-- The page that a query asks for. -/
def lookUp (rows : Rows) (query : Query) : Page :=
  page query.limit (((range rows query.table query.partition query.lead).filter fun row =>
    isPast query.after row.key.sort).map Row.item)

/-- Answers a call. -/
def perform (memory : Memory) : (call : Call) → Reply call × Memory
  | .get table key => (.ok (memory.rows.get? (RowKey.of table key)), memory)
  | .put table item => (.ok (), ⟨memory.rows.insert (Row.of table item)⟩)
  | .delete table key =>
    (.ok (memory.rows.get? (RowKey.of table key)), ⟨memory.rows.erase (RowKey.of table key)⟩)
  | .query query => (.ok (lookUp memory.rows query), memory)
  | .count table partition lead => (.ok (range memory.rows table partition lead).length, memory)
  | .transact writes =>
    match checkSize writes with
    | .error error => (.error error, memory)
    | .ok () =>
      match applyWrites clear writes memory.rows with
      | .error error => (.error error, memory)
      | .ok rows => (.ok (), ⟨rows⟩)
  | .replace table partition lead items =>
    (.ok (), ⟨(clear memory.rows table partition lead).putAll table items⟩)

instance : Store Memory := ⟨perform, fun memory => memory.rows.size + 1⟩

end Memory

end KeyDispensary
