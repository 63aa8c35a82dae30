import KeyDispensary.Store.Call
import KeyDispensary.Store.Transaction

/-!
The store in a database: one table holds all rows, and ranges are found by a test of every row.

The beginning of an empty sort key is nothing at all, so no range holds such a row, not even the range
of all sort keys. A single row is found by its key whatever it is.
-/

namespace KeyDispensary

/-- A database: the version of its table and the table's rows, if it has been made. -/
structure Database where
  version : Int
  table : Option Rows
deriving DecidableEq

namespace Database

/-- A database that was never opened. -/
def fresh : Database := ⟨0, none⟩

/-- The version that is stored when one is given: it has 32 bits, and any other is stored as zero. -/
def storedVersion (version : Int) : Int :=
  if -2147483648 ≤ version ∧ version ≤ 2147483647 then version else 0

/-- Gives a database a version. -/
def withVersion (database : Database) (version : Int) : Database :=
  { database with version := storedVersion version }

/--
Opens a database.

One without a version gets the table, keeping one that is there; one of the expected version is
taken as it is; any other is refused.
-/
def opened (database : Database) : Except StoreError Database :=
  if database.version = 0 then .ok ⟨tableVersion, some (database.table.getD Rows.empty)⟩
  else if database.version = tableVersion then .ok database
  else .error (.unavailable (.version database.version))

/-- Whether a sort key begins with the given bytes; an empty sort key begins with nothing. -/
def begins (lead sort : Bytes) : Bool :=
  !sort.isEmpty && sort.take lead.length = lead

/-- Whether a row lies in a range. -/
def inRange (table : String) (partition lead : Bytes) (row : Row) : Bool :=
  row.key.table = table && row.key.partition = partition && lead ≤ row.key.sort &&
    begins lead row.key.sort

/-- The rows of a range. -/
def range (rows : Rows) (table : String) (partition lead : Bytes) : List Row :=
  rows.toList.filter (inRange table partition lead)

/-- Removes the rows of a range. -/
def clear : RangeRemoval := fun rows table partition lead =>
  rows.filter fun row => !inRange table partition lead row

/-- Whether a row lies in the range of a query and after its start. -/
def answers (query : Query) (row : Row) : Bool :=
  inRange query.table query.partition query.lead row &&
    match query.after with
    | none => true
    | some start => start < row.key.sort

/-- A page from rows of which one more than the limit was fetched. -/
def page (limit : Nat) (fetched : List Item) : Page :=
  if fetched.length ≤ limit then ⟨fetched, none⟩
  else ⟨fetched.take limit, (fetched.take limit).getLast?.map fun item => item.key.sort⟩

/-- The page that a query asks for. -/
def lookUp (rows : Rows) (query : Query) : Page :=
  page query.limit (((rows.toList.filter (answers query)).take (query.limit + 1)).map Row.item)

/-- Answers a call from the table's rows. -/
def performOn (rows : Rows) : (call : Call) → Reply call × Rows
  | .get table key => (.ok (rows.get? (RowKey.of table key)), rows)
  | .put table item => (.ok (), rows.insert (Row.of table item))
  | .delete table key =>
    match rows.get? (RowKey.of table key) with
    | none => (.ok none, rows)
    | some value => (.ok (some value), rows.erase (RowKey.of table key))
  | .query query => (.ok (lookUp rows query), rows)
  | .count table partition lead => (.ok (range rows table partition lead).length, rows)
  | .transact writes =>
    match checkSize writes with
    | .error error => (.error error, rows)
    | .ok () =>
      match applyWrites clear writes rows with
      | .error error => (.error error, rows)
      | .ok rows => (.ok (), rows)
  | .replace table partition lead items =>
    (.ok (), (clear rows table partition lead).putAll table items)

/-- Answers a call without a table: only a transaction without writes needs none. -/
def performWithout : (call : Call) → Reply call
  | .transact writes =>
    match checkSize writes with
    | .error error => .error error
    | .ok () => if writes.isEmpty then .ok () else .error (.database .noTable)
  | .get _ _ | .put _ _ | .delete _ _ | .query _ | .count _ _ _ | .replace _ _ _ _ =>
    .error (.database .noTable)

/-- Answers a call. -/
def perform (database : Database) (call : Call) : Reply call × Database :=
  match database.table with
  | none => (performWithout call, database)
  | some rows =>
    let (reply, rows) := performOn rows call
    (reply, { database with table := some rows })

/-- The number of rows. -/
def size (database : Database) : Nat :=
  (database.table.map Rows.size).getD 0

instance : Store Database := ⟨perform, fun database => database.size + 1⟩

end Database

end KeyDispensary
