import KeyDispensary.Bytes

/-! What a store of rows is asked for, and why it may fail. -/

namespace KeyDispensary

/-- The place of an item within a table: items of one partition are ordered by their sort keys. -/
structure Key where
  partition : Bytes
  sort : Bytes
deriving DecidableEq

/-- A value and its place. -/
structure Item where
  key : Key
  value : Bytes
deriving DecidableEq

/-- What a transaction may require of a key before any of its writes. -/
inductive Condition where
  | present
  | absent
deriving DecidableEq

/-- Whether the condition holds of a key that has an item or none. -/
def Condition.holds : Condition → Bool → Bool
  | .present, found => found
  | .absent, found => !found

/-- The name of the condition in messages. -/
def Condition.name : Condition → String
  | .present => "Exists"
  | .absent => "NotExists"

/-- One part of a transaction. -/
inductive Write where
  /-- Puts an item in place of any item under its key. -/
  | put (table : String) (item : Item)
  /-- Removes the item under a key, if there is one. -/
  | delete (table : String) (key : Key)
  /-- Removes the items of a partition whose sort keys begin with the given bytes. -/
  | deleteRange (table : String) (partition lead : Bytes)
  /-- Requires a condition of a key and writes nothing. -/
  | check (table : String) (key : Key) (condition : Condition)
deriving DecidableEq

/-- The table that a write concerns. -/
def Write.table : Write → String
  | .put table _ | .delete table _ | .deleteRange table _ _ | .check table _ _ => table

/-- Asks for a page of the items of a partition, in ascending order of their sort keys. -/
structure Query where
  table : String
  partition : Bytes
  /-- What the sort keys begin with. -/
  lead : Bytes
  /-- The sort key that the page starts after, if any. -/
  after : Option Bytes
  /-- The greatest number of items of the page. -/
  limit : Nat
deriving DecidableEq

/-- The limit of a query for everything. -/
def Query.unlimited : Nat := 18446744073709551615

/-- Items in order, and the last sort key if more items follow. -/
structure Page where
  items : List Item
  last : Option Bytes
deriving DecidableEq

/-- The greatest number of writes in one transaction, checks included. -/
def transactionLimit : Nat := 100

/-- Why a transaction was not carried out. -/
inductive Conflict where
  /-- A condition did not hold. -/
  | unmet (condition : Condition) (table : String)
  /-- The store said so in its own words. -/
  | reported (text : String)
deriving DecidableEq

/-- Why a store does not answer. -/
inductive Outage where
  /-- The database was made for another version of the table. -/
  | version (found : Int)
  /-- The store said so in its own words. -/
  | reported (text : String)
deriving DecidableEq

/-- What is wrong with a database. -/
inductive DatabaseFault where
  | noTable
  | notDatabase
  | cannotOpen
  | readOnly
  | locked
deriving DecidableEq

/-- Why a call to a store failed. -/
inductive StoreError where
  | conflict (reason : Conflict)
  | tooLarge (count limit : Nat)
  | unavailable (reason : Outage)
  | database (fault : DatabaseFault)
deriving DecidableEq

/-- The version of the table that a database is made with. -/
def tableVersion : Int := 1

/-- What is said of a conflict. -/
def Conflict.message : Conflict → String
  | .unmet condition table => s!"condition {condition.name} failed in table {table}"
  | .reported text => text

/-- What is said of an outage. -/
def Outage.message : Outage → String
  | .version found => s!"unsupported schema version {found} (expected {tableVersion})"
  | .reported text => text

/-- What is said of a faulty database. -/
def DatabaseFault.message : DatabaseFault → String
  | .noTable => "no such table: items"
  | .notDatabase => "file is not a database"
  | .cannotOpen => "unable to open database file"
  | .readOnly => "attempt to write a readonly database"
  | .locked => "database is locked"

/-- The text that reports the error. -/
def StoreError.message : StoreError → String
  | .conflict reason => s!"transaction conflict: {reason.message}"
  | .tooLarge count limit => s!"transaction has {count} items, limit is {limit}"
  | .unavailable reason => s!"store unavailable: {reason.message}"
  | .database fault => s!"sqlite error: {fault.message}"

/-- Whether a transaction failed for a reason that a new attempt may not meet. -/
def StoreError.isConflict : StoreError → Bool
  | .conflict _ => true
  | _ => false

end KeyDispensary
