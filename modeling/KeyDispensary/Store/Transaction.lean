import KeyDispensary.Store.Rows

/-! Transactions on rows: conditions are settled first, and only then is anything written. -/

namespace KeyDispensary

/-- Removes the rows of a partition of a table whose sort keys begin with the given bytes. -/
abbrev RangeRemoval := Rows → String → Bytes → Bytes → Rows

/-- The conflict of a check that does not hold of the rows. -/
def Write.unmet? (rows : Rows) : Write → Option Conflict
  | .check table key condition =>
    if condition.holds (rows.get? (RowKey.of table key)).isSome then none
    else some (.unmet condition table)
  | _ => none

/-- What a write makes of the rows. -/
def Write.apply (clear : RangeRemoval) (rows : Rows) : Write → Rows
  | .put table item => rows.insert (Row.of table item)
  | .delete table key => rows.erase (RowKey.of table key)
  | .deleteRange table partition lead => clear rows table partition lead
  | .check _ _ _ => rows

/-- Refuses a transaction of too many writes. -/
def checkSize (writes : List Write) : Except StoreError Unit :=
  if transactionLimit < writes.length then .error (.tooLarge writes.length transactionLimit)
  else .ok ()

/-- Carries out writes in order, if all checks among them hold of the rows before. -/
def applyWrites (clear : RangeRemoval) (writes : List Write) (rows : Rows) :
    Except StoreError Rows :=
  match writes.findSome? (Write.unmet? rows) with
  | some reason => .error (.conflict reason)
  | none => .ok (writes.foldl (Write.apply clear) rows)

/-- Puts items into a table, each in place of any item under its key. -/
def Rows.putAll (rows : Rows) (table : String) (items : List Item) : Rows :=
  items.foldl (fun rows item => rows.insert (Row.of table item)) rows

end KeyDispensary
