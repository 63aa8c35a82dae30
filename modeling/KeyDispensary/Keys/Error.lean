import KeyDispensary.Json.Error
import KeyDispensary.Store.Disk

/-! Why an operation on keys fails. -/

namespace KeyDispensary

/-- What is wrong with a stored item. -/
inductive Malformed where
  /-- The value is no record of the wanted type. -/
  | value (error : Json.Error)
  /-- The sort key does not consist of a device alone. -/
  | sortKey (length : Nat)
deriving DecidableEq

/-- What is said of a malformed item. -/
def Malformed.message : Malformed → String
  | .value error => error.message
  | .sortKey length => s!"expected 1-byte sort key, got {length} bytes"

/-- What is wrong with a configuration. -/
inductive Misconfigured where
  | emptyTableName
  | sharedTableName
  | badConfig (error : Json.Error)
  | badPolicy (error : Json.Error)
  | unreadable (path : String) (fault : ReadFault)
deriving DecidableEq

/-- What is said of a faulty configuration. -/
def Misconfigured.message : Misconfigured → String
  | .emptyTableName => "table names must not be empty"
  | .sharedTableName => "table names must be distinct"
  | .badConfig error => s!"invalid config: {error.message}"
  | .badPolicy error => s!"invalid migration policy: {error.message}"
  | .unreadable path fault => s!"failed to read {path}: {fault.message}"

/-- Why an operation on keys fails. -/
inductive KeyError where
  | store (error : StoreError)
  | malformed (table : String) (reason : Malformed)
  | misconfigured (reason : Misconfigured)
deriving DecidableEq

/-- The text that reports the error. -/
def KeyError.message : KeyError → String
  | .store error => error.message
  | .malformed table reason => s!"malformed item in {table}: {reason.message}"
  | .misconfigured reason => s!"configuration error: {reason.message}"

/-- Whether a transaction failed for a reason that a new attempt may not meet. -/
def KeyError.isConflict : KeyError → Bool
  | .store error => error.isConflict
  | _ => false

end KeyDispensary
