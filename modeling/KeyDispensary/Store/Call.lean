import KeyDispensary.Store.Item
import KeyDispensary.Text.Hex

/-! The calls that a store answers, each with the type of its answer. -/

namespace KeyDispensary

/-- One call to a store; a store carries out each call as a whole or not at all. -/
inductive Call where
  /-- Asks for the value under a key. -/
  | get (table : String) (key : Key)
  /-- Puts an item in place of any item under its key. -/
  | put (table : String) (item : Item)
  /-- Removes the item under a key and asks for its value. -/
  | delete (table : String) (key : Key)
  /-- Asks for a page of items. -/
  | query (query : Query)
  /-- Asks how many sort keys of a partition begin with the given bytes. -/
  | count (table : String) (partition lead : Bytes)
  /-- Carries out a transaction. -/
  | transact (writes : List Write)
  /-- Removes the items whose sort keys begin with the given bytes, then puts others. -/
  | replace (table : String) (partition lead : Bytes) (items : List Item)
deriving DecidableEq

/-- What a call answers when it succeeds. -/
abbrev Call.Answer : Call → Type
  | .get _ _ | .delete _ _ => Option Bytes
  | .put _ _ | .transact _ | .replace _ _ _ _ => Unit
  | .query _ => Page
  | .count _ _ _ => Nat

/-- The answer to a call or the reason why it failed. -/
abbrev Reply (call : Call) := Except StoreError call.Answer

/-- The kinds of calls. -/
inductive CallKind where
  | get
  | put
  | delete
  | query
  | count
  | transact
  | replace
deriving DecidableEq

/-- The kind of a call. -/
def Call.kind : Call → CallKind
  | .get _ _ => .get
  | .put _ _ => .put
  | .delete _ _ => .delete
  | .query _ => .query
  | .count _ _ _ => .count
  | .transact _ => .transact
  | .replace _ _ _ _ => .replace

/-- The table of a call; a transaction has the table of its first write, if it has one. -/
def Call.table? : Call → Option String
  | .get table _ | .put table _ | .delete table _ | .count table _ _ | .replace table _ _ _ =>
    some table
  | .query asked => some asked.table
  | .transact writes => writes.head?.map Write.table

/-- A state that answers calls. -/
class Store (σ : Type) where
  /-- Answers a call and changes the state. -/
  perform : σ → (call : Call) → Reply call × σ
  /-- A number of pages within which paging through any range ends. -/
  rounds : σ → Nat

/-- A key in the notes of calls. -/
def Key.note (key : Key) : String :=
  s!"{Hex.text key.partition}/{Hex.text key.sort}"

/-- A write in the notes of calls. -/
def Write.note : Write → String
  | .put table item => s!"put:{table}:{item.key.note}"
  | .delete table key => s!"delete:{table}:{key.note}"
  | .deleteRange table partition lead =>
    s!"delete_prefix:{table}:{Hex.text partition}/{Hex.text lead}"
  | .check table key condition => s!"check:{table}:{key.note}:{condition.name}"

/-- A limit in the notes of calls. -/
def limitNote (limit : Nat) : String :=
  if limit = Query.unlimited then "max" else toString limit

/-- The line that notes a call. -/
def Call.note : Call → String
  | .get table key => s!"get_item {table} {key.note}"
  | .put table item => s!"put_item {table} {item.key.note}"
  | .delete table key => s!"delete_item {table} {key.note}"
  | .query asked =>
    let start := (asked.after.map Hex.text).getD "-"
    s!"query {asked.table} {Hex.text asked.partition} prefix={Hex.text asked.lead}" ++
      s!" start={start} limit={limitNote asked.limit}"
  | .count table partition lead =>
    s!"count {table} {Hex.text partition} prefix={Hex.text lead}"
  | .transact writes => "transact_write " ++ " ".intercalate (writes.map Write.note)
  | .replace table partition lead items =>
    s!"replace_prefix {table} {Hex.text partition} prefix={Hex.text lead} items=" ++
      ",".intercalate (items.map fun item => Hex.text item.key.sort)

end KeyDispensary
