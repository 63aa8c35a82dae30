import KeyDispensary.Store.Call

/-!
A probe passes calls on to a store, notes them, and fails as it was told: it plays outages, callers who
were faster, and pages that the store would not answer.
-/

namespace KeyDispensary

/-- What a fault does to a call. -/
inductive Deed where
  /-- The call fails and does not reach the store. -/
  | fail (error : StoreError)
  /-- The item that is to be removed is removed by another caller first. -/
  | steal
  /-- A query answers these sort keys and values and does not reach the store. -/
  | answer (items : List (Bytes × Bytes)) (last : Option Bytes)
deriving DecidableEq

/-- A deed and the calls that it is done to. -/
structure ScriptedFault where
  kind : CallKind
  /-- The table that the calls must concern, if any. -/
  table : Option String
  /-- The first matching call that the deed is done to, counted from one. -/
  first : Nat
  /-- The last such call. -/
  last : Nat
  deed : Deed
  /-- How many matching calls were seen. -/
  seen : Nat := 0
deriving DecidableEq

namespace ScriptedFault

/-- Whether a call is one of those that the fault counts. -/
def covers (fault : ScriptedFault) (call : Call) : Bool :=
  fault.kind = call.kind &&
    match fault.table with
    | none => true
    | some table => call.table? = some table

/-- Counts a call. -/
def count (fault : ScriptedFault) (call : Call) : ScriptedFault :=
  if fault.covers call then { fault with seen := fault.seen + 1 } else fault

/-- Whether the deed is done to a call that was just counted. -/
def isDue (fault : ScriptedFault) (call : Call) : Bool :=
  fault.covers call && fault.first ≤ fault.seen && fault.seen ≤ fault.last

/-- How many more pages the fault may answer. -/
def pagesLeft (fault : ScriptedFault) : Nat :=
  match fault.deed with
  | .answer _ _ => fault.last - fault.seen
  | _ => 0

end ScriptedFault

/-- A store with faults that are done to its calls, and the calls that were made. -/
structure Probe (σ : Type) where
  store : σ
  faults : List ScriptedFault
  calls : List Call

namespace Probe

variable {σ : Type}

/-- Passes a call on. -/
def pass [Store σ] (probe : Probe σ) (call : Call) : Reply call × Probe σ :=
  let (reply, store) := Store.perform probe.store call
  (reply, { probe with store := store })

/-- Does a deed to a call; a deed that does not fit the call changes nothing. -/
def meet [Store σ] (probe : Probe σ) (deed : Deed) : (call : Call) → Reply call × Probe σ
  | .delete table key =>
    match deed with
    | .fail error => (.error error, probe)
    -- The value that the other caller got is not seen here.
    | .steal => (probe.pass (.delete table key)).2.pass (.delete table key)
    | .answer _ _ => probe.pass (.delete table key)
  | .query asked =>
    match deed with
    | .fail error => (.error error, probe)
    | .answer items last =>
      (.ok ⟨items.map fun (sort, value) => ⟨⟨asked.partition, sort⟩, value⟩, last⟩, probe)
    | .steal => probe.pass (.query asked)
  | call =>
    match deed with
    | .fail error => (.error error, probe)
    | _ => probe.pass call

/-- Notes and counts a call, then does to it the first deed that is due, or passes it on. -/
def perform [Store σ] (probe : Probe σ) (call : Call) : Reply call × Probe σ :=
  let faults := probe.faults.map fun fault => fault.count call
  let probe := { probe with faults := faults, calls := probe.calls ++ [call] }
  match faults.find? fun fault => fault.isDue call with
  | some fault => probe.meet fault.deed call
  | none => probe.pass call

/-- How many more pages the faults may answer. -/
def pagesLeft (probe : Probe σ) : Nat :=
  probe.faults.foldr (fun fault more => fault.pagesLeft + more) 0

/-- Each page that a fault answers may send the reader back to the first row. -/
instance [Store σ] : Store (Probe σ) :=
  ⟨perform, fun probe => (probe.pagesLeft + 1) * (Store.rounds probe.store + 1)⟩

end Probe

end KeyDispensary
