import KeyDispensary.Keys.Layout
import KeyDispensary.Store.Program

/-!
Pools of one-time keys. Each device of an identity has a pool in a table. Storing keys replaces the
whole pool, and taking a key removes it: a key goes to the caller whose removal found it.
-/

namespace KeyDispensary

/-- The pools that one table holds. -/
structure Pool (κ : Type) where
  table : String

namespace Pool

variable {κ : Type}

/-- A reply of the store as a reply to the caller. -/
def settled {α : Type} (reply : Except StoreError α) : Program (Except KeyError α) :=
  .done (reply.mapError KeyError.store)

variable [Record κ]

/-- The item that a key is stored as. -/
def item (identity : Identity) (device : Device) (key : κ) : Item :=
  ⟨poolKey identity device (Record.keyId key), Record.encode key⟩

/-- Replaces the pool of a device by the given keys; of several with one id the last stays. -/
def store (pool : Pool κ) (identity : Identity) (device : Device) (keys : List κ) :
    Program (Except KeyError Unit) :=
  .ask (.replace pool.table identity.partition device.lead (keys.map (item identity device)))
    settled

/-- How a take proceeds: from a sort key on, or from the beginning, to a key or to none. -/
abbrev Taking (κ : Type) := Progress (Option Bytes) (Except KeyError (Option κ))

/--
Claims the candidates of a page one by one, until one is won by its removal.

When all are lost to other callers, the take goes on after the page or finds the pool empty.
-/
def claim (pool : Pool κ) : List Item → Option Bytes → Program (Taking κ)
  | [], some last => .done (.more (some last))
  | [], none => .done (.finished (.ok none))
  | candidate :: rest, last => .ask (.delete pool.table candidate.key) fun
    | .error error => .done (.finished (.error (.store error)))
    | .ok (some value) => .done (.finished ((recordOf κ pool.table value).map some))
    | .ok none => pool.claim rest last

/-- Asks for the first key after a place and claims it. -/
def takeFrom (pool : Pool κ) (identity : Identity) (device : Device) (after : Option Bytes) :
    Program (Taking κ) :=
  .ask (.query ⟨pool.table, identity.partition, device.lead, after, 1⟩) fun
    | .error error => .done (.finished (.error (.store error)))
    | .ok page => pool.claim page.items page.last

/-- Takes the key of the smallest id out of the pool of a device, or finds the pool empty. -/
def take (pool : Pool κ) (identity : Identity) (device : Device) :
    Walk (Option Bytes) (Except KeyError (Option κ)) where
  start := none
  round := pool.takeFrom identity device

omit [Record κ]

/-- Counts the keys in the pool of a device. -/
def count (pool : Pool κ) (identity : Identity) (device : Device) :
    Program (Except KeyError Nat) :=
  .ask (.count pool.table identity.partition device.lead) settled

/-- Deletes the pools of all devices of an identity. -/
def delete (pool : Pool κ) (identity : Identity) : Program (Except KeyError Unit) :=
  .ask (.transact [.deleteRange pool.table identity.partition []]) settled

/-- Deletes the pool of one device. -/
def deleteDevice (pool : Pool κ) (identity : Identity) (device : Device) :
    Program (Except KeyError Unit) :=
  .ask (.transact [.deleteRange pool.table identity.partition device.lead]) settled

end Pool

end KeyDispensary
