import KeyDispensary.Config
import KeyDispensary.Keys.Slots

/-!
The dispensary hands out the keys of devices from four tables: pools of one-time elliptic-curve keys and
of one-time post-quantum keys, slots of legacy signed keys, and slots of last-resort post-quantum keys.
-/

namespace KeyDispensary

/-- A dispensary, by the tables that it works on. -/
structure Dispensary where
  tables : Tables
deriving DecidableEq

namespace Dispensary

/-- A dispensary for tables with sound names. -/
def make (tables : Tables) : Except KeyError Dispensary :=
  tables.validate.map fun _ => ⟨tables⟩

/-- The pools of one-time elliptic-curve keys. -/
def ecPool (dispensary : Dispensary) : Pool EcKey := ⟨dispensary.tables.ecPool⟩

/-- The pools of one-time post-quantum keys. -/
def pqPool (dispensary : Dispensary) : Pool SignedKemKey := ⟨dispensary.tables.pqPool⟩

/-- The slots of legacy signed keys. -/
def legacy (dispensary : Dispensary) : Slots SignedEcKey := ⟨dispensary.tables.legacy⟩

/-- The slots of last-resort keys. -/
def lastResort (dispensary : Dispensary) : Slots SignedKemKey := ⟨dispensary.tables.lastResort⟩

/-! ### One-time keys -/

/-- Takes a one-time elliptic-curve key. -/
def takeEc (dispensary : Dispensary) (identity : Identity) (device : Device) :
    Walk (Option Bytes) (Except KeyError (Option EcKey)) :=
  dispensary.ecPool.take identity device

/-- Takes a one-time post-quantum key, or reads the last-resort key when the pool is empty. -/
def takePq (dispensary : Dispensary) (identity : Identity) (device : Device) :
    Walk (Option Bytes) (Except KeyError (Option SignedKemKey)) :=
  (dispensary.pqPool.take identity device).andThen fun
    | .error error => .done (.error error)
    | .ok (some key) => .done (.ok (some key))
    | .ok none => dispensary.lastResort.find identity device

/-! ### Legacy and last-resort keys -/

/-- Stores a legacy key, unless the policy is not to store any. -/
def storeLegacy (dispensary : Dispensary) (policy : Policy) (identity : Identity)
    (device : Device) (key : SignedEcKey) : Program (Except KeyError Unit) :=
  if policy.storesLegacy then dispensary.legacy.store identity device key else .done (.ok ())

/-- The write that stores a legacy key, unless the policy is not to store any. -/
def legacyWrite? (dispensary : Dispensary) (policy : Policy) (identity : Identity)
    (device : Device) (key : SignedEcKey) : Option Write :=
  if policy.storesLegacy then some (dispensary.legacy.putWrite identity device key) else none

/-- The write that stores a last-resort key. -/
def lastResortWrite (dispensary : Dispensary) (identity : Identity) (device : Device)
    (key : SignedKemKey) : Write :=
  dispensary.lastResort.putWrite identity device key

/-- The keys that a new device brings, for the identity of its account and of its phone number. -/
structure NewDevice where
  accountSigned : SignedEcKey
  phoneSigned : SignedEcKey
  accountLastResort : SignedKemKey
  phoneLastResort : SignedKemKey
deriving DecidableEq

/-- The writes that add a device under both identities. -/
def newDeviceWrites (dispensary : Dispensary) (policy : Policy) (account phone : Identity)
    (device : Device) (keys : NewDevice) : List Write :=
  [dispensary.lastResort.putWrite account device keys.accountLastResort,
    dispensary.lastResort.putWrite phone device keys.phoneLastResort] ++
  if policy.storesLegacy then
    [dispensary.legacy.putWrite account device keys.accountSigned,
      dispensary.legacy.putWrite phone device keys.phoneSigned]
  else []

/-- The writes that remove a device from both identities. -/
def removedDeviceWrites (dispensary : Dispensary) (policy : Policy) (account phone : Identity)
    (device : Device) : List Write :=
  [dispensary.lastResort.deleteWrite account device,
    dispensary.lastResort.deleteWrite phone device] ++
  if policy.deletesLegacy then
    [dispensary.legacy.deleteWrite account device, dispensary.legacy.deleteWrite phone device]
  else []

/-! ### Deletion -/

/-- The first failure of two outcomes. -/
def firstFailure (first second : Except KeyError Unit) : Except KeyError Unit :=
  match first with
  | .ok () => second
  | .error error => .error error

/-- Runs both programs, the second also when the first fails. -/
def both (first second : Program (Except KeyError Unit)) : Program (Except KeyError Unit) :=
  first.bind fun outcome => second.map (firstFailure outcome)

/-- Deletes the one-time keys of all devices of an identity. -/
def deletePools (dispensary : Dispensary) (identity : Identity) : Program (Except KeyError Unit) :=
  both (dispensary.ecPool.delete identity) (dispensary.pqPool.delete identity)

/-- Deletes the one-time keys of one device. -/
def deleteDevicePools (dispensary : Dispensary) (identity : Identity) (device : Device) :
    Program (Except KeyError Unit) :=
  both (dispensary.ecPool.deleteDevice identity device)
    (dispensary.pqPool.deleteDevice identity device)

/-- Deletes the legacy keys of an identity, unless the policy is to keep them. -/
def deleteLegacy (dispensary : Dispensary) (policy : Policy) (identity : Identity) :
    Program (Except KeyError Unit) :=
  if policy.deletesLegacy then dispensary.legacy.delete identity else .done (.ok ())

/-- Deletes all keys of an identity; legacy keys only if the policy is to delete them. -/
def deleteAccount (dispensary : Dispensary) (policy : Policy) (identity : Identity) :
    Program (Except KeyError Unit) :=
  both (both (dispensary.deletePools identity) (dispensary.lastResort.delete identity))
    (dispensary.deleteLegacy policy identity)

end Dispensary

end KeyDispensary
