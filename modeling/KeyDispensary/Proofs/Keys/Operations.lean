import KeyDispensary.Dispensary
import KeyDispensary.Proofs.Store.Crew

/-!
The operations of a dispensary as data, each with the walk that carries it out, so that what holds of all
of them is said once.
-/

namespace KeyDispensary

/-- An operation of a dispensary. -/
inductive Operation where
  | storeEc (identity : Identity) (device : Device) (keys : List EcKey)
  | storePq (identity : Identity) (device : Device) (keys : List SignedKemKey)
  | takeEc (identity : Identity) (device : Device)
  | takePq (identity : Identity) (device : Device)
  | countEc (identity : Identity) (device : Device)
  | countPq (identity : Identity) (device : Device)
  | storeLegacy (identity : Identity) (device : Device) (key : SignedEcKey)
  | storeLastResort (identity : Identity) (device : Device) (key : SignedKemKey)
  | findLegacy (identity : Identity) (device : Device)
  | findLastResort (identity : Identity) (device : Device)
  /-- Lists all devices with a last-resort key. -/
  | listDevices (identity : Identity)
  /-- Hands out such devices one by one, as many as are wanted. -/
  | streamDevices (identity : Identity) (wanted : Option Nat)
  | deletePools (identity : Identity)
  | deleteDevicePools (identity : Identity) (device : Device)
  | deleteAccount (identity : Identity)
  | legacyWrite (identity : Identity) (device : Device) (key : SignedEcKey)
  | lastResortWrite (identity : Identity) (device : Device) (key : SignedKemKey)
  | newDeviceWrites (account phone : Identity) (device : Device) (keys : Dispensary.NewDevice)
  | removedDeviceWrites (account phone : Identity) (device : Device)

namespace Operation

/-- What an operation answers; writes that are built for the caller cannot fail. -/
abbrev Answer : Operation → Type
  | .storeEc _ _ _ | .storePq _ _ _ | .storeLegacy _ _ _ | .storeLastResort _ _ _ | .deletePools _
  | .deleteDevicePools _ _ | .deleteAccount _ => Except KeyError Unit
  | .takeEc _ _ => Except KeyError (Option EcKey)
  | .takePq _ _ | .findLastResort _ _ => Except KeyError (Option SignedKemKey)
  | .findLegacy _ _ => Except KeyError (Option SignedEcKey)
  | .countEc _ _ | .countPq _ _ => Except KeyError Nat
  | .listDevices _ => Except KeyError (List Device)
  | .streamDevices _ _ => Listing
  | .legacyWrite _ _ _ => Option Write
  | .lastResortWrite _ _ _ => Write
  | .newDeviceWrites _ _ _ _ | .removedDeviceWrites _ _ _ => List Write

/-- Where the rounds of an operation start. -/
abbrev Place : Operation → Type
  | .takeEc _ _ | .takePq _ _ => Option Bytes
  | .listDevices _ | .streamDevices _ _ => Slots.ListingPlace
  | _ => Unit

/-- The walk that carries out an operation under a policy. -/
def walk (dispensary : Dispensary) (policy : Policy) :
    (operation : Operation) → Walk operation.Place operation.Answer
  | .storeEc identity device keys => .once (dispensary.ecPool.store identity device keys)
  | .storePq identity device keys => .once (dispensary.pqPool.store identity device keys)
  | .takeEc identity device => dispensary.takeEc identity device
  | .takePq identity device => dispensary.takePq identity device
  | .countEc identity device => .once (dispensary.ecPool.count identity device)
  | .countPq identity device => .once (dispensary.pqPool.count identity device)
  | .storeLegacy identity device key => .once (dispensary.storeLegacy policy identity device key)
  | .storeLastResort identity device key => .once (dispensary.lastResort.store identity device key)
  | .findLegacy identity device => .once (dispensary.legacy.find identity device)
  | .findLastResort identity device => .once (dispensary.lastResort.find identity device)
  | .listDevices identity => dispensary.lastResort.devices identity
  | .streamDevices identity wanted => dispensary.lastResort.list identity wanted
  | .deletePools identity => .once (dispensary.deletePools identity)
  | .deleteDevicePools identity device => .once (dispensary.deleteDevicePools identity device)
  | .deleteAccount identity => .once (dispensary.deleteAccount policy identity)
  | .legacyWrite identity device key =>
    .once (.done (dispensary.legacyWrite? policy identity device key))
  | .lastResortWrite identity device key =>
    .once (.done (dispensary.lastResortWrite identity device key))
  | .newDeviceWrites account phone device keys =>
    .once (.done (dispensary.newDeviceWrites policy account phone device keys))
  | .removedDeviceWrites account phone device =>
    .once (.done (dispensary.removedDeviceWrites policy account phone device))

/-- An operation that has made no call yet. -/
def task (dispensary : Dispensary) (policy : Policy) (operation : Operation) : Task :=
  .begun (operation.walk dispensary policy)

end Operation

/-- What an outcome says of a failure. -/
def failureOf? {ε α : Type} : Except ε α → Option ε
  | .ok _ => none
  | .error error => some error

/-- The error at which a listing ended, if it failed. -/
def Listing.failure? (listing : Listing) : Option KeyError :=
  match listing.ending with
  | .failed error => some error
  | .enough | .exhausted => none

namespace Operation

/-- The failure that an operation reports, if it does. -/
def failure? : (operation : Operation) → operation.Answer → Option KeyError
  | .storeEc _ _ _, outcome | .storePq _ _ _, outcome | .storeLegacy _ _ _, outcome
  | .storeLastResort _ _ _, outcome | .deletePools _, outcome | .deleteDevicePools _ _, outcome
  | .deleteAccount _, outcome | .takeEc _ _, outcome | .takePq _ _, outcome
  | .findLastResort _ _, outcome | .findLegacy _ _, outcome | .countEc _ _, outcome
  | .countPq _ _, outcome | .listDevices _, outcome => failureOf? outcome
  | .streamDevices _ _, listing => Listing.failure? listing
  | .legacyWrite _ _ _, _ | .lastResortWrite _ _ _, _ | .newDeviceWrites _ _ _ _, _
  | .removedDeviceWrites _ _ _, _ => none

/-- Whether an operation is one of the three deletions. -/
def isDeletion : Operation → Bool
  | .deletePools _ | .deleteDevicePools _ _ | .deleteAccount _ => true
  | _ => false

end Operation

end KeyDispensary
