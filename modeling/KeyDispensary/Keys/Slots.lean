import KeyDispensary.Keys.Pool

/-!
Slots of repeatedly used keys. Each device of an identity has one slot in a table, and storing a key
overwrites it. The devices whose slots are filled are listed page by page.
-/

namespace KeyDispensary

/-- The slots that one table holds. -/
structure Slots (κ : Type) where
  table : String

/-- How a listing of devices ended. -/
inductive Ending where
  /-- As many devices as were asked for have been listed. -/
  | enough
  /-- No device is left. -/
  | exhausted
  | failed (error : KeyError)
deriving DecidableEq

/-- The devices that were listed, and how that ended. -/
structure Listing where
  devices : List Device
  ending : Ending
deriving DecidableEq

namespace Slots

variable {κ : Type}

/-- The number of devices in a page. -/
def pageSize : Nat := 16

section
variable [Record κ]

/-- The item that a key is stored as. -/
def item (identity : Identity) (device : Device) (key : κ) : Item :=
  ⟨slotKey identity device, Record.encode key⟩

/-- Fills the slot of a device. -/
def store (slots : Slots κ) (identity : Identity) (device : Device) (key : κ) :
    Program (Except KeyError Unit) :=
  .ask (.put slots.table (item identity device key)) Pool.settled

/-- The key in the slot of a device, if it is filled. -/
def find (slots : Slots κ) (identity : Identity) (device : Device) :
    Program (Except KeyError (Option κ)) :=
  .ask (.get slots.table (slotKey identity device)) fun
    | .error error => .done (.error (.store error))
    | .ok none => .done (.ok none)
    | .ok (some value) => .done ((recordOf κ slots.table value).map some)

/-- The write that fills the slot of a device, for a transaction of the caller's. -/
def putWrite (slots : Slots κ) (identity : Identity) (device : Device) (key : κ) : Write :=
  .put slots.table (item identity device key)

end

/-- The write that empties the slot of a device, for a transaction of the caller's. -/
def deleteWrite (slots : Slots κ) (identity : Identity) (device : Device) : Write :=
  .delete slots.table (slotKey identity device)

/-- Empties the slots of all devices of an identity. -/
def delete (slots : Slots κ) (identity : Identity) : Program (Except KeyError Unit) :=
  .ask (.transact [.deleteRange slots.table identity.partition []]) Pool.settled

/-- Where a listing stands: the devices listed so far, and the sort key to go on after. -/
structure ListingPlace where
  listed : List Device
  after : Option Bytes
deriving DecidableEq

/-- Whether a listing has as many devices as are wanted. -/
def isEnough (wanted : Option Nat) (listed : List Device) : Bool :=
  match wanted with
  | none => false
  | some wanted => wanted ≤ listed.length

/-- The devices that are handed out of those that are listed. -/
def handedOut (wanted : Option Nat) (listed : List Device) : List Device :=
  match wanted with
  | none => listed
  | some wanted => listed.take wanted

/-- How a listing goes on when a page has been read; a page with a malformed item lists nothing. -/
def afterPage (slots : Slots κ) (wanted : Option Nat) (listed : List Device) (page : Page) :
    Progress ListingPlace Listing :=
  match devicesOf slots.table page.items with
  | .error error => .finished ⟨listed, .failed error⟩
  | .ok devices =>
    let listed := listed ++ devices
    if isEnough wanted listed then .finished ⟨handedOut wanted listed, .enough⟩
    else
      match page.last with
      | none => .finished ⟨listed, .exhausted⟩
      | some last => .more ⟨listed, some last⟩

/-- Reads a page of devices, unless enough have been listed. -/
def listFrom (slots : Slots κ) (identity : Identity) (wanted : Option Nat)
    (place : ListingPlace) : Program (Progress ListingPlace Listing) :=
  if isEnough wanted place.listed then .done (.finished ⟨place.listed, .enough⟩)
  else
    .ask (.query ⟨slots.table, identity.partition, [], place.after, pageSize⟩) fun
      | .error error => .done (.finished ⟨place.listed, .failed (.store error)⟩)
      | .ok page => .done (slots.afterPage wanted place.listed page)

/-- Lists the devices with a filled slot in ascending order, as many as are wanted or all. -/
def list (slots : Slots κ) (identity : Identity) (wanted : Option Nat) :
    Walk ListingPlace Listing where
  start := ⟨[], none⟩
  round := slots.listFrom identity wanted

/-- All devices of a listing, unless it failed. -/
def allOf (listing : Listing) : Except KeyError (List Device) :=
  match listing.ending with
  | .failed error => .error error
  | .enough | .exhausted => .ok listing.devices

/-- All devices of an identity with a filled slot. -/
def devices (slots : Slots κ) (identity : Identity) :
    Walk ListingPlace (Except KeyError (List Device)) :=
  (slots.list identity none).andThen fun listing => .done (allOf listing)

end Slots

end KeyDispensary
