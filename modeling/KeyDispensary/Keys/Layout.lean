import KeyDispensary.Identity
import KeyDispensary.Keys.Error
import KeyDispensary.Keys.Record

/-!
Where keys are stored. The partition of a row is the identity, and its sort key begins with the device;
the sort key of a one-time key goes on with its id, so that ids of one device come in ascending order.
-/

namespace KeyDispensary

/-- The partition of an identity. -/
def Identity.partition (identity : Identity) : Bytes :=
  identity.octets

/-- What the sort keys of a device begin with. -/
def Device.lead (device : Device) : Bytes :=
  [device.id]

/-- The place of a one-time key. -/
def poolKey (identity : Identity) (device : Device) (keyId : UInt64) : Key :=
  ⟨identity.partition, device.id :: Bytes.bigEndian 8 keyId.toNat⟩

/-- The place of the one repeatedly used key of a device. -/
def slotKey (identity : Identity) (device : Device) : Key :=
  ⟨identity.partition, device.lead⟩

/-- The device of a sort key that consists of a device alone. -/
def deviceOf (table : String) (sort : Bytes) : Except KeyError Device :=
  match sort with
  | [id] => .ok ⟨id⟩
  | _ => .error (.malformed table (.sortKey sort.length))

/-- The devices of items, unless one of them is malformed. -/
def devicesOf (table : String) : List Item → Except KeyError (List Device)
  | [] => .ok []
  | item :: rest =>
    match deviceOf table item.key.sort with
    | .error error => .error error
    | .ok device => (devicesOf table rest).map (device :: ·)

/-- The record that a value of a table stands for. -/
def recordOf (κ : Type) [Record κ] (table : String) (value : Bytes) : Except KeyError κ :=
  match Record.decode value with
  | .ok key => .ok key
  | .error error => .error (.malformed table (.value error))

end KeyDispensary
