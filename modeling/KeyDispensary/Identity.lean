import KeyDispensary.Bytes

/-! Account identities and devices: who owns a key. -/

namespace KeyDispensary

/-- The sixteen bytes that name an account or a phone number. -/
structure Identity where
  /-- The bytes themselves, which are also the partition of every row the identity owns. -/
  octets : Bytes
  length_octets : octets.length = 16
deriving DecidableEq

namespace Identity

/-- Identities come in the order of their bytes. -/
instance : LT Identity := ⟨fun a b => a.octets < b.octets⟩

instance (a b : Identity) : Decidable (a < b) :=
  inferInstanceAs (Decidable (a.octets < b.octets))

/-- Places an identity into an ascending list, which keeps one copy of it. -/
def insertAscending (identity : Identity) : List Identity → List Identity
  | [] => [identity]
  | first :: rest =>
    if identity < first then identity :: first :: rest
    else if identity = first then first :: rest
    else first :: insertAscending identity rest

/-- The identities of a list in ascending order, each once. -/
def ascending (identities : List Identity) : List Identity :=
  identities.foldr insertAscending []

end Identity

/-- One device of an identity. -/
structure Device where
  /-- The number of the device, which is the byte that its keys carry. -/
  id : UInt8
deriving DecidableEq

/-- The device that an account starts with. -/
def Device.primary : Device := ⟨1⟩

end KeyDispensary
