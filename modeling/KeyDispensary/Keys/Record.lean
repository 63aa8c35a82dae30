import KeyDispensary.Json.Struct
import KeyDispensary.Json.Write

/-! Records of keys and the text in which they are stored. -/

namespace KeyDispensary

/-- A one-time elliptic-curve key. -/
structure EcKey where
  keyId : UInt64
  publicKey : Bytes
deriving DecidableEq

/-- A signed elliptic-curve key. -/
structure SignedEcKey where
  keyId : UInt64
  publicKey : Bytes
  signature : Bytes
deriving DecidableEq

/-- A signed key for encapsulation, which serves as a one-time key or as a last resort. -/
structure SignedKemKey where
  keyId : UInt64
  publicKey : Bytes
  signature : Bytes
deriving DecidableEq

/-- A record that is stored as text and has an id of its own. -/
class Record (κ : Type) where
  keyId : κ → UInt64
  encode : κ → Bytes
  decode : Bytes → Except Json.Error κ

/-- The parts of a record that were read so far. -/
structure RecordDraft where
  keyId : Option UInt64 := none
  publicKey : Option Bytes := none
  signature : Option Bytes := none

namespace RecordDraft

/-- The member that holds the id. -/
def keyIdField : Json.Field RecordDraft where
  name := "key_id"
  isGiven draft := draft.keyId.isSome
  fill draft text := (Json.readWord64 text).map fun (value, rest) =>
    ({ draft with keyId := some value }, rest)

/-- The member that holds the public key. -/
def publicKeyField : Json.Field RecordDraft where
  name := "public_key"
  isGiven draft := draft.publicKey.isSome
  fill draft text := (Json.readOctets text).map fun (value, rest) =>
    ({ draft with publicKey := some value }, rest)

/-- The member that holds the signature. -/
def signatureField : Json.Field RecordDraft where
  name := "signature"
  isGiven draft := draft.signature.isSome
  fill draft text := (Json.readOctets text).map fun (value, rest) =>
    ({ draft with signature := some value }, rest)

/-- The id and the public key, or the first of them that is missing. -/
def unsigned (draft : RecordDraft) : Except String (UInt64 × Bytes) :=
  match draft.keyId, draft.publicKey with
  | none, _ => .error keyIdField.name
  | some _, none => .error publicKeyField.name
  | some keyId, some publicKey => .ok (keyId, publicKey)

/-- All three parts, or the first of them that is missing. -/
def signed (draft : RecordDraft) : Except String (UInt64 × Bytes × Bytes) :=
  match draft.unsigned, draft.signature with
  | .error name, _ => .error name
  | .ok _, none => .error signatureField.name
  | .ok (keyId, publicKey), some signature => .ok (keyId, publicKey, signature)

end RecordDraft

open RecordDraft in
/-- The written form of a record without a signature. -/
def writeUnsigned (keyId : UInt64) (publicKey : Bytes) : List Char :=
  Json.writeObject
    [(keyIdField.name, Json.writeNat keyId.toNat),
      (publicKeyField.name, Json.writeOctets publicKey)]

open RecordDraft in
/-- The written form of a record with a signature. -/
def writeSigned (keyId : UInt64) (publicKey signature : Bytes) : List Char :=
  Json.writeObject
    [(keyIdField.name, Json.writeNat keyId.toNat),
      (publicKeyField.name, Json.writeOctets publicKey),
      (signatureField.name, Json.writeOctets signature)]

/-- How one-time elliptic-curve keys are read. -/
def EcKey.shape : Json.Shape EcKey where
  name := "EcPreKey"
  Draft := RecordDraft
  blank := {}
  fields := [RecordDraft.keyIdField, RecordDraft.publicKeyField]
  complete draft := draft.unsigned.map fun (keyId, publicKey) => ⟨keyId, publicKey⟩

/-- How signed elliptic-curve keys are read. -/
def SignedEcKey.shape : Json.Shape SignedEcKey where
  name := "EcSignedPreKey"
  Draft := RecordDraft
  blank := {}
  fields := [RecordDraft.keyIdField, RecordDraft.publicKeyField, RecordDraft.signatureField]
  complete draft := draft.signed.map fun (keyId, publicKey, signature) =>
    ⟨keyId, publicKey, signature⟩

/-- How signed keys for encapsulation are read. -/
def SignedKemKey.shape : Json.Shape SignedKemKey where
  name := "KemSignedPreKey"
  Draft := RecordDraft
  blank := {}
  fields := [RecordDraft.keyIdField, RecordDraft.publicKeyField, RecordDraft.signatureField]
  complete draft := draft.signed.map fun (keyId, publicKey, signature) =>
    ⟨keyId, publicKey, signature⟩

instance : Record EcKey where
  keyId key := key.keyId
  encode key := Bytes.ofChars (writeUnsigned key.keyId key.publicKey)
  decode := Json.decode EcKey.shape.read

instance : Record SignedEcKey where
  keyId key := key.keyId
  encode key := Bytes.ofChars (writeSigned key.keyId key.publicKey key.signature)
  decode := Json.decode SignedEcKey.shape.read

instance : Record SignedKemKey where
  keyId key := key.keyId
  encode key := Bytes.ofChars (writeSigned key.keyId key.publicKey key.signature)
  decode := Json.decode SignedKemKey.shape.read

end KeyDispensary
