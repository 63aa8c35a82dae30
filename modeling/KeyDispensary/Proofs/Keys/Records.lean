import KeyDispensary.Keys.Layout
import KeyDispensary.Proofs.Json.Objects

/-! Records of keys are read back from the text that they are stored as. -/

namespace KeyDispensary

/-- A record that is read back as it was stored. -/
class LawfulRecord (κ : Type) [Record κ] : Prop where
  decode_encode : ∀ key : κ, Record.decode (Record.encode key) = .ok key

/-- The value that a record is stored as stands for the record, in every table. -/
theorem recordOf_encode {κ : Type} [Record κ] [LawfulRecord κ] (table : String) (key : κ) :
    recordOf κ table (Record.encode key) = .ok key := by
  -- The name of the table counts only in an error.
  rw [recordOf, LawfulRecord.decode_encode]

namespace RecordDraft

/-- A written id is read into the field for it. -/
theorem fill_keyId (draft : RecordDraft) (keyId : UInt64) {rest : Bytes}
    (ends : Json.EndsNumber rest) :
    keyIdField.fill draft (Bytes.ofChars (Json.writeNat keyId.toNat) ++ rest) =
      .ok ({ draft with keyId := some keyId }, rest) := by
  -- The number has to be ended by what follows it.
  simp only [keyIdField, Json.readWord64_writeNat keyId ends]
  rfl

/-- A written public key is read into the field for it. -/
theorem fill_publicKey (draft : RecordDraft) (publicKey rest : Bytes) :
    publicKeyField.fill draft (Bytes.ofChars (Json.writeOctets publicKey) ++ rest) =
      .ok ({ draft with publicKey := some publicKey }, rest) := by
  -- The closing bracket ends the list, whatever follows.
  simp only [publicKeyField, Json.readOctets_writeOctets]
  rfl

/-- A written signature is read into the field for it. -/
theorem fill_signature (draft : RecordDraft) (signature rest : Bytes) :
    signatureField.fill draft (Bytes.ofChars (Json.writeOctets signature) ++ rest) =
      .ok ({ draft with signature := some signature }, rest) := by
  simp only [signatureField, Json.readOctets_writeOctets]
  rfl

/-- The values of all three fields may have blanks before them. -/
theorem fieldsDropBlank : Json.FieldsDropBlank [keyIdField, publicKeyField, signatureField] := by
  intro field member draft text
  simp only [List.mem_cons, List.not_mem_nil, or_false] at member
  -- Each field hands the text to its reader, which drops blanks.
  rcases member with rfl | rfl | rfl
  · simp only [keyIdField, Json.dropsBlank_readWord64 text]
  · simp only [publicKeyField, Json.dropsBlank_readOctets text]
  · simp only [signatureField, Json.dropsBlank_readOctets text]

/-- The members of a record with a signature fill all fields of a draft. -/
theorem fills_signed (keyId : UInt64) (publicKey signature : Bytes) :
    Json.Fills [keyIdField, publicKeyField, signatureField]
      [(keyIdField.name, Json.writeNat keyId.toNat),
        (publicKeyField.name, Json.writeOctets publicKey),
        (signatureField.name, Json.writeOctets signature)]
      {} ⟨some keyId, some publicKey, some signature⟩ := by
  -- The members come in the order of the fields, and each is missing until it is read.
  refine .cons (by rfl) rfl (fun rest ends => fill_keyId _ keyId ends) ?_
  refine .cons (by rfl) rfl (fun rest _ => fill_publicKey _ publicKey rest) ?_
  refine .cons (by rfl) rfl (fun rest _ => fill_signature _ signature rest) ?_
  exact .nil _

/-- The members of a record without a signature fill the other fields of a draft. -/
theorem fills_unsigned (keyId : UInt64) (publicKey : Bytes) :
    Json.Fills [keyIdField, publicKeyField]
      [(keyIdField.name, Json.writeNat keyId.toNat),
        (publicKeyField.name, Json.writeOctets publicKey)]
      {} ⟨some keyId, some publicKey, none⟩ := by
  -- The members come in the order of the fields, and there is none for a signature.
  refine .cons (by rfl) rfl (fun rest ends => fill_keyId _ keyId ends) ?_
  refine .cons (by rfl) rfl (fun rest _ => fill_publicKey _ publicKey rest) ?_
  exact .nil _

/-- The values of a written record with a signature are JSON values. -/
theorem values_signed (keyId : UInt64) (publicKey signature : Bytes) :
    ∀ member ∈ [(keyIdField.name, Json.writeNat keyId.toNat),
      (publicKeyField.name, Json.writeOctets publicKey),
      (signatureField.name, Json.writeOctets signature)], Json.IsValue member.2 := by
  -- An id is written as a number, and bytes as lists of numbers.
  simp only [List.forall_mem_cons]
  exact ⟨Json.isValue_writeNat _, Json.isValue_writeOctets _, Json.isValue_writeOctets _, by simp⟩

/-- The values of a written record without a signature are JSON values. -/
theorem values_unsigned (keyId : UInt64) (publicKey : Bytes) :
    ∀ member ∈ [(keyIdField.name, Json.writeNat keyId.toNat),
      (publicKeyField.name, Json.writeOctets publicKey)], Json.IsValue member.2 :=
  fun member listed => values_signed keyId publicKey [] member (List.mem_append_left [_] listed)

end RecordDraft

open RecordDraft

/-- The members of a written key without a signature give this key. -/
theorem EcKey.takes (key : EcKey) : EcKey.shape.Takes
    [(keyIdField.name, Json.writeNat key.keyId.toNat),
      (publicKeyField.name, Json.writeOctets key.publicKey)] key where
  drops field member := fieldsDropBlank field (List.mem_append_left [signatureField] member)
  fills := ⟨_, fills_unsigned key.keyId key.publicKey, rfl⟩

/-- The members of a written signed key give this key. -/
theorem SignedEcKey.takes (key : SignedEcKey) : SignedEcKey.shape.Takes
    [(keyIdField.name, Json.writeNat key.keyId.toNat),
      (publicKeyField.name, Json.writeOctets key.publicKey),
      (signatureField.name, Json.writeOctets key.signature)] key where
  drops := fieldsDropBlank
  fills := ⟨_, fills_signed key.keyId key.publicKey key.signature, rfl⟩

/-- The members of a written key for encapsulation give this key. -/
theorem SignedKemKey.takes (key : SignedKemKey) : SignedKemKey.shape.Takes
    [(keyIdField.name, Json.writeNat key.keyId.toNat),
      (publicKeyField.name, Json.writeOctets key.publicKey),
      (signatureField.name, Json.writeOctets key.signature)] key where
  drops := fieldsDropBlank
  fills := ⟨_, fills_signed key.keyId key.publicKey key.signature, rfl⟩

instance : LawfulRecord EcKey where
  decode_encode key := key.takes.decode_writeObject (values_unsigned key.keyId key.publicKey)

instance : LawfulRecord SignedEcKey where
  decode_encode key :=
    key.takes.decode_writeObject (values_signed key.keyId key.publicKey key.signature)

instance : LawfulRecord SignedKemKey where
  decode_encode key :=
    key.takes.decode_writeObject (values_signed key.keyId key.publicKey key.signature)

end KeyDispensary
