import KeyDispensary.Proofs.Json.Ends
import KeyDispensary.Proofs.Keys.Records
import KeyDispensary.Proofs.Text.Utf8
import Mathlib.Data.List.TakeWhile

/-!
The text that a record is stored as stands for this record alone: cut short or followed by more it is
malformed, and no two records share it. Main statement: `exact_records`.
-/

namespace KeyDispensary

/-- A byte below 128 stands for its character wherever it is found. -/
theorem Bytes.mem_of_byte_mem {c : Char} (ascii : c.toNat < 128) {chars : List Char}
    (member : Json.byte c ∈ ofChars chars) : c ∈ chars := by
  -- The byte is one of those that stand for some character of the text.
  obtain ⟨other, found, member⟩ := List.mem_flatMap.1 member
  have value : (Json.byte c).toNat = c.toNat := Utf8.toNat_ofNat_small (by omega)
  -- The bytes of a character past 127 are past 127 too.
  have below : other.toNat < 128 := by
    by_contra past
    have high := Utf8.high_of_mem (Nat.not_lt.1 past) member
    omega
  rw [Utf8.encode_one below, List.mem_singleton] at member
  -- That character is written as itself.
  have same : c.toNat = other.toNat := by
    rw [← value, member, Utf8.toNat_ofNat_small (by omega)]
  exact Char.toNat_inj.1 same ▸ found

namespace Json

variable {α : Type}

/-! ### Texts without a closing brace -/

/-- Values without a closing brace have none when commas stand between them. -/
theorem not_mem_joined {values : List (List Char)} (none : ∀ value ∈ values, '\x7d' ∉ value) :
    '\x7d' ∉ joined values := by
  cases values with
  | nil => exact List.not_mem_nil
  | cons value more =>
    rw [joined_cons, List.mem_append, List.mem_flatMap]
    rintro (first | ⟨next, member, later⟩)
    · -- The first value stands alone, and a comma before each of the others.
      exact none value List.mem_cons_self first
    · rcases List.mem_cons.1 later with comma | later
      · exact absurd comma (by decide)
      · exact none next (.tail _ member) later

/-- A written number has no closing brace. -/
theorem not_mem_writeNat (n : Nat) : '\x7d' ∉ writeNat n := by
  -- Only digits are written.
  intro member
  have digit := Nat.isDigit_of_mem_toDigits (by decide) (by decide) member
  exact absurd digit (by decide)

/-- Written bytes have no closing brace. -/
theorem not_mem_writeOctets (octets : Bytes) : '\x7d' ∉ writeOctets octets := by
  -- Between the brackets stand numbers and commas.
  have inner : '\x7d' ∉ joined (octets.map fun b => writeNat b.toNat) := by
    refine not_mem_joined fun value member => ?_
    obtain ⟨b, _, rfl⟩ := List.mem_map.1 member
    exact not_mem_writeNat b.toNat
  simp [writeOctets, inner]

/-- A member without a closing brace in its name and its value has none. -/
theorem not_mem_writeMember {name : String} {text : List Char} (named : '\x7d' ∉ writeString name)
    (written : '\x7d' ∉ text) : '\x7d' ∉ writeMember (name, text) := by
  -- Besides these there are only quotes and a colon.
  simp [writeMember, named, written]

/-! ### Objects that are cut short or followed by more -/

/-- A written object stands between braces. -/
theorem ofChars_writeObject (members : List (String × List Char)) :
    Bytes.ofChars (writeObject members) = byte '\x7b' ::
      (Bytes.ofChars (joined (members.map writeMember)) ++ [byte '\x7d']) := by
  -- Each of the braces is a single byte.
  simp [writeObject, Bytes.ofChars_append, ofChars_ascii, show Bytes.ofChars [] = [] from rfl]

/-- An object of which the end is missing is not decoded. -/
theorem decode_cut {shape : Shape α} (leave : FieldsLeaveEnds shape.fields)
    {members : List (String × List Char)} (single : ∀ member ∈ members, '\x7d' ∉ writeMember member)
    {part : Bytes} (begins : part <+: Bytes.ofChars (writeObject members))
    (missing : part ≠ Bytes.ofChars (writeObject members)) :
    ∃ error, decode shape.read part = .error error := by
  rw [ofChars_writeObject] at begins missing
  cases part with
  | nil => exact ⟨_, rfl⟩
  | cons b part =>
    obtain ⟨rfl, inside⟩ := List.cons_prefix_cons.1 begins
    -- The only closing brace of the object is its last byte, which is missing.
    have within : part <+: Bytes.ofChars (joined (members.map writeMember)) := by
      rcases List.prefix_concat_iff.1 inside with whole | within
      · exact absurd (congrArg _ whole) missing
      · exact within
    -- No byte of what is written between the braces is a closing brace.
    have unclosed : byte '\x7d' ∉ part := by
      intro member
      have found := Bytes.mem_of_byte_mem (by decide) (within.subset member)
      refine not_mem_joined (fun value member => ?_) found
      obtain ⟨pair, listed, rfl⟩ := List.mem_map.1 member
      exact single pair listed
    -- What is read as an object would have been closed.
    cases read : shape.read (byte '\x7b' :: part) with
    | error fault => exact ⟨_, by rw [decode, read]⟩
    | ok pair => exact absurd (Shape.closed_of_read leave read) unclosed

/-- An object is decoded together with what follows it only if that is blank. -/
theorem decode_followed {shape : Shape α} {members : List (String × List Char)} {value : α}
    (takes : shape.Takes members value) (values : ∀ member ∈ members, IsValue member.2)
    (more : Bytes) :
    (dropBlank more = [] →
      decode shape.read (Bytes.ofChars (writeObject members) ++ more) = .ok value) ∧
    (dropBlank more ≠ [] → ∃ error,
      decode shape.read (Bytes.ofChars (writeObject members) ++ more) = .error error) := by
  -- The object is read, and what follows it is left.
  have read := takes.read_writeObject values more
  constructor
  · intro blank
    simp only [decode, read, blank]
  · -- The first byte that is no blank cannot follow a value.
    intro other
    obtain ⟨b, rest, first⟩ := List.exists_cons_of_ne_nil other
    exact ⟨_, by simp only [decode, read, first]; rfl⟩

end Json

/-! ### Records -/

/-- Whether the text that a record is stored as stands for this record and for nothing else. -/
structure ExactRecord (κ : Type) [Record κ] : Prop where
  /-- A stored record is read back; blanks behind it change nothing. -/
  reads : ∀ (table : String) (key : κ) (blanks : Bytes), (∀ b ∈ blanks, Json.isBlank b = true) →
    recordOf κ table (Record.encode key ++ blanks) = .ok key
  /-- A stored record of which the end is missing is malformed. -/
  refusesCut : ∀ (table : String) (key : κ) (part : Bytes), part <+: Record.encode key →
    part ≠ Record.encode key →
      ∃ error, recordOf κ table part = .error (.malformed table (.value error))
  /-- A stored record that is followed by anything but blanks is malformed. -/
  refusesMore : ∀ (table : String) (key : κ) (more : Bytes), (∃ b ∈ more, Json.isBlank b = false) →
    ∃ error, recordOf κ table (Record.encode key ++ more) = .error (.malformed table (.value error))
  /-- No two records are stored as the same text. -/
  apart : ∀ first second : κ, Record.encode first = Record.encode second → first = second

/-- How records of a type are written as objects and read into the fields of a shape. -/
structure WrittenAs (κ : Type) [Record κ] (shape : Json.Shape κ)
    (members : κ → List (String × List Char)) : Prop where
  encode_eq : ∀ key, Record.encode key = Bytes.ofChars (Json.writeObject (members key))
  decode_eq : ∀ text, Record.decode text = Json.decode shape.read text
  takes : ∀ key, shape.Takes (members key) key
  values : ∀ key, ∀ member ∈ members key, Json.IsValue member.2
  leave : Json.FieldsLeaveEnds shape.fields
  single : ∀ key, ∀ member ∈ members key, '\x7d' ∉ Json.writeMember member

/-- Records that are written as objects and read back from them are exact. -/
theorem WrittenAs.exactRecord {κ : Type} [Record κ] {shape : Json.Shape κ}
    {members : κ → List (String × List Char)} (written : WrittenAs κ shape members) :
    ExactRecord κ := by
  -- An error of the text makes the record malformed in its table.
  have malformed (table : String) {value : Bytes}
      (fails : ∃ error, Json.decode shape.read value = .error error) :
      ∃ error, recordOf κ table value = .error (.malformed table (.value error)) := by
    obtain ⟨error, fails⟩ := fails
    exact ⟨error, by rw [recordOf, written.decode_eq, fails]⟩
  -- Blanks behind the object are passed over.
  have reads (table : String) (key : κ) (blanks : Bytes)
      (blank : ∀ b ∈ blanks, Json.isBlank b = true) :
      recordOf κ table (Record.encode key ++ blanks) = .ok key := by
    have nothing : Json.dropBlank blanks = [] := List.dropWhile_eq_nil_iff.2 blank
    rw [recordOf, written.decode_eq, written.encode_eq,
      (Json.decode_followed (written.takes key) (written.values key) blanks).1 nothing]
  refine ⟨reads, fun table key part begins missing => ?_, fun table key more other => ?_,
    fun first second same => ?_⟩
  · -- The only closing brace of the text stands at its end.
    rw [written.encode_eq] at begins missing
    exact malformed table (Json.decode_cut written.leave (written.single key) begins missing)
  · -- What follows is not blank, so that something is left behind the object.
    obtain ⟨b, member, other⟩ := other
    have followed := Json.decode_followed (written.takes key) (written.values key) more
    rw [written.encode_eq]
    refine malformed table (followed.2 fun nothing => ?_)
    exact Bool.false_ne_true (other.symm.trans (List.dropWhile_eq_nil_iff.1 nothing b member))
  · -- The text that both share is read as the one and as the other.
    have left := reads "" first [] (by simp)
    have right := reads "" second [] (by simp)
    rw [same, right] at left
    exact (Except.ok.inj left).symm

namespace RecordDraft

/-- The values of all three fields are read up to ends of their texts. -/
theorem fieldsLeaveEnds : Json.FieldsLeaveEnds [keyIdField, publicKeyField, signatureField] := by
  -- An id is a number, and both keys and signatures are lists of bytes.
  intro field member draft
  simp only [List.mem_cons, List.not_mem_nil, or_false] at member
  rcases member with rfl | rfl | rfl
  · exact Json.leavesEnd_readWord64.map fun value => { draft with keyId := some value }
  · exact Json.leavesEnd_readOctets.map fun value => { draft with publicKey := some value }
  · exact Json.leavesEnd_readOctets.map fun value => { draft with signature := some value }

/-- The member of an id has no closing brace. -/
theorem not_mem_keyId (keyId : UInt64) :
    '\x7d' ∉ Json.writeMember (keyIdField.name, Json.writeNat keyId.toNat) :=
  Json.not_mem_writeMember (by decide) (Json.not_mem_writeNat _)

/-- The member of a public key has no closing brace. -/
theorem not_mem_publicKey (publicKey : Bytes) :
    '\x7d' ∉ Json.writeMember (publicKeyField.name, Json.writeOctets publicKey) :=
  Json.not_mem_writeMember (by decide) (Json.not_mem_writeOctets _)

/-- The member of a signature has no closing brace. -/
theorem not_mem_signature (signature : Bytes) :
    '\x7d' ∉ Json.writeMember (signatureField.name, Json.writeOctets signature) :=
  Json.not_mem_writeMember (by decide) (Json.not_mem_writeOctets _)

/-- No member of a written record with a signature has a closing brace. -/
theorem single_signed (keyId : UInt64) (publicKey signature : Bytes) :
    ∀ member ∈ [(keyIdField.name, Json.writeNat keyId.toNat),
      (publicKeyField.name, Json.writeOctets publicKey),
      (signatureField.name, Json.writeOctets signature)], '\x7d' ∉ Json.writeMember member := by
  -- There are three members, each with its own reason.
  simp only [List.forall_mem_cons]
  exact ⟨not_mem_keyId _, not_mem_publicKey _, not_mem_signature _, by simp⟩

end RecordDraft

open RecordDraft

/-- A key without a signature is written as an object with two members. -/
theorem writtenAs_ecKey : WrittenAs EcKey EcKey.shape fun key =>
    [(keyIdField.name, Json.writeNat key.keyId.toNat),
      (publicKeyField.name, Json.writeOctets key.publicKey)] where
  encode_eq _ := rfl
  decode_eq _ := rfl
  takes := EcKey.takes
  values key := values_unsigned key.keyId key.publicKey
  -- The fields and members of a key without a signature are among those of one with it.
  leave field member := fieldsLeaveEnds field (List.mem_append_left [signatureField] member)
  single key member listed :=
    single_signed key.keyId key.publicKey [] member (List.mem_append_left [_] listed)

/-- A signed key is written as an object with three members. -/
theorem writtenAs_signedEcKey : WrittenAs SignedEcKey SignedEcKey.shape fun key =>
    [(keyIdField.name, Json.writeNat key.keyId.toNat),
      (publicKeyField.name, Json.writeOctets key.publicKey),
      (signatureField.name, Json.writeOctets key.signature)] where
  encode_eq _ := rfl
  decode_eq _ := rfl
  takes := SignedEcKey.takes
  values key := values_signed key.keyId key.publicKey key.signature
  leave := fieldsLeaveEnds
  single key := single_signed key.keyId key.publicKey key.signature

/-- A key for encapsulation is written as an object with three members. -/
theorem writtenAs_signedKemKey : WrittenAs SignedKemKey SignedKemKey.shape fun key =>
    [(keyIdField.name, Json.writeNat key.keyId.toNat),
      (publicKeyField.name, Json.writeOctets key.publicKey),
      (signatureField.name, Json.writeOctets key.signature)] where
  encode_eq _ := rfl
  decode_eq _ := rfl
  takes := SignedKemKey.takes
  values key := values_signed key.keyId key.publicKey key.signature
  leave := fieldsLeaveEnds
  single key := single_signed key.keyId key.publicKey key.signature

/-- The records of every type are exact. -/
theorem exact_records :
    ExactRecord EcKey ∧ ExactRecord SignedEcKey ∧ ExactRecord SignedKemKey :=
  ⟨writtenAs_ecKey.exactRecord, writtenAs_signedEcKey.exactRecord,
    writtenAs_signedKemKey.exactRecord⟩

end KeyDispensary
