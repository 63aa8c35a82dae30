import KeyDispensary.Proofs.Json.Skipping
import KeyDispensary.Proofs.Json.Written

/-!
Values with named fields are read from objects, however these are written and whatever else they hold.
Main statements: `Json.Shape.Takes.decode` and `Json.Shape.Takes.decode_writeObject`.
-/

namespace KeyDispensary.Json

variable {α δ : Type}

/-! ### Blanks -/

/-- Whether a reader passes over the blanks before what it reads. -/
def DropsBlank (read : Reader α) : Prop :=
  ∀ text, read (dropBlank text) = read text

/-- Blanks before what a reader reads change nothing. -/
theorem DropsBlank.blank {read : Reader α} (drops : DropsBlank read) {blanks : List Char}
    (blank : Blank blanks) (text : Bytes) : read (Bytes.ofChars blanks ++ text) = read text := by
  -- With the blanks and without them the reader comes to the same text.
  rw [← drops, dropBlank_blank blank, drops]

/-- A flag may have blanks before it. -/
theorem dropsBlank_readFlag : DropsBlank readFlag := by
  -- The blanks that are dropped first are dropped by reading anyway.
  intro text
  simp only [readFlag, dropBlank_dropBlank]

/-- A string may have blanks before it. -/
theorem dropsBlank_readText : DropsBlank readText := by
  intro text
  simp only [readText, readTextAs, dropBlank_dropBlank]

/-- An id may have blanks before it. -/
theorem dropsBlank_readWord64 : DropsBlank readWord64 := by
  intro text
  simp only [readWord64, readNatUpTo, dropBlank_dropBlank]

/-- A list of bytes may have blanks before it. -/
theorem dropsBlank_readOctets : DropsBlank readOctets := by
  intro text
  simp only [readOctets, dropBlank_dropBlank]

/-- A value with fields may have blanks before it. -/
theorem Shape.dropsBlank_read (shape : Shape α) : DropsBlank shape.read := by
  intro text
  simp only [Shape.read, dropBlank_dropBlank]

/-- Whether the values of all fields may have blanks before them. -/
def FieldsDropBlank (fields : List (Field δ)) : Prop :=
  ∀ field ∈ fields, ∀ draft, DropsBlank (field.fill draft)

/-! ### Members -/

/-- Whether members fill one draft into another, while members of other names are passed over. -/
inductive Fills (fields : List (Field δ)) : List (String × List Char) → δ → δ → Prop where
  | nil (draft : δ) : Fills fields [] draft draft
  | other {name : String} {text : List Char} {members : List (String × List Char)} {draft ends : δ}
    (unknown : fields.find? (fun field => field.name = name) = none)
    (more : Fills fields members draft ends) : Fills fields ((name, text) :: members) draft ends
  | cons {name : String} {text : List Char} {members : List (String × List Char)} {field : Field δ}
    {draft next ends : δ} (named : fields.find? (fun field => field.name = name) = some field)
    (missing : field.isGiven draft = false)
    (filled : ∀ rest, EndsNumber rest →
      field.fill draft (Bytes.ofChars text ++ rest) = .ok (next, rest))
    (more : Fills fields members next ends) : Fills fields ((name, text) :: members) draft ends

/-- What stands before all members but the first. -/
def separator (first : Bool) : Bytes :=
  if first then [] else [byte ',']

/-- Behind its separator and blanks, a quote begins the next key. -/
theorem nextKey_quote (first : Bool) {blanks : List Char} (blank : Blank blanks) (rest : Bytes) :
    nextKey first (separator first ++ (Bytes.ofChars blanks ++ byte '"' :: rest)) =
      .ok (.key, rest) := by
  have marks : isBlank (byte ',') = false ∧ isBlank (byte '"') = false ∧
    byte ',' ≠ byte '\x7d' ∧ byte '"' ≠ byte '\x7d' := by decide
  -- A comma is passed before all members but the first.
  cases first with
  | true => simp [separator, nextKey, dropBlank_blank blank, dropBlank_cons marks.2.1, marks]
  | false =>
    simp [separator, nextKey, dropBlank_cons marks.1, dropBlank_blank blank,
      dropBlank_cons marks.2.1, marks]

/-- A colon is passed over with the blanks before it. -/
theorem skipColon_colon {blanks : List Char} (blank : Blank blanks) (rest : Bytes) :
    skipColon (Bytes.ofChars blanks ++ byte ':' :: rest) = .ok rest := by
  have colon : isBlank (byte ':') = false := by decide
  -- The first byte that is no blank is the colon.
  simp [skipColon, dropBlank_blank blank, dropBlank_cons colon]

/-- A member is a quoted name, a colon and a value, with blanks around these. -/
theorem SpellsMember.bytes {name : String} {value text : List Char}
    (spells : SpellsMember name value text) : ∃ before key afterName beforeValue after,
      Blank before ∧ SpellsChars name.toList key ∧ Blank afterName ∧ Blank beforeValue ∧
      IsValue value ∧ Blank after ∧ ∀ rest, Bytes.ofChars text ++ rest =
        Bytes.ofChars before ++ byte '"' :: (Bytes.ofChars key ++ byte '"' ::
          (Bytes.ofChars afterName ++ byte ':' :: (Bytes.ofChars beforeValue ++
            (Bytes.ofChars value ++ (Bytes.ofChars after ++ rest))))) := by
  -- A character that is punctuation is a single byte.
  cases spells with
  | colon blankBefore spells blankAfterName blankBeforeValue isValue blankAfter =>
    cases spells with
    | quoted spells =>
      refine ⟨_, _, _, _, _, blankBefore, spells, blankAfterName, blankBeforeValue, isValue,
        blankAfter, fun rest => ?_⟩
      rw [List.cons_append, List.append_assoc]
      exact ofChars_member _ _ _ _ _ _ rest

/-- A member takes at least one byte. -/
theorem SpellsMember.length_pos {name : String} {value text : List Char}
    (spells : SpellsMember name value text) : 0 < text.length := by
  -- The quotes and the colon are there in any case.
  cases spells
  simp only [List.length_append, List.length_cons]
  omega

/-- A text has as many characters as members at least. -/
theorem SpellsMembers.length_le {members : List (String × List Char)} {text : List Char}
    (spells : SpellsMembers members text) : members.length ≤ text.length := by
  -- Each member takes a character at least.
  induction spells with
  | one last => exact last.length_pos
  | more first _ ih =>
    simp only [List.length_append, List.length_cons]
    omega

/-- Blanks before what an object goes on with are passed over. -/
theorem readMembers_blank (fields : List (Field δ)) (steps : Nat) (first : Bool) (draft : δ)
    {blanks : List Char} (blank : Blank blanks) (text : Bytes) :
    readMembers fields (steps + 1) first draft (Bytes.ofChars blanks ++ text) =
      readMembers fields (steps + 1) first draft text := by
  -- The blanks are dropped before the text is looked at.
  simp only [readMembers, nextKey, dropBlank_blank blank]

/-- A closing brace ends the members, and stays. -/
theorem readMembers_brace (fields : List (Field δ)) (steps : Nat) (first : Bool) (draft : δ)
    (rest : Bytes) : readMembers fields (steps + 1) first draft (byte '\x7d' :: rest) =
      .ok (draft, byte '\x7d' :: rest) := by
  have brace : isBlank (byte '\x7d') = false := by decide
  -- The brace is no blank, so it is what comes next.
  simp [readMembers, nextKey, dropBlank_cons brace]

/-- One step reads a member into its field, or passes over it if no field has its name. -/
theorem SpellsMember.step {fields : List (Field δ)} (drops : FieldsDropBlank fields)
    {name : String} {value text : List Char} (spells : SpellsMember name value text)
    {members : List (String × List Char)} {draft ends : δ}
    (fills : Fills fields ((name, value) :: members) draft ends) :
    ∃ next, Fills fields members next ends ∧ ∀ steps first rest, EndsNumber rest →
      readMembers fields (steps + 2) first draft (separator first ++ (Bytes.ofChars text ++ rest)) =
        readMembers fields (steps + 1) false next rest := by
  -- What follows the value is a blank, a comma or the closing brace, and each ends a number.
  obtain ⟨before, key, afterName, beforeValue, after, blankBefore, spells, blankAfterName,
    blankBeforeValue, isValue, blankAfter, bytes⟩ := spells.bytes
  cases fills with
  | other unknown more =>
    -- No field has the name, so the value is passed over.
    refine ⟨draft, more, fun steps first rest ends => ?_⟩
    rw [bytes, readMembers, nextKey_quote first blankBefore]
    simp only [readMember, readString_spelled spells, unknown, skipMember,
      skipColon_colon blankAfterName, skipValue_value blankBeforeValue isValue
        (ends.blank blankAfter), readMembers_blank _ _ _ _ blankAfter]
  | @cons _ _ _ field _ next _ named missing filled more =>
    -- The field with the name reads the value.
    refine ⟨next, more, fun steps first rest ends => ?_⟩
    have drops := drops field (List.mem_of_find?_eq_some named) draft
    rw [bytes, readMembers, nextKey_quote first blankBefore]
    simp only [readMember, readString_spelled spells, named, missing, readFieldValue,
      skipColon_colon blankAfterName, drops.blank blankBeforeValue,
      filled _ (ends.blank blankAfter), readMembers_blank _ _ _ _ blankAfter, Bool.false_eq_true,
      if_false]

/-- The members of an object are read into their fields, up to the closing brace. -/
theorem SpellsMembers.read {fields : List (Field δ)} (drops : FieldsDropBlank fields)
    {members : List (String × List Char)} {text : List Char} (spells : SpellsMembers members text)
    {draft ends : δ} (fills : Fills fields members draft ends) {steps : Nat}
    (enough : members.length < steps) (first : Bool) (rest : Bytes) :
    readMembers fields steps first draft
      (separator first ++ (Bytes.ofChars text ++ byte '\x7d' :: rest)) =
        .ok (ends, byte '\x7d' :: rest) := by
  -- A comma follows each member but the last.
  induction spells generalizing draft steps first with
  | one last =>
    -- One step reads the member, and another one finds the brace.
    obtain ⟨steps, rfl⟩ := Nat.exists_eq_add_of_le' (show 2 ≤ steps from enough)
    obtain ⟨next, nothing, step⟩ := last.step drops fills
    cases nothing
    rw [step steps first _ (endsNumber_brace rest), readMembers_brace]
  | @more name value text others members member _ ih =>
    rw [List.length_cons] at enough
    obtain ⟨steps, rfl⟩ := Nat.exists_eq_add_of_le' (show 2 ≤ steps by omega)
    obtain ⟨next, fills, step⟩ := member.step drops fills
    -- The comma ends the value before it, also if that is a number.
    have comma : EndsNumber (separator false ++ (Bytes.ofChars others ++ byte '\x7d' :: rest)) :=
      endsNumber_comma _
    rw [ofChars_comma]
    exact (step steps first _ comma).trans (ih fills (by omega) false)

/-! ### Values -/

/-- Whether members give all that a shape needs for a value. -/
structure Shape.Takes (shape : Shape α) (members : List (String × List Char)) (value : α) : Prop where
  drops : FieldsDropBlank shape.fields
  fills : ∃ ends, Fills shape.fields members shape.blank ends ∧ shape.complete ends = .ok value

/-- An object is read as the value that its members give. -/
theorem Shape.Takes.read {shape : Shape α} {members : List (String × List Char)} {value : α}
    (takes : shape.Takes members value) {text : List Char} (spells : SpellsObject members text)
    (rest : Bytes) : shape.read (Bytes.ofChars text ++ rest) = .ok (value, rest) := by
  obtain ⟨drops, ends, fills, complete⟩ := takes
  have braces : isBlank (byte '\x7b') = false ∧ isBlank (byte '\x7d') = false := by decide
  -- The members are read up to the closing brace, which is passed when the value is complete.
  have reads (inner : List Char) (members : readMembers shape.fields
      ((Bytes.ofChars inner ++ byte '\x7d' :: rest).length + 1) true shape.blank
        (Bytes.ofChars inner ++ byte '\x7d' :: rest) = .ok (ends, byte '\x7d' :: rest)) :
      shape.read (Bytes.ofChars ('\x7b' :: (inner ++ ['\x7d'])) ++ rest) = .ok (value, rest) := by
    rw [ofChars_around (by decide) (by decide), Shape.read, dropBlank_cons braces.1]
    simp only [if_true, Shape.readObject, members, complete, afterObject, dropBlank_cons braces.2]
  cases spells with
  | empty blank =>
    -- Without members nothing is filled.
    cases fills
    exact reads _ (by rw [readMembers_blank _ _ _ _ blank, readMembers_brace])
  | filled spells =>
    refine reads _ (spells.read drops fills ?_ true rest)
    -- Each member takes at least one character, and each character at least one byte.
    have few := Nat.le_trans spells.length_le (length_le_ofChars _)
    rw [List.length_append, List.length_cons]
    omega

/-- A text that is an object is decoded as the value that its members give. -/
theorem Shape.Takes.decode {shape : Shape α} {members : List (String × List Char)} {value : α}
    (takes : shape.Takes members value) {text : List Char} (spells : SpellsDocument members text) :
    Json.decode shape.read (Bytes.ofChars text) = .ok value := by
  -- Blanks may stand on both sides of the object.
  cases spells with
  | blanks blankBefore spells blankAfter =>
    -- Nothing but blanks is left after the object.
    have nothing := dropBlank_blank blankAfter []
    rw [List.append_nil] at nothing
    rw [Bytes.ofChars_append, Bytes.ofChars_append, Json.decode,
      shape.dropsBlank_read.blank blankBefore, takes.read spells]
    simp only [nothing]
    rfl

/-- A written object is read as the value that its members give. -/
theorem Shape.Takes.read_writeObject {shape : Shape α} {members : List (String × List Char)}
    {value : α} (takes : shape.Takes members value)
    (values : ∀ member ∈ members, IsValue member.2) (rest : Bytes) :
    shape.read (Bytes.ofChars (writeObject members) ++ rest) = .ok (value, rest) :=
  takes.read (spellsObject_writeObject values) rest

/-- A written object is decoded as the value that its members give. -/
theorem Shape.Takes.decode_writeObject {shape : Shape α} {members : List (String × List Char)}
    {value : α} (takes : shape.Takes members value)
    (values : ∀ member ∈ members, IsValue member.2) :
    Json.decode shape.read (Bytes.ofChars (writeObject members)) = .ok value := by
  -- A written object has no blanks around it.
  have document := SpellsDocument.blanks blank_nil (spellsObject_writeObject values) blank_nil
  rw [List.nil_append, List.append_nil] at document
  exact takes.decode document

end KeyDispensary.Json
