import KeyDispensary.Proofs.Json.Objects

/-!
An object that names a field twice is refused, whatever its values are. For this what is read of a value
has to be the whole of it, so that reading goes on behind it. Main statements:
`Json.Shape.refuses_repeated` and `Json.Shape.refuses_document`.
-/

namespace KeyDispensary.Json

variable {α δ : Type}

/-! ### What a value begins with -/

/-- What a value begins with and what follows its first byte. -/
inductive Opened (rest : Bytes) : UInt8 → Bytes → Prop where
  | null : Opened rest (byte 'n') (byte 'u' :: byte 'l' :: byte 'l' :: rest)
  | yes : Opened rest (byte 't') (byte 'r' :: byte 'u' :: byte 'e' :: rest)
  | no : Opened rest (byte 'f') (byte 'a' :: byte 'l' :: byte 's' :: byte 'e' :: rest)
  | number {b : UInt8} {more : Bytes} (first : b = byte '-' ∨ isDigit b = true) :
    Opened rest b more
  | text {inner : List Char} (pieces : Pieces inner) :
    Opened rest (byte '"') (Bytes.ofChars inner ++ byte '"' :: rest)
  | list {inner : List Char} (holds : Blank inner ∨ Derives .elements inner) :
    Opened rest (byte '[') (Bytes.ofChars inner ++ byte ']' :: rest)
  | object {inner : List Char} (holds : Blank inner ∨ Derives .members inner) :
    Opened rest (byte '\x7b') (Bytes.ofChars inner ++ byte '\x7d' :: rest)

/-- A value begins with a byte that says of which kind it is. -/
theorem IsValue.opened {text : List Char} (isValue : IsValue text) {rest : Bytes}
    (ends : EndsNumber rest) : ∃ b more, Bytes.ofChars text ++ rest = b :: more ∧
      isBlank b = false ∧ Opened rest b more := by
  cases isValue with
  | word word =>
    -- The three words begin with different letters.
    rcases word with rfl | rfl | rfl
    · exact ⟨_, _, rfl, by decide, .null⟩
    · exact ⟨_, _, rfl, by decide, .yes⟩
    · exact ⟨_, _, rfl, by decide, .no⟩
  | number number =>
    -- A number begins with a minus sign or a digit.
    obtain ⟨b, more, bytes, first, _⟩ := number.skip ends
    exact ⟨b, more, bytes, noBlank_of_first first, .number first⟩
  | text pieces => exact ⟨_, _, ofChars_around (by decide) (by decide) _ _, by decide, .text pieces⟩
  | emptyList blank =>
    exact ⟨_, _, ofChars_around (by decide) (by decide) _ _, by decide, .list (.inl blank)⟩
  | list elements =>
    exact ⟨_, _, ofChars_around (by decide) (by decide) _ _, by decide, .list (.inr elements)⟩
  | emptyObject blank =>
    exact ⟨_, _, ofChars_around (by decide) (by decide) _ _, by decide, .object (.inl blank)⟩
  | object members =>
    exact ⟨_, _, ofChars_around (by decide) (by decide) _ _, by decide, .object (.inr members)⟩

/-! ### Readers of whole values -/

/-- Whether what is read of a value is the whole of it. -/
def ReadsWhole (read : Reader α) : Prop :=
  ∀ ⦃text⦄, IsValue text → ∀ ⦃rest value left⦄, EndsNumber rest →
    read (Bytes.ofChars text ++ rest) = .ok (value, left) → left = rest

/-- Changing what a reader answers leaves what it reads. -/
theorem ReadsWhole.map {β : Type} {read : Reader α} (whole : ReadsWhole read) (change : α → β) :
    ReadsWhole fun text => (read text).map fun (value, rest) => (change value, rest) := by
  -- The change does not see the rest of the text.
  intro text isValue rest value left ends passed
  obtain ⟨_, result, same⟩ := exists_of_map passed
  exact (Prod.mk.inj same).2 ▸ whole isValue ends result

/-- What is read of a flag is the whole of it. -/
theorem readsWhole_readFlag : ReadsWhole readFlag := by
  -- What is no flag is refused by its first byte.
  intro text isValue rest value left ends passed
  obtain ⟨b, more, bytes, noBlank, opened⟩ := isValue.opened ends
  rw [bytes, readFlag, dropBlank_cons noBlank] at passed
  cases opened with
  | yes => exact (Prod.mk.inj (Except.ok.inj passed)).2.symm
  | no => exact (Prod.mk.inj (Except.ok.inj passed)).2.symm
  | number first =>
    have apart : b ≠ byte 't' ∧ b ≠ byte 'f' :=
      ⟨ne_of_first first (by decide) (by decide), ne_of_first first (by decide) (by decide)⟩
    simp [apart] at passed
  | null => cases passed
  | text => cases passed
  | list => cases passed
  | object => cases passed

/-- A string that was read ends where it is closed. -/
theorem rest_of_readString {key : List Char} (pieces : Pieces key) {rest left : Bytes} {name : String}
    (read : readString (Bytes.ofChars key ++ byte '"' :: rest) = .ok (name, left)) : left = rest := by
  simp only [readString] at read
  split at read
  · cases read
  · rename_i bytes
    split at read
    · cases read
      -- Passing over the string ends at the same byte.
      have skipped := skipString_of_readBytes bytes
      rw [skipString_pieces pieces] at skipped
      exact (Except.ok.inj skipped).symm
    · cases read

/-- What is read of a string is the whole of it. -/
theorem readsWhole_readText : ReadsWhole readText := by
  -- What is no string is refused by its first byte.
  intro text isValue rest value left ends passed
  obtain ⟨b, more, bytes, noBlank, opened⟩ := isValue.opened ends
  rw [bytes, readText, readTextAs, dropBlank_cons noBlank] at passed
  cases opened with
  | text pieces => exact rest_of_readString pieces passed
  | number first =>
    have apart : b ≠ byte '"' := ne_of_first first (by decide) (by decide)
    simp [apart] at passed
  | yes => cases passed
  | no => cases passed
  | null => cases passed
  | list => cases passed
  | object => cases passed

/-! ### Members -/

/-- What is needed of a field among others so that it is read once and as a whole. -/
structure LawfulField (fields : List (Field δ)) (field : Field δ) : Prop where
  drops : ∀ draft, DropsBlank (field.fill draft)
  whole : ∀ draft, ReadsWhole (field.fill draft)
  /-- The field is given when it was read. -/
  marks : ∀ ⦃draft text next rest⦄, field.fill draft text = .ok (next, rest) →
    field.isGiven next = true
  /-- What was given before stays so. -/
  keeps : ∀ other ∈ fields, ∀ ⦃draft text next rest⦄, field.fill draft text = .ok (next, rest) →
    other.isGiven draft = true → other.isGiven next = true

/-- Whether each of the fields is read once and as a whole. -/
def LawfulFields (fields : List (Field δ)) : Prop :=
  ∀ field ∈ fields, LawfulField fields field

/-- Whether a member was read from one draft to another, given what stands behind its value. -/
inductive TakesMember (fields : List (Field δ)) (name : String) (value : List Char) (rest : Bytes)
    (draft : δ) : δ → Prop where
  | other (unknown : fields.find? (fun field => field.name = name) = none) :
    TakesMember fields name value rest draft draft
  | known {field : Field δ} {next : δ}
    (named : fields.find? (fun field => field.name = name) = some field)
    (missing : field.isGiven draft = false)
    (filled : field.fill draft (Bytes.ofChars value ++ rest) = .ok (next, rest)) :
    TakesMember fields name value rest draft next

/-- Reading a member that begins behind a quote ends behind its value. -/
theorem takesMember_of_readMember {fields : List (Field δ)} (lawful : LawfulFields fields)
    {key afterName beforeValue value : List Char} (pieces : Pieces key)
    (blankAfterName : Blank afterName) (blankBeforeValue : Blank beforeValue)
    (isValue : IsValue value) {rest left : Bytes} (ends : EndsNumber rest) {draft next : δ}
    (read : readMember fields draft (Bytes.ofChars key ++ byte '"' :: (Bytes.ofChars afterName ++
      byte ':' :: (Bytes.ofChars beforeValue ++ (Bytes.ofChars value ++ rest)))) =
        .ok (next, left)) :
    left = rest ∧ ∃ name behind, readString (Bytes.ofChars key ++ byte '"' ::
      (Bytes.ofChars afterName ++ byte ':' :: (Bytes.ofChars beforeValue ++
        (Bytes.ofChars value ++ rest)))) = .ok (name, behind) ∧
      TakesMember fields name value rest draft next := by
  -- Whether the name is known or not, the value is read or passed over as a whole.
  simp only [readMember] at read
  split at read
  · cases read
  · rename_i name behind named
    obtain rfl := rest_of_readString pieces named
    split at read
    · -- A name that is not known: the value is passed over.
      rename_i unknown
      simp only [skipMember, skipColon_colon blankAfterName,
        skipValue_value blankBeforeValue isValue ends] at read
      cases read
      exact ⟨rfl, name, _, named, .other unknown⟩
    · -- A known name: the value fills its field, unless the field was given before.
      rename_i field known
      have member := List.mem_of_find?_eq_some known
      split at read
      · cases read
      · rename_i missing
        simp only [readFieldValue, skipColon_colon blankAfterName,
          ((lawful field member).drops draft).blank blankBeforeValue] at read
        split at read
        · cases read
        · rename_i next left filled
          cases read
          have same := (lawful field member).whole draft isValue ends filled
          rw [same] at filled
          exact ⟨same, name, _, named, .known known (Bool.eq_false_iff.2 missing) filled⟩

/-- Nothing is read in no steps. -/
theorem steps_of_readMembers {fields : List (Field δ)} {steps : Nat} {first : Bool} {draft : δ}
    {text : Bytes} {result : δ × Bytes} (read : readMembers fields steps first draft text = .ok result) :
    ∃ more, steps = more + 1 := by
  -- Without steps there is a fault.
  cases steps with
  | zero => cases read
  | succ steps => exact ⟨steps, rfl⟩

/-- Members that are read are read one after the other. -/
theorem readMembers_of_member {fields : List (Field δ)} (lawful : LawfulFields fields)
    {before key afterName beforeValue value after : List Char} (blankBefore : Blank before)
    (pieces : Pieces key) (blankAfterName : Blank afterName) (blankBeforeValue : Blank beforeValue)
    (isValue : IsValue value) (blankAfter : Blank after) {rest : Bytes} (ends : EndsNumber rest)
    {steps : Nat} {first : Bool} {draft : δ} {result : δ × Bytes}
    (read : readMembers fields steps first draft (separator first ++ (Bytes.ofChars before ++
      byte '"' :: (Bytes.ofChars key ++ byte '"' :: (Bytes.ofChars afterName ++ byte ':' ::
        (Bytes.ofChars beforeValue ++ (Bytes.ofChars value ++ (Bytes.ofChars after ++ rest))))))) =
          .ok result) :
    ∃ name behind steps next, readString (Bytes.ofChars key ++ byte '"' ::
      (Bytes.ofChars afterName ++ byte ':' :: (Bytes.ofChars beforeValue ++
        (Bytes.ofChars value ++ (Bytes.ofChars after ++ rest))))) = .ok (name, behind) ∧
      TakesMember fields name value (Bytes.ofChars after ++ rest) draft next ∧
      readMembers fields steps false next rest = .ok result := by
  obtain ⟨steps, rfl⟩ := steps_of_readMembers read
  rw [readMembers, nextKey_quote first blankBefore] at read
  -- Behind the quote the name of the member is read.
  simp only at read
  split at read
  · cases read
  · rename_i next left member
    obtain ⟨rfl, name, behind, named, takes⟩ := takesMember_of_readMember lawful pieces blankAfterName
      blankBeforeValue isValue (ends.blank blankAfter) member
    obtain ⟨steps, rfl⟩ := steps_of_readMembers read
    rw [readMembers_blank _ _ _ _ blankAfter] at read
    exact ⟨name, behind, _, next, named, takes, read⟩

/-- Reading goes on behind the members of an object, whatever texts their names spell. -/
theorem Derives.readMembers {fields : List (Field δ)} (lawful : LawfulFields fields) {part : Part}
    {text : List Char} (derives : Derives part text) (areMembers : part = .members) {rest : Bytes}
    (ends : EndsNumber rest) {steps : Nat} (isFirst : Bool) {draft : δ} {result : δ × Bytes}
    (read : Json.readMembers fields steps isFirst draft
      (separator isFirst ++ (Bytes.ofChars text ++ rest)) = .ok result) :
    ∃ steps next, Json.readMembers fields steps false next rest = .ok result := by
  -- The induction follows the derivation; what stands behind a member is a comma or the rest.
  induction derives generalizing steps isFirst draft rest with
  | member blankBefore pieces blankAfterName blankBeforeValue isValue blankAfter _ =>
    rw [ofChars_member] at read
    obtain ⟨_, _, steps, next, _, _, read⟩ := readMembers_of_member lawful blankBefore pieces
      blankAfterName blankBeforeValue isValue blankAfter ends read
    exact ⟨steps, next, read⟩
  | members _ _ first more =>
    -- The comma ends the value of the first member.
    rw [ofChars_comma] at read
    obtain ⟨steps, next, read⟩ := first rfl (endsNumber_comma _) isFirst read
    exact more rfl ends false read
  | _ => cases areMembers

/-! ### Elements -/

/-- What comes before an element may have blanks before it. -/
theorem dropsBlank_nextElement (first : Bool) : DropsBlank (nextElement first) := by
  -- The blanks that are dropped first are dropped anyway.
  intro text
  simp only [nextElement, dropBlank_dropBlank]

/-- A list goes on with the value that stands there. -/
theorem nextElement_value (first : Bool) {text rest : Bytes} {b : UInt8}
    (found : dropBlank text = b :: rest) (noBracket : b ≠ byte ']') :
    nextElement first (separator first ++ text) = .ok (.element, b :: rest) := by
  have marks : isBlank (byte ',') = false ∧ byte ',' ≠ byte ']' := by decide
  -- A comma is passed before all elements but the first.
  cases first with
  | true => simp [separator, nextElement, found, noBracket]
  | false => simp [separator, nextElement, dropBlank_cons marks.1, found, noBracket, marks]

/-- Only its bracket closes a list. -/
theorem bracket_of_closeList {text rest : Bytes} (closed : closeList text = .ok rest) :
    dropBlank text = byte ']' :: rest := by
  -- Behind a comma there is a fault in any case.
  simp only [closeList] at closed
  split at closed
  · cases closed
  · rename_i b more found
    split at closed
    · rename_i bracket
      cases closed
      rw [found, bracket]
    · split at closed
      · split at closed
        · cases closed
        · split at closed <;> cases closed
      · cases closed

/-- At the bracket of a list no more fields are read. -/
theorem readColumns_closing {fields : List (Field δ)} {first : Bool} {draft ends : δ} {count : Nat}
    {text left rest : Bytes} (bracket : dropBlank text = byte ']' :: rest)
    (read : readColumns fields first draft text = .ok (ends, count, left)) :
    dropBlank left = byte ']' :: rest := by
  cases fields with
  | nil =>
    cases read
    exact bracket
  | cons field fields =>
    -- The bracket is found where a value would begin, and no other field is read.
    have closing : nextElement first text = .ok (.closing, byte ']' :: rest) := by
      simp [nextElement, bracket]
    rw [readColumns, closing] at read
    cases read
    exact dropBlank_cons (by decide) rest

/-- Behind an element the next field is read, if there is one. -/
theorem readColumns_element {fields : List (Field δ)} (lawful : LawfulFields fields)
    {before value after : List Char} (blankBefore : Blank before) (isValue : IsValue value)
    (blankAfter : Blank after) {rest : Bytes} (endsNumber : EndsNumber rest) {first : Bool}
    {draft ends : δ} {count : Nat} {text left : Bytes}
    (same : dropBlank text = dropBlank (separator first ++
      (Bytes.ofChars before ++ (Bytes.ofChars value ++ (Bytes.ofChars after ++ rest)))))
    (read : readColumns fields first draft text = .ok (ends, count, left)) :
    (∃ others next count behind, (∀ field ∈ others, field ∈ fields) ∧
      dropBlank behind = dropBlank rest ∧
      readColumns others false next behind = .ok (ends, count, left)) ∨
    ∀ closed, closeList left ≠ .ok closed := by
  -- A value does not begin with the bracket that closes a list.
  obtain ⟨b, more, bytes, noBlank, noBracket⟩ : ∃ b more, Bytes.ofChars value ++
      (Bytes.ofChars after ++ rest) = b :: more ∧ isBlank b = false ∧ b ≠ byte ']' := by
    obtain ⟨n, passesOver⟩ := isValue.passes
    exact passesOver.opens _ (endsNumber.blank blankAfter)
  cases fields with
  | nil =>
    -- All fields were read before, so the list has too many elements.
    refine .inr fun closed closes => ?_
    cases read
    have bracket := bracket_of_closeList closes
    rw [same] at bracket
    cases first with
    | true =>
      -- The value stands where the bracket would.
      rw [separator, if_pos rfl, List.nil_append, dropBlank_blank blankBefore, bytes,
        dropBlank_cons noBlank] at bracket
      exact noBracket (List.cons.inj bracket).1
    | false =>
      -- A comma stands where the bracket would.
      have comma : isBlank (byte ',') = false := by decide
      rw [separator, if_neg (by decide), List.singleton_append, dropBlank_cons comma] at bracket
      exact absurd (List.cons.inj bracket).1 (by decide)
  | cons field others =>
    -- The next field is filled from the value, of which the whole is read.
    have next : nextElement first text = .ok (.element, b :: more) := by
      rw [← dropsBlank_nextElement, same, dropsBlank_nextElement]
      refine nextElement_value first ?_ noBracket
      rw [dropBlank_blank blankBefore, bytes, dropBlank_cons noBlank]
    rw [readColumns, next] at read
    simp only at read
    split at read
    · cases read
    · rename_i next behind filled
      split at read
      · cases read
      · rename_i more
        cases read
        rw [← bytes] at filled
        obtain rfl := (lawful field List.mem_cons_self).whole draft isValue
          (endsNumber.blank blankAfter) filled
        exact .inl ⟨others, next, _, _, fun _ => List.mem_cons_of_mem field,
          dropBlank_blank blankAfter rest, more⟩

/-- Fewer fields are read once and as a whole too. -/
theorem LawfulFields.subset {fields others : List (Field δ)} (lawful : LawfulFields fields)
    (subset : ∀ field ∈ others, field ∈ fields) : LawfulFields others := by
  -- Less is asked of a field among fewer.
  intro field member
  obtain ⟨drops, whole, marks, keeps⟩ := lawful field (subset field member)
  exact ⟨drops, whole, marks, fun other memberOther => keeps other (subset other memberOther)⟩

/-- Behind the elements of a list the next field is read, if there is one. -/
theorem Derives.readColumns {fields : List (Field δ)} (lawful : LawfulFields fields) {part : Part}
    {elements : List Char} (derives : Derives part elements) (areElements : part = .elements)
    {rest : Bytes} (endsNumber : EndsNumber rest) (isFirst : Bool) {draft ends : δ} {count : Nat}
    {text left : Bytes}
    (same : dropBlank text = dropBlank (separator isFirst ++ (Bytes.ofChars elements ++ rest)))
    (read : Json.readColumns fields isFirst draft text = .ok (ends, count, left)) :
    (∃ others next count behind, (∀ field ∈ others, field ∈ fields) ∧
      dropBlank behind = dropBlank rest ∧
      Json.readColumns others false next behind = .ok (ends, count, left)) ∨
    ∀ closed, closeList left ≠ .ok closed := by
  -- The fields become fewer with each element, until none is left and the list is not closed.
  induction derives generalizing fields isFirst draft rest count text with
  | element blankBefore isValue blankAfter _ =>
    rw [Bytes.ofChars_append, Bytes.ofChars_append, List.append_assoc, List.append_assoc] at same
    exact readColumns_element lawful blankBefore isValue blankAfter endsNumber same read
  | elements _ _ first more =>
    rw [ofChars_comma] at same
    -- Either fields are left behind the first element, or there were too few of them.
    rcases first lawful rfl (endsNumber_comma _) isFirst same read with
      ⟨others, next, count, behind, subset, same, read⟩ | tooMany
    · rcases more (lawful.subset subset) rfl endsNumber false same read with
        ⟨fewer, next, count, behind, subsetFewer, same, read⟩ | tooMany
      · exact .inl ⟨fewer, next, count, behind, fun field member =>
          subset field (subsetFewer field member), same, read⟩
      · exact .inr tooMany
    · exact .inr tooMany
  | _ => cases areElements

/-! ### Values -/

/-- At its closing brace an object goes on with nothing. -/
theorem readMembers_closing {fields : List (Field δ)} {steps : Nat} {first : Bool} {draft ends : δ}
    {rest left : Bytes} (read : readMembers fields steps first draft (byte '\x7d' :: rest) =
      .ok (ends, left)) : ends = draft ∧ left = byte '\x7d' :: rest := by
  -- The brace is found in the first step.
  obtain ⟨steps, rfl⟩ := steps_of_readMembers read
  rw [readMembers_brace] at read
  cases read
  exact ⟨rfl, rfl⟩

/-- The closing brace is passed with the object. -/
theorem afterObject_brace (rest : Bytes) : afterObject (byte '\x7d' :: rest) = rest := by
  have brace : isBlank (byte '\x7d') = false := by decide
  simp [afterObject, dropBlank_cons brace]

/-- An object that is read ends behind its members and gives the value that these fill. -/
theorem Shape.complete_of_readObject {shape : Shape α} {text rest : Bytes} {value : α}
    (read : shape.readObject text = .ok (value, rest)) : ∃ ends left,
      readMembers shape.fields (text.length + 1) true shape.blank text = .ok (ends, left) ∧
      afterObject left = rest := by
  -- The draft is completed only when all members were read.
  simp only [Shape.readObject] at read
  split at read
  · cases read
  · cases read
  · rename_i ends left members
    split at read
    · cases read
      exact ⟨ends, left, members, rfl⟩
    · cases read

/-- An object is read up to its closing brace. -/
theorem Shape.rest_of_readObject {shape : Shape α} (lawful : LawfulFields shape.fields)
    {inner : List Char} (holds : Blank inner ∨ Derives .members inner) {rest left : Bytes} {value : α}
    (read : shape.readObject (Bytes.ofChars inner ++ byte '\x7d' :: rest) = .ok (value, left)) :
    left = rest := by
  -- Reading stops at the brace that closes the object, since it goes on behind all members.
  obtain ⟨ends, behind, members, rfl⟩ := Shape.complete_of_readObject read
  have closing : behind = byte '\x7d' :: rest := by
    rcases holds with blank | derives
    · rw [readMembers_blank _ _ _ _ blank] at members
      exact (readMembers_closing members).2
    · obtain ⟨steps, next, members⟩ :=
        derives.readMembers lawful rfl (endsNumber_brace rest) true members
      exact (readMembers_closing members).2
  rw [closing, afterObject_brace]

/-- A list is read up to its closing bracket. -/
theorem Shape.rest_of_readList {shape : Shape α} (lawful : LawfulFields shape.fields)
    {inner : List Char} (holds : Blank inner ∨ Derives .elements inner) {rest left : Bytes} {value : α}
    (read : shape.readList (Bytes.ofChars inner ++ byte ']' :: rest) = .ok (value, left)) :
    left = rest := by
  have bracket : dropBlank (byte ']' :: rest) = byte ']' :: rest := dropBlank_cons (by decide) rest
  simp only [Shape.readList] at read
  split at read
  · cases read
  · rename_i ends count behind columns
    split at read
    · obtain ⟨out, closed, same⟩ := exists_of_map read
      obtain rfl := (Prod.mk.inj same).2
      -- Reading stops at the bracket, since no field is left or none is filled any more.
      have closing : dropBlank behind = byte ']' :: rest := by
        rcases holds with blank | derives
        · exact readColumns_closing ((dropBlank_blank blank _).trans bracket) columns
        · rcases derives.readColumns lawful rfl (endsNumber_bracket rest) true rfl columns
            with ⟨others, next, count, text, _, same, columns⟩ | tooMany
          · exact readColumns_closing (same.trans bracket) columns
          · exact absurd closed (tooMany _)
      exact (List.cons.inj ((bracket_of_closeList closed).symm.trans closing)).2
    · cases read

/-- What is read of a value with named fields is the whole of it. -/
theorem Shape.readsWhole {shape : Shape α} (lawful : LawfulFields shape.fields) :
    ReadsWhole shape.read := by
  -- The first byte says how the value is read.
  intro text isValue rest value left ends passed
  obtain ⟨b, more, bytes, noBlank, opened⟩ := isValue.opened ends
  rw [bytes, Shape.read, dropBlank_cons noBlank] at passed
  cases opened with
  -- Fields are read from an object by their names, or from a list in their order.
  | object holds => exact Shape.rest_of_readObject lawful holds passed
  | list holds => exact Shape.rest_of_readList lawful holds passed
  | number first =>
    have apart : b ≠ byte '\x7b' ∧ b ≠ byte '[' :=
      ⟨ne_of_first first (by decide) (by decide), ne_of_first first (by decide) (by decide)⟩
    simp [apart] at passed
  | null => cases passed
  | yes => cases passed
  | no => cases passed
  | text => cases passed

/-! ### Names that occur twice -/

/-- Whether members were read from one draft to another, one after the other. -/
inductive TakesMembers (fields : List (Field δ)) : List (String × List Char) → δ → δ → Prop where
  | nil (draft : δ) : TakesMembers fields [] draft draft
  | cons {name : String} {value : List Char} {members : List (String × List Char)} {rest : Bytes}
    {draft next ends : δ} (endsNumber : EndsNumber rest)
    (takes : TakesMember fields name value rest draft next)
    (more : TakesMembers fields members next ends) :
    TakesMembers fields ((name, value) :: members) draft ends

/-- One member of an object is read under the name that it spells. -/
theorem SpellsMember.takes {fields : List (Field δ)} (lawful : LawfulFields fields) {name : String}
    {value text : List Char} (spells : SpellsMember name value text) {rest : Bytes}
    (endsNumber : EndsNumber rest) {steps : Nat} {first : Bool} {draft : δ} {result : δ × Bytes}
    (read : readMembers fields steps first draft (separator first ++ (Bytes.ofChars text ++ rest)) =
      .ok result) : ∃ steps next behind, EndsNumber behind ∧
        TakesMember fields name value behind draft next ∧
        readMembers fields steps false next rest = .ok result := by
  -- The name that is read is the one that the member spells.
  obtain ⟨before, key, afterName, beforeValue, after, blankBefore, spells, blankAfterName,
    blankBeforeValue, isValue, blankAfter, bytes⟩ := spells.bytes
  rw [bytes] at read
  obtain ⟨other, left, steps, next, named, takes, read⟩ := readMembers_of_member lawful blankBefore
    spells.pieces blankAfterName blankBeforeValue isValue blankAfter endsNumber read
  rw [readString_spelled spells] at named
  cases named
  exact ⟨steps, next, _, endsNumber.blank blankAfter, takes, read⟩

/-- The members of an object are read one after the other. -/
theorem SpellsMembers.takes {fields : List (Field δ)} (lawful : LawfulFields fields)
    {members : List (String × List Char)} {text : List Char} (spells : SpellsMembers members text)
    {steps : Nat} (first : Bool) {draft ends : δ} {rest left : Bytes}
    (read : readMembers fields steps first draft
      (separator first ++ (Bytes.ofChars text ++ byte '\x7d' :: rest)) = .ok (ends, left)) :
    TakesMembers fields members draft ends := by
  -- Behind each member but the last stands a comma.
  induction spells generalizing steps first draft with
  | one last =>
    -- The brace stands behind the last member.
    obtain ⟨steps, next, behind, endsNumber, takes, read⟩ :=
      last.takes lawful (endsNumber_brace rest) read
    obtain ⟨rfl, _⟩ := readMembers_closing read
    exact .cons endsNumber takes (.nil _)
  | more member _ ih =>
    rw [ofChars_comma] at read
    obtain ⟨steps, next, behind, endsNumber, takes, read⟩ :=
      member.takes lawful (endsNumber_comma _) read
    exact .cons endsNumber takes (ih false read)

/-- An object that is read is read member by member. -/
theorem Shape.takes_of_read {shape : Shape α} (lawful : LawfulFields shape.fields)
    {members : List (String × List Char)} {text : List Char} (spells : SpellsObject members text)
    {rest left : Bytes} {value : α} (read : shape.read (Bytes.ofChars text ++ rest) = .ok (value, left)) :
    ∃ ends, TakesMembers shape.fields members shape.blank ends := by
  have brace : isBlank (byte '\x7b') = false := by decide
  cases spells with
  -- Nothing is read between the braces, or the members are.
  | empty => exact ⟨_, .nil _⟩
  | filled spells =>
    rw [ofChars_around (by decide) (by decide), Shape.read, dropBlank_cons brace] at read
    obtain ⟨ends, behind, members, _⟩ := Shape.complete_of_readObject read
    exact ⟨ends, spells.takes lawful true members⟩

/-- A name of a field occurs once at most among members that are read, and not if it is given. -/
theorem TakesMembers.count_le {fields : List (Field δ)} (lawful : LawfulFields fields)
    {members : List (String × List Char)} {draft ends : δ}
    (takes : TakesMembers fields members draft ends) {field : Field δ} {name : String}
    (named : fields.find? (fun field => field.name = name) = some field) :
    (members.map Prod.fst).count name ≤ if field.isGiven draft then 0 else 1 := by
  have listed := List.mem_of_find?_eq_some named
  -- The field is given from the member on that has its name.
  induction takes with
  | nil => exact Nat.zero_le _
  | @cons other value members rest draft next ends _ member _ ih =>
    rw [List.map_cons, List.count_cons]
    cases member with
    | other unknown =>
      -- A name that is not known is not that of the field.
      have apart : other ≠ name := by
        rintro rfl
        simp [named] at unknown
      simpa [apart] using ih
    | @known field' _ named' missing filled =>
      by_cases same : other = name
      · -- The field was missing before and is given from here on, so the name does not come again.
        subst same
        obtain rfl := Option.some.inj (named.symm.trans named')
        have given := (lawful field listed).marks filled
        simp only [given, if_true] at ih
        simpa [missing] using ih
      · -- Another field is filled, and what was given stays so.
        have stays := (lawful field' (List.mem_of_find?_eq_some named')).keeps field listed filled
        have once : (members.map Prod.fst).count name ≤ if field.isGiven draft then 0 else 1 := by
          refine Nat.le_trans ih ?_
          cases given : field.isGiven draft with
          | true => simp [stays given]
          | false => split <;> simp
        simpa [same] using once

/-- The value of a member whose name is that of a field was read into the field. -/
theorem TakesMembers.filled {fields : List (Field δ)} {members : List (String × List Char)}
    {draft ends : δ} (takes : TakesMembers fields members draft ends) {name : String}
    {value : List Char} (listed : (name, value) ∈ members) {field : Field δ}
    (named : fields.find? (fun field => field.name = name) = some field) :
    ∃ draft next rest, EndsNumber rest ∧
      field.fill draft (Bytes.ofChars value ++ rest) = .ok (next, rest) := by
  -- A member whose name is known was read into the field of that name.
  induction takes with
  | nil => cases listed
  | cons endsNumber member _ ih =>
    rcases List.mem_cons.1 listed with here | later
    · cases here
      cases member with
      | other unknown => simp [named] at unknown
      | known known _ filled =>
        obtain rfl := Option.some.inj (named.symm.trans known)
        exact ⟨_, _, _, endsNumber, filled⟩
    · exact ih later

/-- A text that is an object which was decoded was read member by member. -/
theorem Shape.takes_of_decode {shape : Shape α} (lawful : LawfulFields shape.fields)
    {members : List (String × List Char)} {text : List Char} (spells : SpellsDocument members text)
    {value : α} (decoded : decode shape.read (Bytes.ofChars text) = .ok value) :
    ∃ ends, TakesMembers shape.fields members shape.blank ends := by
  -- Blanks may stand before the object.
  cases spells with
  | blanks blankBefore spells blankAfter =>
    rw [Bytes.ofChars_append, Bytes.ofChars_append, decode,
      shape.dropsBlank_read.blank blankBefore] at decoded
    split at decoded
    · cases decoded
    · rename_i read
      exact Shape.takes_of_read lawful spells read

/-- An object that names a field twice is not read. -/
theorem Shape.refuses_repeated {shape : Shape α} (lawful : LawfulFields shape.fields)
    {members : List (String × List Char)} {text : List Char} (spells : SpellsObject members text)
    {field : Field shape.Draft} {name : String}
    (named : shape.fields.find? (fun field => field.name = name) = some field)
    (twice : 1 < (members.map Prod.fst).count name) (rest : Bytes) :
    ∃ fault, shape.read (Bytes.ofChars text ++ rest) = .error fault := by
  -- If the object were read, the name would occur once at most.
  cases read : shape.read (Bytes.ofChars text ++ rest) with
  | error fault => exact ⟨fault, rfl⟩
  | ok result =>
    obtain ⟨ends, takes⟩ := Shape.takes_of_read lawful spells read
    have once := takes.count_le lawful named
    split at once <;> omega

/-- A text that is an object which names a field twice is not decoded. -/
theorem Shape.refuses_document {shape : Shape α} (lawful : LawfulFields shape.fields)
    {members : List (String × List Char)} {text : List Char} (spells : SpellsDocument members text)
    {field : Field shape.Draft} {name : String}
    (named : shape.fields.find? (fun field => field.name = name) = some field)
    (wrong : 1 < (members.map Prod.fst).count name ∨ ∃ value, (name, value) ∈ members ∧
      ∀ draft rest, ∃ fault, field.fill draft (Bytes.ofChars value ++ rest) = .error fault) :
    ∃ error, decode shape.read (Bytes.ofChars text) = .error error := by
  cases decoded : decode shape.read (Bytes.ofChars text) with
  | error error => exact ⟨error, rfl⟩
  | ok value =>
    -- A document that was decoded was read member by member, which neither fault allows.
    obtain ⟨ends, takes⟩ := Shape.takes_of_decode lawful spells decoded
    rcases wrong with twice | ⟨value, listed, refused⟩
    · have once := takes.count_le lawful named
      split at once <;> omega
    · obtain ⟨draft, next, rest, _, filled⟩ := takes.filled listed named
      obtain ⟨fault, refused⟩ := refused draft rest
      exact nomatch refused.symm.trans filled

end KeyDispensary.Json
