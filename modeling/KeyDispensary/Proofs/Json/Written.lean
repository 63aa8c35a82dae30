import KeyDispensary.Proofs.Json.Numbers
import KeyDispensary.Proofs.Json.Strings

/-!
What is written is JSON text: single values, lists of bytes, and objects on one line or on several.
Main statements: `Json.spellsObject_writeObject` and `Json.spellsObject_writeBlock`.
-/

namespace KeyDispensary.Json

/-! ### Single values -/

/-- A written string is a JSON value. -/
theorem isValue_writeString (value : String) : IsValue (writeString value) :=
  (spellsText_writeString value).isValue

/-- A written flag is a JSON value. -/
theorem isValue_writeFlag (value : Bool) : IsValue (writeFlag value) := by
  -- Both flags are words of the grammar.
  cases value with
  | false => exact .word (.inr (.inr rfl))
  | true => exact .word (.inr (.inl rfl))

/-- A digit is a decimal digit, and only that of zero is the zero. -/
theorem digitChar_decimal : ∀ digit < 10, ('0' ≤ Nat.digitChar digit ∧ Nat.digitChar digit ≤ '9') ∧
    (0 < digit → Nat.digitChar digit ≠ '0') := by
  decide

/-- The digits of a number are those of one, without zeros before them. -/
theorem whole_writeNat (n : Nat) : Whole (writeNat n) := by
  -- The digits before the last one are those of a tenth of the number, which is not zero.
  have positive (n : Nat) (some : 0 < n) :
      ∃ c text, writeNat n = c :: text ∧ Digits (c :: text) ∧ c ≠ '0' := by
    induction n using Nat.strongRecOn with
    | ind n ih =>
      by_cases single : n < 10
      · obtain ⟨decimal, leading⟩ := digitChar_decimal n single
        refine ⟨_, [], Nat.toDigits_of_lt_base single, ⟨List.cons_ne_nil _ _, ?_⟩, leading some⟩
        simpa using decimal
      · obtain ⟨c, text, written, digits, leading⟩ := ih (n / 10) (by omega) (by omega)
        have decimal := (digitChar_decimal (n % 10) (Nat.mod_lt n (by decide))).1
        refine ⟨c, text ++ [Nat.digitChar (n % 10)], ?_, ⟨List.cons_ne_nil _ _, ?_⟩, leading⟩
        · rw [writeNat, Nat.toDigits_of_base_le (by decide) (by omega), ← writeNat, written]
          rfl
        · intro d member
          rw [← List.cons_append, List.mem_append, List.mem_singleton] at member
          rcases member with early | rfl
          · exact digits.2 d early
          · exact decimal
  rcases Nat.eq_zero_or_pos n with rfl | some
  · exact .zero
  · obtain ⟨c, text, written, digits, leading⟩ := positive n some
    rw [written]
    exact .digits digits leading

/-- A written number is a JSON value. -/
theorem isValue_writeNat (n : Nat) : IsValue (writeNat n) := by
  -- It has no sign, no fraction and no exponent.
  have number := IsNumber.parts (.inl rfl) (whole_writeNat n) .none .none
  exact .number (by simpa using number)

/-! ### Lists and objects -/

/-- Nothing is blank. -/
theorem blank_nil : Blank [] := by
  intro c member
  cases member

/-- Values with commas between them stand within a list. -/
theorem derives_joined {value : List Char} {more : List (List Char)}
    (values : ∀ text ∈ value :: more, IsValue text) : Derives .elements (joined (value :: more)) := by
  -- A comma stands before each value but the first.
  induction more generalizing value with
  | nil =>
    have element := Derives.element blank_nil (values value List.mem_cons_self) blank_nil
    simpa [joined] using element
  | cons next more ih =>
    have element := Derives.element blank_nil (values value List.mem_cons_self) blank_nil
    rw [List.nil_append, List.append_nil] at element
    exact .elements element (ih fun text member => values text (.tail _ member))

/-- Written bytes are a JSON value. -/
theorem isValue_writeOctets (octets : Bytes) : IsValue (writeOctets octets) := by
  cases octets with
  -- No bytes are an empty list, and others are joined by commas.
  | nil => exact .emptyList blank_nil
  | cons b octets =>
    have each : ∀ text ∈ (b :: octets).map fun b => writeNat b.toNat, IsValue text := by
      intro text member
      obtain ⟨b, _, rfl⟩ := List.mem_map.1 member
      exact isValue_writeNat b.toNat
    exact .list (derives_joined each)

/-- Members with commas between them stand within an object. -/
theorem spellsMembers_joined {write : String × List Char → List Char} {member : String × List Char}
    {more : List (String × List Char)}
    (each : ∀ pair ∈ member :: more, SpellsMember pair.1 pair.2 (write pair)) :
    SpellsMembers (member :: more) (joined ((member :: more).map write)) := by
  -- A comma stands before each member but the first.
  induction more generalizing member with
  | nil => exact .one (each member List.mem_cons_self)
  | cons next more ih =>
    exact .more (each member List.mem_cons_self) (ih fun pair listed => each pair (.tail _ listed))

/-- A member on the line of its object is spelled as it is written. -/
theorem spellsMember_writeMember {member : String × List Char} (isValue : IsValue member.2) :
    SpellsMember member.1 member.2 (writeMember member) := by
  -- There are no blanks around the name and the value.
  have spells := SpellsMember.colon blank_nil (spellsText_writeString member.1) blank_nil blank_nil
    isValue blank_nil
  simpa [writeMember] using spells

/-- An object on one line is spelled as it is written. -/
theorem spellsObject_writeObject {members : List (String × List Char)}
    (values : ∀ member ∈ members, IsValue member.2) : SpellsObject members (writeObject members) := by
  -- Only an object without members has nothing between its braces.
  cases members with
  | nil => exact .empty blank_nil
  | cons member more =>
    exact .filled (spellsMembers_joined fun pair listed => spellsMember_writeMember (values pair listed))

/-- A new line and its indentation are blank. -/
theorem blank_newLine (depth : Nat) : Blank (newLine depth) := by
  -- The first character is a line feed, and all others are spaces.
  intro c member
  rcases List.mem_cons.1 member with rfl | space
  · exact .inr (.inr (.inl rfl))
  · exact .inl (List.eq_of_mem_replicate space)

/-- A member on a line of its own is spelled as it is written. -/
theorem spellsMember_writeLine (depth : Nat) {member : String × List Char}
    (isValue : IsValue member.2) : SpellsMember member.1 member.2 (writeLine depth member) := by
  -- Before the name stands the indentation, and one space before the value.
  have space : Blank [' '] := by
    intro c member
    exact .inl (List.mem_singleton.1 member)
  have spells := SpellsMember.colon (blank_newLine depth) (spellsText_writeString member.1) blank_nil
    space isValue blank_nil
  simpa [writeLine] using spells

/-- Blanks may follow the last member. -/
theorem SpellsMembers.blankAfter {members : List (String × List Char)} {text blanks : List Char}
    (spells : SpellsMembers members text) (blank : Blank blanks) :
    SpellsMembers members (text ++ blanks) := by
  -- Only the last member is changed, where blanks may follow its value anyway.
  induction spells with
  | one last =>
    cases last with
    | colon blankBefore spells blankAfterName blankBeforeValue isValue blankAfter =>
      have both : Blank (_ ++ blanks) := fun c member =>
        (List.mem_append.1 member).elim (blankAfter c) (blank c)
      have spells := SpellsMember.colon blankBefore spells blankAfterName blankBeforeValue isValue both
      exact .one (by simpa using spells)
  | more first _ ih =>
    rw [List.append_assoc, List.cons_append]
    exact .more first ih

/-- An object with a line per member is spelled as it is written. -/
theorem spellsObject_writeBlock (depth : Nat) {members : List (String × List Char)}
    (values : ∀ member ∈ members, IsValue member.2) :
    SpellsObject members (writeBlock depth members) := by
  -- The closing brace has a line of its own, which is blank before it.
  cases members with
  | nil => exact .empty (blank_newLine depth)
  | cons member more =>
    refine .filled (SpellsMembers.blankAfter ?_ (blank_newLine depth))
    exact spellsMembers_joined fun pair listed => spellsMember_writeLine _ (values pair listed)

end KeyDispensary.Json
