import KeyDispensary.Proofs.Json.Ends
import KeyDispensary.Proofs.Json.Grammar
import KeyDispensary.Proofs.Json.Numbers
import KeyDispensary.Proofs.Text.Utf8

/-!
Strings are read as the texts that they spell, however these are spelled, and passed over whatever they
hold. Main statements: `Json.readText_spelled` and `Json.skipString_pieces`.
-/

namespace KeyDispensary.Json

/-! ### Characters of one byte -/

/-- A character below 128 is written as its byte. -/
theorem ofChars_ascii {c : Char} (ascii : c.toNat < 128) (chars : List Char) :
    Bytes.ofChars (c :: chars) = byte c :: Bytes.ofChars chars := by
  -- It is the only byte of the character.
  rw [Bytes.ofChars_cons, Utf8.encode_one ascii]
  rfl

/-- The byte of a character below 128 holds its code. -/
theorem toNat_byte {c : Char} (ascii : c.toNat < 128) : (byte c).toNat = c.toNat :=
  Utf8.toNat_ofNat_small (by omega)

/-- Characters below 128 have bytes of their own. -/
theorem byte_inj {c other : Char} (ascii : c.toNat < 128) (asciiOther : other.toNat < 128) :
    byte c = byte other ↔ c = other := by
  refine ⟨fun same => ?_, congrArg byte⟩
  -- Their codes fit into the bytes.
  have numbers := congrArg UInt8.toNat same
  rw [toNat_byte ascii, toNat_byte asciiOther] at numbers
  exact Char.toNat_inj.1 numbers

/-- Blanks are dropped before anything that is read. -/
theorem dropBlank_blank {blanks : List Char} (blank : Blank blanks) (rest : Bytes) :
    dropBlank (Bytes.ofChars blanks ++ rest) = dropBlank rest := by
  -- Blank after blank is dropped.
  induction blanks with
  | nil => rfl
  | cons c blanks ih =>
    have others := ih fun other member => blank other (.tail _ member)
    -- Each of the four blanks is one byte.
    rcases blank c List.mem_cons_self with rfl | rfl | rfl | rfl <;>
      exact others

/-! ### Hexadecimal escapes -/

/-- A hexadecimal digit is a byte of its own. -/
theorem ascii_of_value {c : Char} {n : Nat} (value : Hex.value? c = some n) : c.toNat < 128 := by
  -- Digits and letters of both cases are below 128.
  simp only [Hex.value?] at value
  split at value
  · rename_i range
    exact Nat.lt_of_le_of_lt range.2 (by decide)
  · split at value
    · rename_i range
      exact Nat.lt_of_le_of_lt range.2 (by decide)
    · split at value
      · rename_i range
        exact Nat.lt_of_le_of_lt range.2 (by decide)
      · cases value

/-- The byte of a hexadecimal digit has the value of the digit. -/
theorem hexValue_byte {c : Char} {n : Nat} (value : Hex.value? c = some n) :
    hexValue? (byte c) = some n := by
  -- The byte stands for the digit alone.
  rw [hexValue?, toNat_byte (ascii_of_value value), Char.ofNat_toNat, value]

/-- An escape of a unit is six bytes, of which the last four spell the unit. -/
theorem UnitEscape.bytes {code : Nat} {text : List Char} (escape : UnitEscape code text) :
    ∃ first second third fourth, Bytes.ofChars text =
      [byte '\\', byte 'u', first, second, third, fourth] ∧
      codeUnit? first second third fourth = some code := by
  -- Every hexadecimal digit is one byte.
  cases escape with
  | @digits first second third fourth a b c d one two three four =>
    refine ⟨byte first, byte second, byte third, byte fourth, ?_, ?_⟩
    · -- The backslash and the letter are bytes as well.
      rw [ofChars_ascii (by decide), ofChars_ascii (by decide), ofChars_ascii (ascii_of_value one),
        ofChars_ascii (ascii_of_value two), ofChars_ascii (ascii_of_value three),
        ofChars_ascii (ascii_of_value four)]
      rfl
    · simp only [codeUnit?, hexValue_byte one, hexValue_byte two, hexValue_byte three,
        hexValue_byte four]

/-! ### Characters that stand for themselves -/

/-- The bytes of a character that may stand alone neither end a string nor begin an escape. -/
theorem StandsAlone.bytes {c : Char} (stands : StandsAlone c) {b : UInt8}
    (member : b ∈ String.utf8EncodeChar c) : b ≠ byte '"' ∧ b ≠ byte '\\' ∧ ¬ b.toNat < 32 := by
  obtain ⟨printable, noQuote, noBackslash⟩ := stands
  rcases Nat.lt_or_ge c.toNat 128 with ascii | past
  · -- The only byte of the character is its code.
    rw [Utf8.encode_one ascii, List.mem_singleton] at member
    obtain rfl : b = byte c := member
    rw [ne_eq, ne_eq, byte_inj ascii (by decide), byte_inj ascii (by decide), toNat_byte ascii]
    exact ⟨noQuote, noBackslash, Nat.not_lt.2 printable⟩
  · -- Every byte of a character past 127 is past 127.
    have high := Utf8.high_of_mem past member
    have apart (other : UInt8) (low : other.toNat < 128) : b ≠ other := by
      rintro rfl
      omega
    exact ⟨apart _ (by decide), apart _ (by decide), by omega⟩

/-- Bytes that neither end a string nor begin an escape are read as they are. -/
theorem readBytes_alone {bytes : Bytes}
    (stand : ∀ b ∈ bytes, b ≠ byte '"' ∧ b ≠ byte '\\' ∧ ¬ b.toNat < 32) (text : Bytes) :
    readBytes (bytes ++ text) = prepend bytes (readBytes text) := by
  -- One byte after the other is put before what is read next.
  induction bytes with
  | nil =>
    rw [List.nil_append]
    cases readBytes text <;> rfl
  | cons b bytes ih =>
    obtain ⟨noQuote, noBackslash, printable⟩ := stand b List.mem_cons_self
    rw [List.cons_append, readBytes.eq_def]
    simp only [noQuote, noBackslash, printable, if_false,
      ih fun other member => stand other (.tail _ member)]
    cases readBytes text <;> rfl

/-- Bytes that neither end a string nor begin an escape are passed over. -/
theorem skipString_alone {bytes : Bytes}
    (stand : ∀ b ∈ bytes, b ≠ byte '"' ∧ b ≠ byte '\\' ∧ ¬ b.toNat < 32) (text : Bytes) :
    skipString (bytes ++ text) = skipString text := by
  -- One byte after the other is passed over.
  induction bytes with
  | nil => rfl
  | cons b bytes ih =>
    obtain ⟨noQuote, noBackslash, printable⟩ := stand b List.mem_cons_self
    rw [List.cons_append, skipString.eq_def]
    simp only [noQuote, noBackslash, printable, if_false,
      ih fun other member => stand other (.tail _ member)]

/-! ### Reading strings -/

/-- An escape of two characters is not that of a unit, and stands for the character of its letter. -/
theorem escapedByte_letter {letter c : Char} (listed : (letter, c) ∈ letters) :
    letter.toNat < 128 ∧ c.toNat < 128 ∧ byte letter ≠ byte 'u' ∧
      escapedByte? (byte letter) = some (byte c) := by
  -- There are eight letters.
  have each : ∀ pair ∈ letters, pair.1.toNat < 128 ∧ pair.2.toNat < 128 ∧ byte pair.1 ≠ byte 'u' ∧
      escapedByte? (byte pair.1) = some (byte pair.2) := by
    decide
  exact each (letter, c) listed

/-- A spelled character is read as its bytes. -/
theorem SpellsChar.readBytes {c : Char} {piece : List Char} (spells : SpellsChar c piece)
    (text : Bytes) : Json.readBytes (Bytes.ofChars piece ++ text) =
      prepend (String.utf8EncodeChar c) (Json.readBytes text) := by
  -- A character is spelled by itself, by a letter, by one unit or by two.
  cases spells with
  | alone stands =>
    -- The bytes of the character are read as they are.
    have bytes : Bytes.ofChars [c] = String.utf8EncodeChar c := List.append_nil _
    rw [bytes, readBytes_alone fun b member => stands.bytes member]
  | letter listed =>
    -- The letter is read as the one byte of the character.
    obtain ⟨ascii, asciiChar, noUnit, plain⟩ := escapedByte_letter listed
    rw [ofChars_ascii (by decide), ofChars_ascii ascii, Utf8.encode_one asciiChar]
    have backslash : byte '\\' ≠ byte '"' := by decide
    change Json.readBytes (byte '\\' :: byte _ :: text) = _
    rw [readBytes.eq_def]
    simp only [backslash, noUnit, plain, if_false, if_true]
    rfl
  | unit escape =>
    obtain ⟨first, second, third, fourth, bytes, unit⟩ := escape.bytes
    -- No character is half of a pair.
    have valid := Utf8.valid_code c
    have whole : isTrailing c.toNat = false ∧ isLeading c.toNat = false := by
      simp only [isTrailing, isLeading, Bool.and_eq_false_iff, decide_eq_false_iff_not]
      omega
    have backslash : byte '\\' ≠ byte '"' := by decide
    rw [bytes]
    change Json.readBytes (byte '\\' :: byte 'u' :: first :: second :: third :: fourth :: text) = _
    rw [readBytes.eq_def]
    simp only [backslash, unit, whole, codePoint, Char.ofNat_toNat, if_false, if_true,
      Bool.false_eq_true, Bool.not_false]
  | pair one two leads trails code =>
    obtain ⟨first, second, third, fourth, bytes, unit⟩ := one.bytes
    obtain ⟨fifth, sixth, seventh, eighth, moreBytes, secondUnit⟩ := two.bytes
    rename_i leading trailing _ _
    -- The first half is known as a leading one, and the second as a trailing one.
    have halves : isTrailing leading = false ∧ isLeading leading = true ∧
        isTrailing trailing = true := by
      simp only [isTrailing, isLeading, Bool.and_eq_false_iff, decide_eq_false_iff_not,
        Bool.and_eq_true, decide_eq_true_eq]
      omega
    have backslash : byte '\\' ≠ byte '"' := by decide
    rw [Bytes.ofChars_append, bytes, moreBytes]
    change Json.readBytes (byte '\\' :: byte 'u' :: first :: second :: third :: fourth ::
      byte '\\' :: byte 'u' :: fifth :: sixth :: seventh :: eighth :: text) = _
    rw [readBytes.eq_def]
    simp only [backslash, unit, secondUnit, halves, pairedUnits, codePoint, ← code,
      Char.ofNat_toNat, if_false, if_true, Bool.false_eq_true, Bool.not_true, ne_eq,
      not_true_eq_false]

/-- Spelled characters are read as their bytes, up to the closing quote. -/
theorem SpellsChars.readBytes {chars text : List Char} (spells : SpellsChars chars text)
    (rest : Bytes) : Json.readBytes (Bytes.ofChars text ++ byte '"' :: rest) =
      .ok (Bytes.ofChars chars, rest) := by
  -- The closing quote ends what is read.
  induction spells with
  | nil =>
    change Json.readBytes (byte '"' :: rest) = _
    rw [readBytes.eq_def]
    rfl
  | cons first _ ih =>
    rw [Bytes.ofChars_append, List.append_assoc, first.readBytes, ih, Bytes.ofChars_cons]
    rfl

/-- The quotes of a string stand around what it spells. -/
theorem SpellsText.bytes {value : String} {text : List Char} (spells : SpellsText value text) :
    ∃ inner, SpellsChars value.toList inner ∧
      Bytes.ofChars text = byte '"' :: (Bytes.ofChars inner ++ [byte '"']) := by
  -- Each quote is one byte.
  cases spells with
  | quoted spells =>
    refine ⟨_, spells, ?_⟩
    rw [ofChars_ascii (by decide), Bytes.ofChars_append, ofChars_ascii (by decide)]
    rfl

/-- Behind its opening quote a string is read as the text that it spells. -/
theorem readString_spelled {value : String} {inner : List Char}
    (spells : SpellsChars value.toList inner) (rest : Bytes) :
    readString (Bytes.ofChars inner ++ byte '"' :: rest) = .ok (value, rest) := by
  -- The bytes of a text are UTF-8.
  simp only [readString, spells.readBytes, Utf8.decode_ofChars, String.ofList_toList]

/-- A string is read as the text that it spells. -/
theorem readText_spelled {value : String} {text : List Char} (spells : SpellsText value text)
    (rest : Bytes) : readText (Bytes.ofChars text ++ rest) = .ok (value, rest) := by
  obtain ⟨inner, spells, bytes⟩ := spells.bytes
  -- The string begins with its quote, which is no blank.
  have quote : isBlank (byte '"') = false := by decide
  have read := readString_spelled spells rest
  simp [bytes, readText, readTextAs, dropBlank, quote, read]

/-! ### Passing over strings -/

/-- A string ends at its closing quote. -/
theorem skipString_quote (text : Bytes) : skipString (byte '"' :: text) = .ok text := by
  rw [skipString.eq_def]
  rfl

/-- An escape of two bytes is passed over. -/
theorem skipString_letter {letter : UInt8} (noUnit : letter ≠ byte 'u')
    (known : (escapedByte? letter).isSome = true) (text : Bytes) :
    skipString (byte '\\' :: letter :: text) = skipString text := by
  -- It begins with a backslash, which does not close a string.
  have backslash : byte '\\' ≠ byte '"' := by decide
  rw [skipString.eq_def]
  simp only [backslash, noUnit, known, if_false, if_true]

/-- An escape of six bytes is passed over. -/
theorem skipString_unit {first second third fourth : UInt8}
    (unit : (codeUnit? first second third fourth).isSome = true) (text : Bytes) :
    skipString (byte '\\' :: byte 'u' :: first :: second :: third :: fourth :: text) =
      skipString text := by
  have backslash : byte '\\' ≠ byte '"' := by decide
  rw [skipString.eq_def]
  simp only [backslash, unit, if_false, if_true]

/-- A string is passed over, whatever it holds. -/
theorem skipString_pieces {text : List Char} (pieces : Pieces text) (rest : Bytes) :
    skipString (Bytes.ofChars text ++ byte '"' :: rest) = .ok rest := by
  -- Every piece is passed over as a whole, up to the closing quote.
  induction pieces with
  | nil => exact skipString_quote rest
  | alone stands _ ih =>
    rw [Bytes.ofChars_cons, List.append_assoc, skipString_alone fun b member => stands.bytes member,
      ih]
  | letter listed _ ih =>
    obtain ⟨ascii, _, noUnit, plain⟩ := escapedByte_letter listed
    rw [ofChars_ascii (by decide), ofChars_ascii ascii, List.cons_append, List.cons_append,
      skipString_letter noUnit (by rw [plain]; rfl), ih]
  | unit escape _ ih =>
    obtain ⟨first, second, third, fourth, bytes, unit⟩ := escape.bytes
    rw [Bytes.ofChars_append, bytes, List.append_assoc]
    simp only [List.cons_append, List.nil_append]
    rw [skipString_unit (by rw [unit]; rfl), ih]

/-- What is read as a string is also passed over as one. -/
theorem skipString_of_readBytes {text bytes rest : Bytes}
    (read : readBytes text = .ok (bytes, rest)) : skipString text = .ok rest := by
  -- Each byte that is read stands alone, and each escape that is read is one that is passed over.
  fun_induction readBytes text generalizing bytes rest with
  | case12 _ _ _ _ _ first _ _ _ backslash _ unit _ _ _ _ _ _ another _ _ ih =>
    -- Both halves of a pair are escapes of their own.
    obtain ⟨more, read, _⟩ := exists_of_prepend read
    obtain rfl := Decidable.not_not.1 backslash
    obtain rfl := Decidable.not_not.1 unit
    rw [skipString_unit (by rw [first]; rfl), skipString_unit (by rw [another]; rfl)]
    exact ih read
  | case19 b text noQuote noBackslash printable ih =>
    -- The byte is none that ends a string or begins an escape.
    obtain ⟨more, read, _⟩ := exists_of_prepend read
    have stands : ∀ other ∈ [b], other ≠ byte '"' ∧ other ≠ byte '\\' ∧ ¬ other.toNat < 32 := by
      intro other member
      obtain rfl := List.mem_singleton.1 member
      exact ⟨noQuote, noBackslash, printable⟩
    exact (skipString_alone stands text).trans (ih read)
  | _ => grind [exists_of_prepend, skipString_quote, skipString_letter, skipString_unit]

/-! ### Written strings -/

/-- A hexadecimal digit is read back as its value. -/
theorem value_digit : ∀ n < 16, Hex.value? (Hex.digit n) = some n := by
  decide

/-- A character is spelled as it is written. -/
theorem spellsChar_writeChar (c : Char) : SpellsChar c (writeChar c) := by
  -- A letter stands for each of the characters that have one.
  simp only [writeChar]
  split
  · exact .letter (by simp [letters, *])
  split
  · exact .letter (by simp [letters, *])
  split
  · exact .letter (by simp [letters, *])
  split
  · exact .letter (by simp [letters, *])
  split
  · exact .letter (by simp [letters, *])
  split
  · exact .letter (by simp [letters, *])
  split
  · exact .letter (by simp [letters, *])
  split
  · rename_i control
    -- Two digits are enough for a control character.
    have zero : Hex.value? '0' = some 0 := by decide
    have escape := UnitEscape.digits zero zero (value_digit (c.toNat / 16) (by omega))
      (value_digit (c.toNat % 16) (by omega))
    have code : 0 * 4096 + 0 * 256 + c.toNat / 16 * 16 + c.toNat % 16 = c.toNat := by omega
    rw [code] at escape
    exact .unit escape
  · rename_i noQuote noBackslash _ _ _ _ _ printable
    exact .alone ⟨Nat.not_lt.1 printable, noQuote, noBackslash⟩

/-- A text is spelled as it is written. -/
theorem spellsText_writeString (value : String) : SpellsText value (writeString value) := by
  -- Character by character.
  have spells (chars : List Char) : SpellsChars chars (chars.flatMap writeChar) := by
    induction chars with
    | nil => exact .nil
    | cons c chars ih => exact .cons (spellsChar_writeChar c) ih
  exact .quoted (spells value.toList)

end KeyDispensary.Json
