import KeyDispensary.Json.Value
import KeyDispensary.Json.Write

/-!
Whole numbers and lists of bytes are read back as they were written. Main statements:
`Json.readWord64_writeNat` and `Json.readOctets_writeOctets`.
-/

namespace KeyDispensary

/-- The bytes of characters that follow each other. -/
theorem Bytes.ofChars_append (first second : List Char) :
    ofChars (first ++ second) = ofChars first ++ ofChars second :=
  List.flatMap_append

/-- The bytes of a character and those that follow it. -/
theorem Bytes.ofChars_cons (c : Char) (chars : List Char) :
    ofChars (c :: chars) = String.utf8EncodeChar c ++ ofChars chars :=
  List.flatMap_cons

namespace Json

/-- The values after the first of a list are written after a comma each. -/
theorem joined_cons (value : List Char) (more : List (List Char)) :
    joined (value :: more) = value ++ more.flatMap fun next => ',' :: next := by
  -- The comma of each later value stands where the value before it ends.
  induction more generalizing value with
  | nil => simp [joined]
  | cons next more ih =>
    rw [joined, ih, List.flatMap_cons, List.cons_append]
    exact List.cons_ne_nil _ _

/-- Whether a text does not go on with a number that stands before it. -/
def EndsNumber (text : Bytes) : Prop :=
  ∀ b, text.head? = some b → isDigit b = false ∧ b ≠ byte '.' ∧ isExponentMark b = false

/-- A comma ends a number. -/
theorem endsNumber_comma (text : Bytes) : EndsNumber (byte ',' :: text) := by
  -- The comma is no part of any number.
  intro b first
  obtain rfl := Option.some.inj first
  decide

/-- A closing bracket ends a number. -/
theorem endsNumber_bracket (text : Bytes) : EndsNumber (byte ']' :: text) := by
  -- The bracket is no part of any number.
  intro b first
  obtain rfl := Option.some.inj first
  decide

/-- A closing brace ends a number. -/
theorem endsNumber_brace (text : Bytes) : EndsNumber (byte '\x7d' :: text) := by
  -- The brace is no part of any number.
  intro b first
  obtain rfl := Option.some.inj first
  decide

/-- The byte of a decimal digit. -/
def digitByte (digit : Nat) : UInt8 :=
  UInt8.ofNat (48 + digit)

/-- The character of a decimal digit is written as its byte. -/
theorem utf8_digitChar : ∀ digit < 10,
    String.utf8EncodeChar (Nat.digitChar digit) = [digitByte digit] := by
  decide

/-- A digit is one, and it is not blank. -/
theorem isDigit_digit : ∀ digit < 10, isDigit (digitByte digit) = true ∧
    isBlank (digitByte digit) = false := by
  decide

/-- A digit has the value that it was written for. -/
theorem digitValue_digit : ∀ digit < 10, digitValue (digitByte digit) = digit := by
  decide

/-- A digit other than zero is not the zero. -/
theorem digit_ne_zero : ∀ digit < 10, 0 < digit → digitByte digit ≠ byte '0' := by
  decide

/-- No digit is a minus sign. -/
theorem digit_ne_minus : ∀ digit < 10, digitByte digit ≠ byte '-' := by
  decide

/-- No digit closes a list. -/
theorem digit_ne_bracket : ∀ digit < 10, digitByte digit ≠ byte ']' := by
  decide

/-- Gathering digits stops where a number ends. -/
theorem gather_end (n : Nat) {rest : Bytes} (ends : EndsNumber rest) :
    gather n rest = (n, 0, rest) := by
  -- Nothing is gathered from a text that begins with no digit.
  cases rest with
  | nil => rfl
  | cons b rest =>
    have other := (ends b rfl).1
    simp [gather, other]

/-- How a number within 64 bits is written: its first digit, and what gathers the others onto it. -/
theorem writeNat_gather (n : Nat) (small : n ≤ maxWord) : ∃ digit more, digit < 10 ∧
    Bytes.ofChars (writeNat n) = digitByte digit :: more ∧
    (digit = 0 → n = 0 ∧ more = []) ∧
    ∀ rest, gather digit (more ++ rest) = gather n rest := by
  -- The digits before the last one are those of a tenth of the number.
  induction n using Nat.strongRecOn with
  | ind n ih =>
    by_cases single : n < 10
    · refine ⟨n, [], single, ?_, fun zero => ⟨zero, rfl⟩, fun rest => rfl⟩
      rw [writeNat, Nat.toDigits_of_lt_base single, Bytes.ofChars_cons, utf8_digitChar n single]
      rfl
    · -- The last digit is gathered onto the number that the others make.
      have last : n % 10 < 10 := Nat.mod_lt _ (by omega)
      obtain ⟨digit, more, below, written, zero, gathers⟩ := ih (n / 10) (by omega) (by omega)
      refine ⟨digit, more ++ [digitByte (n % 10)], below, ?_, fun none => ?_, fun rest => ?_⟩
      · rw [writeNat, Nat.toDigits_of_base_le (by decide) (by omega), Bytes.ofChars_append,
          ← writeNat, written, Bytes.ofChars_cons, utf8_digitChar _ last]
        rfl
      · have tenth := (zero none).1
        omega
      · have whole : n / 10 * 10 + n % 10 = n := by omega
        rw [List.append_assoc, gathers]
        simp [gather, (isDigit_digit _ last).1, digitValue_digit _ last, whole, small]

/-- A written number is read as the whole number that it is. -/
theorem readMagnitude_writeNat {n : Nat} (small : n ≤ maxWord) {rest : Bytes}
    (ends : EndsNumber rest) :
    readMagnitude false (Bytes.ofChars (writeNat n) ++ rest) = .ok (.natural n, rest) := by
  have after : readAfterWhole false n 0 rest = .ok (.natural n, rest) := by
    -- Nothing of a fraction or an exponent follows.
    cases rest with
    | nil => rfl
    | cons b rest =>
      obtain ⟨_, noPoint, noExponent⟩ := ends b rfl
      simp [readAfterWhole, noPoint, noExponent, whole]
  obtain ⟨digit, more, below, written, zero, gathers⟩ := writeNat_gather n small
  rw [written, List.cons_append, readMagnitude]
  by_cases leading : digit = 0
  · -- A leading zero is the whole number.
    obtain ⟨rfl, rfl⟩ := zero leading
    subst leading
    have alone : (rest.head?.map isDigit).getD false = false := by
      cases rest with
      | nil => rfl
      | cons b rest => exact (ends b rfl).1
    rw [if_pos (by decide), List.nil_append, if_neg (by simp [alone])]
    exact after
  · -- Another digit begins the number, and the others are gathered.
    rw [if_neg (digit_ne_zero _ below (by omega)), if_pos (isDigit_digit _ below).1,
      digitValue_digit _ below, gathers, gather_end n ends]
    exact after

/-- A number up to a bound is read back as it was written. -/
theorem readNatUpTo_writeNat {n bound : Nat} (within : n ≤ bound) (small : bound ≤ maxWord)
    (wanted : String) {rest : Bytes} (ends : EndsNumber rest) :
    readNatUpTo bound wanted (Bytes.ofChars (writeNat n) ++ rest) = .ok (n, rest) := by
  have magnitude := readMagnitude_writeNat (Nat.le_trans within small) ends
  obtain ⟨digit, more, below, written, _⟩ := writeNat_gather n (Nat.le_trans within small)
  rw [written, List.cons_append] at magnitude ⊢
  -- The first byte is a digit, so neither a blank nor a sign comes before the magnitude.
  simp [readNatUpTo, dropBlank, isDigit_digit _ below, readNumber, digit_ne_minus _ below, magnitude, within]

/-- A number of 64 bits is read back as it was written. -/
theorem readWord64_writeNat (n : UInt64) {rest : Bytes} (ends : EndsNumber rest) :
    readWord64 (Bytes.ofChars (writeNat n.toNat) ++ rest) = .ok (n, rest) := by
  -- Every id is in range.
  have within : n.toNat ≤ maxWord := Nat.le_of_lt_succ n.toNat_lt
  rw [readWord64, readNatUpTo_writeNat within (Nat.le_refl _) _ ends]
  simp [Except.map]

/-- A byte is read back as it was written. -/
theorem readByte_writeNat (b : UInt8) {rest : Bytes} (ends : EndsNumber rest) :
    readByte (Bytes.ofChars (writeNat b.toNat) ++ rest) = .ok (b, rest) := by
  -- Every byte is in range.
  have within : b.toNat ≤ 255 := Nat.le_of_lt_succ b.toNat_lt
  rw [readByte, readNatUpTo_writeNat within (by decide) _ ends]
  simp [Except.map]

/-! ### Lists of bytes -/

/-- The bytes after the first of a written list. -/
def laterOctets (octets : Bytes) : List Char :=
  octets.flatMap fun b => ',' :: writeNat b.toNat

/-- A comma is written as its byte. -/
theorem utf8_comma : String.utf8EncodeChar ',' = [byte ','] := by
  decide

/-- The brackets of a list are written as their bytes. -/
theorem utf8_brackets : String.utf8EncodeChar '[' = [byte '['] ∧
    String.utf8EncodeChar ']' = [byte ']'] := by
  decide

/-- The first of the bytes after a list's first one is written after a comma. -/
theorem laterOctets_cons (b : UInt8) (octets : Bytes) :
    Bytes.ofChars (laterOctets (b :: octets)) =
      byte ',' :: (Bytes.ofChars (writeNat b.toNat) ++ Bytes.ofChars (laterOctets octets)) := by
  -- The comma takes one byte.
  rw [laterOctets, List.flatMap_cons, List.cons_append, Bytes.ofChars_cons, utf8_comma,
    Bytes.ofChars_append, ← laterOctets]
  rfl

/-- Each of the bytes after a list's first one takes at least one byte to write. -/
theorem length_laterOctets (octets : Bytes) :
    octets.length ≤ (Bytes.ofChars (laterOctets octets)).length := by
  -- The comma alone takes one.
  induction octets with
  | nil => exact Nat.zero_le _
  | cons b octets ih =>
    rw [laterOctets_cons, List.length_cons, List.length_cons, List.length_append]
    omega

/-- What follows a byte of a list ends the number. -/
theorem endsNumber_laterOctets (octets : Bytes) (rest : Bytes) :
    EndsNumber (Bytes.ofChars (laterOctets octets) ++ byte ']' :: rest) := by
  -- It is the closing bracket or a comma.
  cases octets with
  | nil => exact endsNumber_bracket rest
  | cons next octets =>
    rw [laterOctets_cons]
    exact endsNumber_comma _

/-- Where a list goes on with a written number, that number is its next element. -/
theorem nextElement_first (n : Nat) (small : n ≤ maxWord) (rest : Bytes) :
    nextElement true (Bytes.ofChars (writeNat n) ++ rest) =
      .ok (.element, Bytes.ofChars (writeNat n) ++ rest) := by
  -- The number begins with a digit, which is neither blank nor a bracket.
  obtain ⟨digit, more, below, written, _⟩ := writeNat_gather n small
  simp [written, nextElement, dropBlank, isDigit_digit _ below, digit_ne_bracket _ below]

/-- Where a list goes on with a comma and a number, that number is its next element. -/
theorem nextElement_later (n : Nat) (small : n ≤ maxWord) (rest : Bytes) :
    nextElement false (byte ',' :: (Bytes.ofChars (writeNat n) ++ rest)) =
      .ok (.element, Bytes.ofChars (writeNat n) ++ rest) := by
  -- The comma is passed, and after it the number begins with a digit.
  obtain ⟨digit, more, below, written, _⟩ := writeNat_gather n small
  have comma : isBlank (byte ',') = false ∧ byte ',' ≠ byte ']' := by decide
  simp [written, nextElement, dropBlank, isDigit_digit _ below, digit_ne_bracket _ below, comma]

/-- The bytes after the first of a list are read back as they were written. -/
theorem readElements_later (octets : Bytes) {steps : Nat} (enough : octets.length < steps)
    (rest : Bytes) :
    readElements steps false (Bytes.ofChars (laterOctets octets) ++ byte ']' :: rest) =
      .ok (octets, rest) := by
  -- Each step passes a comma and reads a number, which ends at the next comma or at the bracket.
  induction octets generalizing steps with
  | nil =>
    obtain ⟨steps, rfl⟩ := Nat.exists_eq_succ_of_ne_zero (by omega : steps ≠ 0)
    -- The closing bracket ends the list.
    have bracket : isBlank (byte ']') = false := by decide
    simp [laterOctets, Bytes.ofChars, readElements, nextElement, dropBlank, bracket]
  | cons b octets ih =>
    obtain ⟨steps, rfl⟩ := Nat.exists_eq_succ_of_ne_zero (by omega : steps ≠ 0)
    -- Every byte is small enough to be gathered.
    have small : b.toNat ≤ maxWord := Nat.le_trans (Nat.le_of_lt b.toNat_lt) (by decide)
    rw [laterOctets_cons, List.cons_append, List.append_assoc, readElements,
      nextElement_later _ small]
    simp only [readByte_writeNat b (endsNumber_laterOctets octets rest),
      ih (by simpa using enough)]
    rfl

/-- A list of bytes is read back as it was written. -/
theorem readOctets_writeOctets (octets : Bytes) (rest : Bytes) :
    readOctets (Bytes.ofChars (writeOctets octets) ++ rest) = .ok (octets, rest) := by
  have opening : isBlank (byte '[') = false := by decide
  have closing : isBlank (byte ']') = false := by decide
  cases octets with
  | nil =>
    -- The bracket that opens the list is followed by the one that closes it.
    have text : Bytes.ofChars (writeOctets []) ++ rest = byte '[' :: byte ']' :: rest := by
      simp [writeOctets, joined, Bytes.ofChars, utf8_brackets]
    simp [text, readOctets, dropBlank, opening, readElements, nextElement, closing]
  | cons b octets =>
    -- The first byte stands without a comma.
    have text : Bytes.ofChars (writeOctets (b :: octets)) ++ rest =
        byte '[' :: (Bytes.ofChars (writeNat b.toNat) ++
          (Bytes.ofChars (laterOctets octets) ++ byte ']' :: rest)) := by
      simp [writeOctets, joined_cons, utf8_brackets, laterOctets, List.flatMap_map, Bytes.ofChars]
    have small : b.toNat ≤ maxWord := Nat.le_trans (Nat.le_of_lt b.toNat_lt) (by decide)
    -- The text after the bracket is long enough for a step on each byte.
    have enough : octets.length < (Bytes.ofChars (writeNat b.toNat) ++
        (Bytes.ofChars (laterOctets octets) ++ byte ']' :: rest)).length := by
      have later := length_laterOctets octets
      rw [List.length_append, List.length_append, List.length_cons]
      omega
    rw [text]
    simp only [readOctets, dropBlank, List.dropWhile_cons, opening, Bool.false_eq_true, if_false,
      if_true, readElements, nextElement_first _ small,
      readByte_writeNat b (endsNumber_laterOctets octets rest), readElements_later octets enough]
    rfl

end Json

end KeyDispensary
