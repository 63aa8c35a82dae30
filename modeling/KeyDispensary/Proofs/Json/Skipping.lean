import KeyDispensary.Proofs.Json.Strings
import Mathlib.Data.List.DropRight

/-!
Every JSON value is passed over to its end, however it is written and however deep it is nested. Main
statement: `Json.skipValue_value`.
-/

namespace KeyDispensary.Json

/-! ### What follows a value -/

/-- The end of a text ends a number. -/
theorem endsNumber_nil : EndsNumber [] := by
  -- There is no byte that could go on with the number.
  intro b first
  cases first

/-- Blanks before what ends a number end it too. -/
theorem EndsNumber.blank {blanks : List Char} {rest : Bytes} (ends : EndsNumber rest)
    (blank : Blank blanks) : EndsNumber (Bytes.ofChars blanks ++ rest) := by
  cases blanks with
  | nil => exact ends
  | cons c blanks =>
    -- Each of the four blanks is one byte, which is no part of any number.
    rcases blank c List.mem_cons_self with rfl | rfl | rfl | rfl <;>
    · intro b first
      obtain rfl := Option.some.inj first
      decide

/-- A byte that is no blank is not dropped. -/
theorem dropBlank_cons {b : UInt8} (noBlank : isBlank b = false) (text : Bytes) :
    dropBlank (b :: text) = b :: text := by
  simp [dropBlank, noBlank]

/-- Blanks are dropped once and for all. -/
theorem dropBlank_dropBlank (text : Bytes) : dropBlank (dropBlank text) = dropBlank text :=
  List.dropWhile_idempotent _ _

/-! ### Numbers -/

/-- A decimal digit is a byte of its own, and is seen to be a digit. -/
theorem isDigit_byte {c : Char} (digit : '0' ≤ c ∧ c ≤ '9') :
    c.toNat < 128 ∧ isDigit (byte c) = true := by
  -- The codes of the digits are 48 to 57.
  have lower : 48 ≤ c.toNat := digit.1
  have upper : c.toNat ≤ 57 := digit.2
  have ascii : c.toNat < 128 := by omega
  simp [isDigit, toNat_byte ascii, lower, upper, ascii]

/-- Digits are bytes of their own, at least one. -/
theorem Digits.bytes {text : List Char} (digits : Digits text) : ∃ c more, text = c :: more ∧
    Bytes.ofChars text = byte c :: Bytes.ofChars more ∧ isDigit (byte c) = true ∧
    ∀ d ∈ Bytes.ofChars more, isDigit d = true := by
  -- A digit is below 128 and so a byte of its own.
  obtain ⟨filled, all⟩ := digits
  cases text with
  | nil => exact absurd rfl filled
  | cons c more =>
    obtain ⟨ascii, first⟩ := isDigit_byte (all c List.mem_cons_self)
    refine ⟨c, more, rfl, ofChars_ascii ascii more, first, fun d member => ?_⟩
    obtain ⟨other, listed, encodes⟩ := List.mem_flatMap.1 member
    obtain ⟨ascii, digit⟩ := isDigit_byte (all other (.tail _ listed))
    rw [Utf8.encode_one ascii, List.mem_singleton] at encodes
    exact encodes ▸ digit

/-- A digit is no byte that is none. -/
theorem ne_of_isDigit {b other : UInt8} (digit : isDigit b = true) (none : isDigit other = false) :
    b ≠ other := by
  rintro rfl
  simp [digit] at none

/-- The first byte of a number is none that is neither a minus sign nor a digit. -/
theorem ne_of_first {b : UInt8} (first : b = byte '-' ∨ isDigit b = true) {other : UInt8}
    (none : isDigit other = false) (noSign : byte '-' ≠ other) : b ≠ other := by
  rcases first with rfl | digit
  · exact noSign
  · exact ne_of_isDigit digit none

/-- The first byte of a number is no blank. -/
theorem noBlank_of_first {b : UInt8} (first : b = byte '-' ∨ isDigit b = true) :
    isBlank b = false := by
  -- None of the four blanks is a digit or a minus sign.
  have apart (other : UInt8) (none : isDigit other = false) (noSign : byte '-' ≠ other) : b ≠ other :=
    ne_of_first first none noSign
  simp [isBlank, apart 32 (by decide) (by decide), apart 9 (by decide) (by decide),
    apart 10 (by decide) (by decide), apart 13 (by decide) (by decide)]

/-- Digits are dropped up to what is no digit. -/
theorem dropWhile_digits {digits rest : Bytes} (all : ∀ d ∈ digits, isDigit d = true)
    (ends : ∀ b, rest.head? = some b → isDigit b = false) :
    (digits ++ rest).dropWhile isDigit = rest := by
  -- The first byte behind the digits stops the dropping.
  rw [List.dropWhile_append_of_pos all]
  cases rest with
  | nil => rfl
  | cons b rest => simp [ends b rfl]

/-- What follows the parts of a number before its exponent is passed over with the exponent. -/
theorem Exponent.skip {exponent : List Char} (isExponent : Exponent exponent) {rest : Bytes}
    (ends : EndsNumber rest) : skipAfterFraction (Bytes.ofChars exponent ++ rest) = .ok rest := by
  -- A sign may stand before the digits, which are dropped up to the end of the number.
  cases isExponent with
  | none =>
    cases rest with
    | nil => rfl
    | cons b rest => simp [Bytes.ofChars, skipAfterFraction, (ends b rfl).2.2]
  | @mark mark sign text marks signs digits =>
    obtain ⟨c, more, _, bytes, digit, others⟩ := digits.bytes
    -- The digits are dropped as soon as the first of them is seen.
    have passed : skipExponentDigits (byte c :: (Bytes.ofChars more ++ rest)) = .ok rest := by
      simp [skipExponentDigits, digit, dropWhile_digits others fun b first => (ends b first).1]
    have apart : byte c ≠ byte '+' ∧ byte c ≠ byte '-' :=
      ⟨ne_of_isDigit digit (by decide), ne_of_isDigit digit (by decide)⟩
    have marked : mark.toNat < 128 ∧ isExponentMark (byte mark) = true := by
      rcases marks with rfl | rfl <;> decide
    have signed : skipExponent (Bytes.ofChars (sign ++ text) ++ rest) = .ok rest := by
      rw [Bytes.ofChars_append, bytes]
      -- With a sign, its byte is dropped before the digits.
      rcases signs with rfl | rfl | rfl
      · simpa [Bytes.ofChars, skipExponent, apart] using passed
      · exact passed
      · exact passed
    rw [ofChars_ascii marked.1, List.cons_append, skipAfterFraction, if_pos marked.2, signed]

/-- Neither an exponent nor what ends a number begins with a digit or a point. -/
theorem Exponent.apart {exponent : List Char} (isExponent : Exponent exponent) {rest : Bytes}
    (ends : EndsNumber rest) {b : UInt8} (first : (Bytes.ofChars exponent ++ rest).head? = some b) :
    isDigit b = false ∧ b ≠ byte '.' := by
  -- An exponent begins with its mark.
  cases isExponent with
  | none => exact ⟨(ends b first).1, (ends b first).2.1⟩
  | mark marks _ _ =>
    rcases marks with rfl | rfl <;>
    · obtain rfl := Option.some.inj first
      decide

/-- Without a point no fraction is passed over. -/
theorem skipAfterWhole_of_noPoint {text : Bytes} (noPoint : ∀ b, text.head? = some b → b ≠ byte '.') :
    skipAfterWhole text = skipAfterFraction text := by
  -- Without a point the only thing that may follow is an exponent.
  cases text with
  | nil => rfl
  | cons b text => simp [skipAfterWhole, skipAfterFraction, noPoint b rfl]

/-- What follows the digits before a point is passed over. -/
theorem Fraction.skip {fraction exponent : List Char} (isFraction : Fraction fraction)
    (isExponent : Exponent exponent) {rest : Bytes} (ends : EndsNumber rest) :
    skipAfterWhole (Bytes.ofChars fraction ++ (Bytes.ofChars exponent ++ rest)) = .ok rest := by
  -- The digits behind the point are dropped up to the exponent or to the end of the number.
  have apart {b : UInt8} (first : (Bytes.ofChars exponent ++ rest).head? = some b) :=
    isExponent.apart ends first
  cases isFraction with
  | none =>
    have noPoint := skipAfterWhole_of_noPoint fun _ first => (apart first).2
    exact noPoint.trans (isExponent.skip ends)
  | point digits =>
    obtain ⟨c, more, _, bytes, digit, others⟩ := digits.bytes
    have dropped := dropWhile_digits others fun _ first => (apart first).1
    rw [ofChars_ascii (by decide), bytes]
    simp [skipAfterWhole, skipFraction, digit, dropped, isExponent.skip ends]

/-- Neither a fraction, an exponent nor what ends a number begins with a digit. -/
theorem Fraction.apart {fraction exponent : List Char} (isFraction : Fraction fraction)
    (isExponent : Exponent exponent) {rest : Bytes} (ends : EndsNumber rest) {b : UInt8}
    (first : (Bytes.ofChars fraction ++ (Bytes.ofChars exponent ++ rest)).head? = some b) :
    isDigit b = false := by
  -- A fraction begins with its point.
  cases isFraction with
  | none => exact (isExponent.apart ends first).1
  | point _ =>
    obtain rfl := Option.some.inj first
    decide

/-- The magnitude of a number begins with a digit and is passed over. -/
theorem Whole.skip {whole fraction exponent : List Char} (isWhole : Whole whole)
    (isFraction : Fraction fraction) (isExponent : Exponent exponent) {rest : Bytes}
    (ends : EndsNumber rest) : ∃ b more,
      Bytes.ofChars (whole ++ (fraction ++ exponent)) ++ rest = b :: more ∧ isDigit b = true ∧
      skipMagnitude (b :: more) = .ok rest := by
  -- What stands behind the digits is no digit, so that neither more nor fewer are dropped.
  have after := isFraction.skip isExponent ends
  have apart {b : UInt8} first := isFraction.apart isExponent ends (b := b) first
  rw [Bytes.ofChars_append, Bytes.ofChars_append, List.append_assoc, List.append_assoc]
  generalize Bytes.ofChars fraction ++ (Bytes.ofChars exponent ++ rest) = behind at *
  cases isWhole with
  | zero =>
    refine ⟨byte '0', behind, rfl, by decide, ?_⟩
    -- A zero is a number by itself, as no digit follows it.
    have alone : (behind.head?.map isDigit).getD false = false := by
      cases behind with
      | nil => rfl
      | cons b behind => exact apart rfl
    simp [skipMagnitude, alone, after]
  | @digits c text digits leading =>
    obtain ⟨_, more, same, bytes, digit, others⟩ := digits.bytes
    obtain ⟨rfl, rfl⟩ := List.cons.inj same
    refine ⟨_, _, congrArg (· ++ behind) bytes, digit, ?_⟩
    -- Other digits do not begin with a zero.
    have noZero : byte c ≠ byte '0' :=
      (byte_inj (isDigit_byte (digits.2 c List.mem_cons_self)).1 (by decide)).not.2 leading
    have dropped := dropWhile_digits others fun _ first => apart first
    simp [skipMagnitude, noZero, digit, dropped, after]

/-- A number is passed over, and its first byte is a minus sign or a digit. -/
theorem IsNumber.skip {text : List Char} (number : IsNumber text) {rest : Bytes}
    (ends : EndsNumber rest) : ∃ b more, Bytes.ofChars text ++ rest = b :: more ∧
      (b = byte '-' ∨ isDigit b = true) ∧ skipOpening (b :: more) = .ok (.scalar, rest) := by
  -- A digit and a minus sign begin neither a bracket nor a word nor a string.
  cases number with
  | parts signs isWhole isFraction isExponent =>
    obtain ⟨b, more, bytes, digit, passed⟩ := isWhole.skip isFraction isExponent ends
    rcases signs with rfl | rfl
    · -- Without a sign the number begins with a digit.
      have apart (other : UInt8) (none : isDigit other = false) : b ≠ other :=
        ne_of_isDigit digit none
      refine ⟨b, more, bytes, .inr digit, ?_⟩
      simp [skipOpening, apart (byte '[') (by decide), apart (byte '\x7b') (by decide),
        apart (byte 'n') (by decide), apart (byte 't') (by decide), apart (byte 'f') (by decide),
        apart (byte '"') (by decide), apart (byte '-') (by decide), digit, passed, Except.map]
    · refine ⟨byte '-', b :: more, by rw [← bytes]; rfl, .inl rfl, ?_⟩
      have apart : byte '-' ≠ byte '[' ∧ byte '-' ≠ byte '\x7b' ∧ byte '-' ≠ byte 'n' ∧
        byte '-' ≠ byte 't' ∧ byte '-' ≠ byte 'f' ∧ byte '-' ≠ byte '"' := by decide
      simp [skipOpening, apart, passed, Except.map]

/-! ### Values -/

/-- A character takes at least one byte. -/
theorem length_le_ofChars (chars : List Char) : chars.length ≤ (Bytes.ofChars chars).length := by
  -- The induction adds the bytes of one character after another.
  induction chars with
  | nil => exact Nat.le_refl _
  | cons c chars ih =>
    have some := String.length_utf8EncodeChar c
    have size := Char.utf8Size_pos c
    rw [Bytes.ofChars_cons, List.length_cons, List.length_append]
    omega

/-- The bytes of a text between two characters of one byte each. -/
theorem ofChars_around {first last : Char} (ascii : first.toNat < 128) (asciiLast : last.toNat < 128)
    (inner : List Char) (rest : Bytes) : Bytes.ofChars (first :: (inner ++ [last])) ++ rest =
      byte first :: (Bytes.ofChars inner ++ byte last :: rest) := by
  -- The two characters are bytes, and the text stays between them.
  simp [Bytes.ofChars_append, ofChars_ascii ascii, ofChars_ascii asciiLast,
    show Bytes.ofChars [] = [] from rfl]

/-- The bytes of texts with a comma between them. -/
theorem ofChars_comma (first more : List Char) (rest : Bytes) :
    Bytes.ofChars (first ++ ',' :: more) ++ rest =
      Bytes.ofChars first ++ byte ',' :: (Bytes.ofChars more ++ rest) := by
  -- The comma is a byte.
  simp [Bytes.ofChars_append, ofChars_ascii]

/-- The bytes of a member are those of its quoted name, a colon, its value and the blanks around these. -/
theorem ofChars_member (before name afterName beforeValue value after : List Char) (rest : Bytes) :
    Bytes.ofChars (before ++ '"' :: (name ++ '"' ::
      (afterName ++ ':' :: (beforeValue ++ (value ++ after))))) ++ rest =
        Bytes.ofChars before ++ byte '"' :: (Bytes.ofChars name ++ byte '"' ::
          (Bytes.ofChars afterName ++ byte ':' :: (Bytes.ofChars beforeValue ++
            (Bytes.ofChars value ++ (Bytes.ofChars after ++ rest))))) := by
  -- Quotes and the colon are bytes.
  simp [Bytes.ofChars_append, ofChars_ascii]

/-- Blanks before a value are passed over with it. -/
theorem skipWithin_blank {blanks : List Char} (blank : Blank blanks) {steps : Nat}
    (some : 0 < steps) (outer : List Bracket) (text : Bytes) :
    skipWithin steps outer (Bytes.ofChars blanks ++ text) = skipWithin steps outer text := by
  -- The first step drops them.
  obtain ⟨steps, rfl⟩ := Nat.exists_eq_succ_of_ne_zero (Nat.pos_iff_ne_zero.1 some)
  rw [skipWithin_succ, skipWithin_succ, dropBlank_blank blank]

/-- Blanks behind a value are passed over with what follows. -/
theorem settle_blank {blanks : List Char} (blank : Blank blanks) (full : Bool) (bracket : Bracket)
    (outer : List Bracket) (text : Bytes) :
    settle full (bracket :: outer) (Bytes.ofChars blanks ++ text) =
      settle full (bracket :: outer) text := by
  -- They are dropped before the next byte is looked at.
  rw [settle, settle, dropBlank_blank blank]

/-- A comma behind a value keeps the bracket open. -/
theorem settle_comma (bracket : Bracket) (outer : List Bracket) (text : Bytes) :
    settle true (bracket :: outer) (byte ',' :: text) = .ok (bracket :: outer, text) := by
  -- The comma is no blank, so it is found at once.
  have comma : isBlank (byte ',') = false := by decide
  rw [settle, dropBlank_cons comma]
  simp

/-- A closing bracket makes a value of what it closes. -/
theorem settle_closer (full : Bool) (bracket : Bracket) (outer : List Bracket) (text : Bytes) :
    settle full (bracket :: outer) (bracket.closer :: text) = settle true outer text := by
  have closer : isBlank bracket.closer = false ∧ bracket.closer ≠ byte ',' := by
    cases bracket <;> decide
  -- It is neither a blank nor a comma.
  rw [settle, dropBlank_cons closer.1]
  simp [closer.2]

/-- An open bracket goes on with what does not close it. -/
theorem settle_open {bracket : Bracket} {outer : List Bracket} {text more : Bytes} {b : UInt8}
    (first : dropBlank text = b :: more) (stays : b ≠ bracket.closer) :
    settle false (bracket :: outer) text = .ok (bracket :: outer, b :: more) := by
  rw [settle, first]
  simp [stays]

/-- Blanks before what a bracket goes on with are passed over with it. -/
theorem goOn_dropBlank {steps : Nat} (some : 0 < steps) (bracket : Bracket) (outer : List Bracket)
    (text : Bytes) : goOn steps (.ok (bracket :: outer, dropBlank text)) =
      goOn steps (.ok (bracket :: outer, text)) := by
  obtain ⟨steps, rfl⟩ := Nat.exists_eq_succ_of_ne_zero (Nat.pos_iff_ne_zero.1 some)
  -- Both a value and a key may have blanks before them.
  cases bracket with
  | list => simp only [goOn, skipWithin_succ, dropBlank_dropBlank]
  | object => simp only [goOn, skipKey, dropBlank_dropBlank]

/-- What ends a number follows within every bracket. -/
theorem endsNumber_closer (bracket : Bracket) (rest : Bytes) :
    EndsNumber (bracket.closer :: rest) := by
  -- Neither closing bracket is a part of a number.
  cases bracket with
  | list => exact endsNumber_bracket rest
  | object => exact endsNumber_brace rest

/-- Whether a value is passed over in a number of steps, of which each takes a character. -/
structure PassesValue (text : List Char) (n : Nat) : Prop where
  some : 0 < n
  few : n ≤ text.length
  /-- A value begins with a byte that no list closes with. -/
  opens : ∀ rest, EndsNumber rest → ∃ b more, Bytes.ofChars text ++ rest = b :: more ∧
    isBlank b = false ∧ b ≠ byte ']'
  passes : ∀ rest, EndsNumber rest → ∀ steps outer,
    skipWithin (n + steps) outer (Bytes.ofChars text ++ rest) = goOn steps (settle true outer rest)

/-- Whether what stands within a bracket is passed over in a number of steps. -/
structure PassesInner (bracket : Bracket) (text : List Char) (n : Nat) : Prop where
  some : 0 < n
  few : n ≤ text.length
  opens : ∀ rest, EndsNumber rest → ∃ b more, dropBlank (Bytes.ofChars text ++ rest) = b :: more ∧
    b ≠ bracket.closer
  passes : ∀ rest, EndsNumber rest → ∀ steps outer,
    goOn (n + steps) (.ok (bracket :: outer, Bytes.ofChars text ++ rest)) =
      goOn steps (settle true (bracket :: outer) rest)

/-- A value that is neither a list nor an object takes one step. -/
theorem PassesValue.scalar {text : List Char} (filled : 0 < text.length)
    (opens : ∀ rest, EndsNumber rest → ∃ b more, Bytes.ofChars text ++ rest = b :: more ∧
      isBlank b = false ∧ b ≠ byte ']' ∧ skipOpening (b :: more) = .ok (.scalar, rest)) :
    PassesValue text 1 where
  some := Nat.one_pos
  few := filled
  opens rest ends := by
    obtain ⟨b, more, bytes, noBlank, noBracket, _⟩ := opens rest ends
    exact ⟨b, more, bytes, noBlank, noBracket⟩
  passes rest ends steps outer := by
    obtain ⟨b, more, bytes, noBlank, _, passed⟩ := opens rest ends
    -- The step passes over the whole value.
    rw [Nat.add_comm, skipWithin_succ, bytes, dropBlank_cons noBlank, passed]

/-- A text between the characters of a bracket. -/
def Bracket.around (bracket : Bracket) (inner : List Char) : List Char :=
  match bracket with
  | .list => '[' :: (inner ++ [']'])
  | .object => '\x7b' :: (inner ++ ['\x7d'])

/-- The two brackets add two characters. -/
theorem Bracket.length_around (bracket : Bracket) (inner : List Char) :
    (bracket.around inner).length = inner.length + 2 := by
  cases bracket <;> simp [around]

/-- A bracket is opened by its first byte. -/
theorem Bracket.opening (bracket : Bracket) : ∃ b, isBlank b = false ∧ b ≠ byte ']' ∧
    (∀ inner rest, Bytes.ofChars (bracket.around inner) ++ rest =
      b :: (Bytes.ofChars inner ++ bracket.closer :: rest)) ∧
    ∀ text, skipOpening (b :: text) = .ok (.bracket bracket, text) := by
  -- The two kinds of brackets differ in their bytes only.
  cases bracket with
  | list =>
    exact ⟨byte '[', by decide, by decide, ofChars_around (by decide) (by decide), fun text => rfl⟩
  | object =>
    exact ⟨byte '\x7b', by decide, by decide, ofChars_around (by decide) (by decide), fun text => rfl⟩

/-- A bracket that holds nothing is passed over. -/
theorem PassesValue.empty (bracket : Bracket) {blanks : List Char} (blank : Blank blanks) :
    PassesValue (bracket.around blanks) 1 := by
  -- The bracket is opened, and what closes it makes a value of it.
  obtain ⟨b, noBlank, noBracket, bytes, opens⟩ := bracket.opening
  refine ⟨Nat.one_pos, by rw [bracket.length_around]; omega,
    fun rest _ => ⟨b, _, bytes blanks rest, noBlank, noBracket⟩, fun rest _ steps outer => ?_⟩
  rw [Nat.add_comm, skipWithin_succ, bytes, dropBlank_cons noBlank, opens]
  simp only [settle_blank blank, settle_closer]

/-- A bracket is passed over with what it holds. -/
theorem PassesInner.around {bracket : Bracket} {inner : List Char} {n : Nat}
    (holds : PassesInner bracket inner n) : PassesValue (bracket.around inner) (n + 1) := by
  -- Opening takes a step of its own; what is held does not begin with the closing bracket.
  obtain ⟨b, noBlank, noBracket, bytes, opens⟩ := bracket.opening
  refine ⟨Nat.succ_pos n, ?_, fun rest _ => ⟨b, _, bytes inner rest, noBlank, noBracket⟩,
    fun rest _ steps outer => ?_⟩
  · have few := holds.few
    rw [bracket.length_around]
    omega
  · have ends := endsNumber_closer bracket rest
    obtain ⟨first, more, found, stays⟩ := holds.opens _ ends
    have passed := holds.passes _ ends steps outer
    rw [settle_closer] at passed
    rw [Nat.add_right_comm, skipWithin_succ, bytes, dropBlank_cons noBlank, opens, ← passed,
      ← goOn_dropBlank (Nat.add_pos_left holds.some steps), found]
    simp only [settle_open found stays]

/-- An element of a list is passed over with the blanks around it. -/
theorem PassesValue.element {before value after : List Char} {n : Nat}
    (passesOver : PassesValue value n) (blankBefore : Blank before) (blankAfter : Blank after) :
    PassesInner .list (before ++ (value ++ after)) n := by
  have bytes (rest : Bytes) : Bytes.ofChars (before ++ (value ++ after)) ++ rest =
      Bytes.ofChars before ++ (Bytes.ofChars value ++ (Bytes.ofChars after ++ rest)) := by
    simp only [Bytes.ofChars_append, List.append_assoc]
  refine ⟨passesOver.some, ?_, fun rest ends => ?_, fun rest ends steps outer => ?_⟩
  · -- The blanks only add to the characters.
    have few := passesOver.few
    simp only [List.length_append]
    omega
  · -- The value begins with the first byte that is no blank.
    obtain ⟨b, more, first, noBlank, noBracket⟩ := passesOver.opens _ (ends.blank blankAfter)
    exact ⟨b, more, by rw [bytes, dropBlank_blank blankBefore, first, dropBlank_cons noBlank],
      noBracket⟩
  · rw [bytes, goOn, skipWithin_blank blankBefore (Nat.add_pos_left passesOver.some steps),
      passesOver.passes _ (ends.blank blankAfter), settle_blank blankAfter]

/-- A name and the colon behind it are passed over as a key. -/
theorem skipKey_pieces {before name after : List Char} (blankBefore : Blank before)
    (pieces : Pieces name) (blankAfter : Blank after) (rest : Bytes) :
    skipKey (Bytes.ofChars before ++ byte '"' :: (Bytes.ofChars name ++ byte '"' ::
      (Bytes.ofChars after ++ byte ':' :: rest))) = .ok rest := by
  -- The quote comes after the blanks, and the colon after those behind the name.
  have marks : isBlank (byte '"') = false ∧ isBlank (byte ':') = false := by decide
  simp [skipKey, dropBlank_blank blankBefore, dropBlank_cons marks.1, skipString_pieces pieces,
    dropBlank_blank blankAfter, dropBlank_cons marks.2]

/-- A member of an object is passed over with its name and the blanks around it. -/
theorem PassesValue.member {before name afterName beforeValue value after : List Char} {n : Nat}
    (passesOver : PassesValue value n) (blankBefore : Blank before) (pieces : Pieces name)
    (blankAfterName : Blank afterName) (blankBeforeValue : Blank beforeValue)
    (blankAfter : Blank after) : PassesInner .object
      (before ++ '"' :: (name ++ '"' :: (afterName ++ ':' :: (beforeValue ++ (value ++ after))))) n := by
  -- The name and its colon are passed as a key, and then the value.
  refine ⟨passesOver.some, ?_, fun rest _ => ?_, fun rest ends steps outer => ?_⟩
  · have few := passesOver.few
    simp only [List.length_append, List.length_cons]
    omega
  · -- A member begins with its quote, which does not close an object.
    have quote : isBlank (byte '"') = false := by decide
    exact ⟨byte '"', _, by rw [ofChars_member, dropBlank_blank blankBefore, dropBlank_cons quote], by decide⟩
  · rw [ofChars_member, goOn, skipKey_pieces blankBefore pieces blankAfterName]
    simp only [skipWithin_blank blankBeforeValue (Nat.add_pos_left passesOver.some steps),
      passesOver.passes _ (ends.blank blankAfter), settle_blank blankAfter]

/-- What stands before a comma within a bracket is passed over, and then what stands behind it. -/
theorem PassesInner.comma {bracket : Bracket} {first more : List Char} {n m : Nat}
    (passesFirst : PassesInner bracket first n) (passesMore : PassesInner bracket more m) :
    PassesInner bracket (first ++ ',' :: more) (n + m) := by
  -- The comma keeps the bracket open, and ends a number before it.
  refine ⟨Nat.add_pos_left passesFirst.some m, ?_, fun rest _ => ?_,
    fun rest ends steps outer => ?_⟩
  · have few := passesFirst.few
    have fewMore := passesMore.few
    simp only [List.length_append, List.length_cons]
    omega
  · rw [ofChars_comma]
    exact passesFirst.opens _ (endsNumber_comma _)
  · rw [ofChars_comma, Nat.add_assoc, passesFirst.passes _ (endsNumber_comma _), settle_comma,
      passesMore.passes _ ends]

/-- Whether a part of JSON text is passed over in a number of steps. -/
def PassesPart : Part → List Char → Nat → Prop
  | .value => PassesValue
  | .elements => PassesInner .list
  | .members => PassesInner .object

/-- A word is passed over. -/
theorem skipOpening_word {text : List Char} (word : text = "null".toList ∨ text = "true".toList ∨
    text = "false".toList) (rest : Bytes) : ∃ b more, Bytes.ofChars text ++ rest = b :: more ∧
      isBlank b = false ∧ b ≠ byte ']' ∧ skipOpening (b :: more) = .ok (.scalar, rest) := by
  -- Each word is known by its first byte.
  rcases word with rfl | rfl | rfl
  · exact ⟨byte 'n', byte 'u' :: byte 'l' :: byte 'l' :: rest, rfl, by decide, by decide, rfl⟩
  · exact ⟨byte 't', byte 'r' :: byte 'u' :: byte 'e' :: rest, rfl, by decide, by decide, rfl⟩
  · exact ⟨byte 'f', byte 'a' :: byte 'l' :: byte 's' :: byte 'e' :: rest, rfl, by decide,
      by decide, rfl⟩

/-- Each part of JSON text is passed over in some number of steps. -/
theorem Derives.passes {part : Part} {text : List Char} (derives : Derives part text) :
    ∃ n, PassesPart part text n := by
  -- Brackets are followed inwards, and what they hold from comma to comma.
  induction derives with
  | word word =>
    refine ⟨1, .scalar ?_ fun rest _ => skipOpening_word word rest⟩
    rcases word with rfl | rfl | rfl <;> decide
  | number number =>
    refine ⟨1, .scalar ?_ fun rest ends => ?_⟩
    · -- An empty text would have no first byte.
      obtain ⟨b, more, bytes, _⟩ := number.skip endsNumber_nil
      refine List.length_pos_of_ne_nil ?_
      rintro rfl
      cases bytes
    · obtain ⟨b, more, bytes, first, passed⟩ := number.skip ends
      have noBracket : b ≠ byte ']' := ne_of_first first (by decide) (by decide)
      exact ⟨b, more, bytes, noBlank_of_first first, noBracket, passed⟩
  | @text inner pieces =>
    refine ⟨1, .scalar (Nat.succ_pos _) fun rest _ => ?_⟩
    refine ⟨_, _, ofChars_around (by decide) (by decide) inner rest, by decide, by decide, ?_⟩
    · -- A quote is none of the bytes that begin something else.
      have quote : byte '"' ≠ byte '[' ∧ byte '"' ≠ byte '\x7b' ∧ byte '"' ≠ byte 'n' ∧
        byte '"' ≠ byte 't' ∧ byte '"' ≠ byte 'f' := by decide
      simp [skipOpening, quote, skipString_pieces pieces, Except.map]
  | emptyList blank => exact ⟨1, .empty .list blank⟩
  | list _ ih =>
    obtain ⟨n, holds⟩ := ih
    exact ⟨n + 1, holds.around⟩
  | emptyObject blank => exact ⟨1, .empty .object blank⟩
  | object _ ih =>
    obtain ⟨n, holds⟩ := ih
    exact ⟨n + 1, holds.around⟩
  | element blankBefore _ blankAfter ih =>
    obtain ⟨n, passesOver⟩ := ih
    exact ⟨n, passesOver.element blankBefore blankAfter⟩
  | elements _ _ first more =>
    obtain ⟨n, passesFirst⟩ := first
    obtain ⟨m, passesMore⟩ := more
    exact ⟨n + m, passesFirst.comma passesMore⟩
  | member blankBefore pieces blankAfterName blankBeforeValue _ blankAfter ih =>
    obtain ⟨n, passesOver⟩ := ih
    exact ⟨n, passesOver.member blankBefore pieces blankAfterName blankBeforeValue blankAfter⟩
  | members _ _ first more =>
    obtain ⟨n, passesFirst⟩ := first
    obtain ⟨m, passesMore⟩ := more
    exact ⟨n + m, passesFirst.comma passesMore⟩

/-- Every value is passed over with blanks before it, whatever follows it that is no part of a number. -/
theorem skipValue_value {blanks text : List Char} (blank : Blank blanks) (isValue : IsValue text)
    {rest : Bytes} (ends : EndsNumber rest) :
    skipValue (Bytes.ofChars blanks ++ (Bytes.ofChars text ++ rest)) = .ok rest := by
  obtain ⟨n, passesOver⟩ := isValue.passes
  -- There are as many steps as bytes, and no fewer bytes than characters.
  have chars := length_le_ofChars text
  have few := passesOver.few
  obtain ⟨steps, enough⟩ := Nat.exists_eq_add_of_le
    (show n ≤ (Bytes.ofChars blanks ++ (Bytes.ofChars text ++ rest)).length + 1 by
      simp only [List.length_append]
      omega)
  rw [skipValue, enough, skipWithin_blank blank (Nat.add_pos_left passesOver.some steps),
    passesOver.passes rest ends]
  rfl

end KeyDispensary.Json
