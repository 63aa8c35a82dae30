import KeyDispensary.Text.Hex

/-!
JSON text by its grammar: blanks, strings, numbers, and values that hold one another. A text within a
string may be spelled in many ways, and so may an object with given members.
-/

namespace KeyDispensary.Json

/-- Whether a text is nothing but spaces, tabs, line feeds and carriage returns. -/
def Blank (text : List Char) : Prop :=
  ∀ c ∈ text, c = ' ' ∨ c = '\t' ∨ c = '\n' ∨ c = '\r'

/-! ### Strings -/

/-- The letters of the escapes of two characters, each with the character that it stands for. -/
def letters : List (Char × Char) :=
  [('"', '"'), ('\\', '\\'), ('/', '/'), ('b', '\x08'), ('f', '\x0c'), ('n', '\n'), ('r', '\r'),
    ('t', '\t')]

/-- Whether a character may stand within a string as it is. -/
def StandsAlone (c : Char) : Prop :=
  32 ≤ c.toNat ∧ c ≠ '"' ∧ c ≠ '\\'

/-- The escape of a number of 16 bits by four hexadecimal digits of either case. -/
inductive UnitEscape : Nat → List Char → Prop where
  | digits {first second third fourth : Char} {a b c d : Nat} (one : Hex.value? first = some a)
    (two : Hex.value? second = some b) (three : Hex.value? third = some c)
    (four : Hex.value? fourth = some d) :
    UnitEscape (a * 4096 + b * 256 + c * 16 + d) ['\\', 'u', first, second, third, fourth]

/-- How a character may be spelled within a string. -/
inductive SpellsChar : Char → List Char → Prop where
  | alone {c : Char} (stands : StandsAlone c) : SpellsChar c [c]
  | letter {letter c : Char} (listed : (letter, c) ∈ letters) : SpellsChar c ['\\', letter]
  | unit {c : Char} {text : List Char} (escape : UnitEscape c.toNat text) : SpellsChar c text
  /-- A character past 16 bits is a leading and a trailing half. -/
  | pair {c : Char} {leading trailing : Nat} {first second : List Char}
    (one : UnitEscape leading first) (two : UnitEscape trailing second)
    (leads : 0xD800 ≤ leading ∧ leading ≤ 0xDBFF) (trails : 0xDC00 ≤ trailing ∧ trailing ≤ 0xDFFF)
    (code : c.toNat = (leading - 0xD800) * 1024 + (trailing - 0xDC00) + 0x10000) :
    SpellsChar c (first ++ second)

/-- How characters may be spelled within a string, one after the other. -/
inductive SpellsChars : List Char → List Char → Prop where
  | nil : SpellsChars [] []
  | cons {c : Char} {chars piece text : List Char} (first : SpellsChar c piece)
    (more : SpellsChars chars text) : SpellsChars (c :: chars) (piece ++ text)

/-- How a text may be spelled as a string. -/
inductive SpellsText (value : String) : List Char → Prop where
  | quoted {inner : List Char} (spells : SpellsChars value.toList inner) :
    SpellsText value ('"' :: (inner ++ ['"']))

/--
What may stand within a string.

The half of a pair may stand without the other half, though no character is spelled by it.
-/
inductive Pieces : List Char → Prop where
  | nil : Pieces []
  | alone {c : Char} {text : List Char} (stands : StandsAlone c) (more : Pieces text) :
    Pieces (c :: text)
  | letter {letter c : Char} {text : List Char} (listed : (letter, c) ∈ letters)
    (more : Pieces text) : Pieces ('\\' :: letter :: text)
  | unit {code : Nat} {piece text : List Char} (escape : UnitEscape code piece)
    (more : Pieces text) : Pieces (piece ++ text)

/-! ### Numbers -/

/-- Whether a text is decimal digits, at least one. -/
def Digits (text : List Char) : Prop :=
  text ≠ [] ∧ ∀ c ∈ text, '0' ≤ c ∧ c ≤ '9'

/-- The part of a number before a point: a zero alone or digits of which the first is no zero. -/
inductive Whole : List Char → Prop where
  | zero : Whole ['0']
  | digits {c : Char} {text : List Char} (digits : Digits (c :: text)) (leading : c ≠ '0') :
    Whole (c :: text)

/-- The part of a number from its point on, if it has one. -/
inductive Fraction : List Char → Prop where
  | none : Fraction []
  | point {text : List Char} (digits : Digits text) : Fraction ('.' :: text)

/-- The exponent of a number, if it has one. -/
inductive Exponent : List Char → Prop where
  | none : Exponent []
  | mark {mark : Char} {sign text : List Char} (marks : mark = 'e' ∨ mark = 'E')
    (signs : sign = [] ∨ sign = ['+'] ∨ sign = ['-']) (digits : Digits text) :
    Exponent (mark :: (sign ++ text))

/-- Whether a text is a number, of any size. -/
inductive IsNumber : List Char → Prop where
  | parts {sign whole fraction exponent : List Char} (signs : sign = [] ∨ sign = ['-'])
    (isWhole : Whole whole) (isFraction : Fraction fraction) (isExponent : Exponent exponent) :
    IsNumber (sign ++ (whole ++ (fraction ++ exponent)))

/-! ### Values -/

/-- What the text of a value is made of. -/
inductive Part where
  | value
  /-- What stands between the brackets of a list that is not empty. -/
  | elements
  /-- What stands between the braces of an object that is not empty. -/
  | members

/-- Whether a text is a part of JSON text, nested to any depth. -/
inductive Derives : Part → List Char → Prop where
  | word {text : List Char} (word : text = "null".toList ∨ text = "true".toList ∨
      text = "false".toList) : Derives .value text
  | number {text : List Char} (number : IsNumber text) : Derives .value text
  | text {inner : List Char} (pieces : Pieces inner) : Derives .value ('"' :: (inner ++ ['"']))
  | emptyList {blanks : List Char} (blank : Blank blanks) : Derives .value ('[' :: (blanks ++ [']']))
  | list {inner : List Char} (elements : Derives .elements inner) :
    Derives .value ('[' :: (inner ++ [']']))
  | emptyObject {blanks : List Char} (blank : Blank blanks) :
    Derives .value ('\x7b' :: (blanks ++ ['\x7d']))
  | object {inner : List Char} (members : Derives .members inner) :
    Derives .value ('\x7b' :: (inner ++ ['\x7d']))
  | element {before value after : List Char} (blankBefore : Blank before)
    (isValue : Derives .value value) (blankAfter : Blank after) :
    Derives .elements (before ++ (value ++ after))
  | elements {first more : List Char} (isElement : Derives .elements first)
    (areElements : Derives .elements more) : Derives .elements (first ++ ',' :: more)
  | member {before name afterName beforeValue value after : List Char} (blankBefore : Blank before)
    (pieces : Pieces name) (blankAfterName : Blank afterName) (blankBeforeValue : Blank beforeValue)
    (isValue : Derives .value value) (blankAfter : Blank after) :
    Derives .members
      (before ++ '"' :: (name ++ '"' :: (afterName ++ ':' :: (beforeValue ++ (value ++ after)))))
  | members {first more : List Char} (isMember : Derives .members first)
    (areMembers : Derives .members more) : Derives .members (first ++ ',' :: more)

/-- Whether a text is a JSON value. -/
abbrev IsValue : List Char → Prop :=
  Derives .value

/-! ### Objects with given members -/

/-- How a member may be written: its name, a colon and the text of its value, with blanks between. -/
inductive SpellsMember (name : String) (value : List Char) : List Char → Prop where
  | colon {before key afterName beforeValue after : List Char} (blankBefore : Blank before)
    (spells : SpellsText name key) (blankAfterName : Blank afterName)
    (blankBeforeValue : Blank beforeValue) (isValue : IsValue value) (blankAfter : Blank after) :
    SpellsMember name value
      (before ++ (key ++ (afterName ++ ':' :: (beforeValue ++ (value ++ after)))))

/-- How members may be written in their order, by their names and the texts of their values. -/
inductive SpellsMembers : List (String × List Char) → List Char → Prop where
  | one {name : String} {value text : List Char} (last : SpellsMember name value text) :
    SpellsMembers [(name, value)] text
  | more {name : String} {value text rest : List Char} {members : List (String × List Char)}
    (first : SpellsMember name value text) (others : SpellsMembers members rest) :
    SpellsMembers ((name, value) :: members) (text ++ ',' :: rest)

/-- How an object of the given members may be written. -/
inductive SpellsObject : List (String × List Char) → List Char → Prop where
  | empty {blanks : List Char} (blank : Blank blanks) :
    SpellsObject [] ('\x7b' :: (blanks ++ ['\x7d']))
  | filled {members : List (String × List Char)} {inner : List Char}
    (spells : SpellsMembers members inner) : SpellsObject members ('\x7b' :: (inner ++ ['\x7d']))

/-- How a text may be written that is an object of the given members. -/
inductive SpellsDocument (members : List (String × List Char)) : List Char → Prop where
  | blanks {before object after : List Char} (blankBefore : Blank before)
    (spells : SpellsObject members object) (blankAfter : Blank after) :
    SpellsDocument members (before ++ (object ++ after))

/-! ### What is spelled is well formed -/

/-- What spells characters may stand within a string. -/
theorem SpellsChars.pieces {chars text : List Char} (spells : SpellsChars chars text) :
    Pieces text := by
  -- A pair is two escapes, each of which may stand by itself.
  induction spells with
  | nil => exact .nil
  | cons first _ ih =>
    cases first with
    | alone stands => exact .alone stands ih
    | letter listed => exact .letter listed ih
    | unit escape => exact .unit escape ih
    | pair one two _ _ _ =>
      rw [List.append_assoc]
      exact .unit one (.unit two ih)

/-- What spells a text is a value. -/
theorem SpellsText.isValue {value : String} {text : List Char} (spells : SpellsText value text) :
    IsValue text := by
  cases spells with
  | quoted inner => exact .text inner.pieces

/-- A spelled member may stand within an object. -/
theorem SpellsMember.derives {name : String} {value text : List Char}
    (spells : SpellsMember name value text) : Derives .members text := by
  -- The name is a string, of which only the quotes are added.
  cases spells with
  | colon blankBefore spells blankAfterName blankBeforeValue isValue blankAfter =>
    cases spells with
    | quoted inner =>
      simpa using Derives.member blankBefore inner.pieces blankAfterName blankBeforeValue isValue
        blankAfter

/-- Spelled members may stand within an object. -/
theorem SpellsMembers.derives {members : List (String × List Char)} {text : List Char}
    (spells : SpellsMembers members text) : Derives .members text := by
  -- A comma stands before each member but the first.
  induction spells with
  | one last => exact last.derives
  | more first _ ih => exact .members first.derives ih

/-- An object of given members is a value. -/
theorem SpellsObject.isValue {members : List (String × List Char)} {text : List Char}
    (spells : SpellsObject members text) : IsValue text := by
  -- Nothing but blanks stands within an object without members.
  cases spells with
  | empty blank => exact .emptyObject blank
  | filled spells => exact .object spells.derives

end KeyDispensary.Json
