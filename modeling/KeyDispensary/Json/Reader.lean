import KeyDispensary.Json.Error

/-! Readers of JSON text, blanks between values, and the words of the format. -/

namespace KeyDispensary.Json

/-- Reads a value from the front of a text and leaves the rest. -/
abbrev Reader (α : Type) := Bytes → Except Fault (α × Bytes)

/-- A fault that shows before the rest of the text. -/
def Cause.before (cause : Cause) (rest : Bytes) : Fault :=
  ⟨cause, rest.length, 0⟩

/-- A fault that shows on the first byte of the rest, or at the end when nothing is left. -/
def Cause.onFirst (cause : Cause) (rest : Bytes) : Fault :=
  ⟨cause, rest.length - 1, 0⟩

/-- The byte of a character of the format. -/
def byte (c : Char) : UInt8 :=
  UInt8.ofNat c.toNat

/-- Whether a byte may stand between values: space, tab, line feed or carriage return. -/
def isBlank (b : UInt8) : Bool :=
  b = 32 || b = 9 || b = 10 || b = 13

/-- The text from its first byte that is not blank. -/
def dropBlank (text : Bytes) : Bytes :=
  text.dropWhile isBlank

/-- Whether a byte is a decimal digit. -/
def isDigit (b : UInt8) : Bool :=
  48 ≤ b.toNat && b.toNat ≤ 57

/-- The value of a decimal digit. -/
def digitValue (b : UInt8) : Nat :=
  b.toNat - 48

/-- Reads the rest of a word whose first letter was read. -/
def readWord : List Char → Bytes → Except Fault Bytes
  | [], text => .ok text
  | _ :: _, [] => .error (Cause.endInValue.before [])
  | c :: word, b :: text =>
    if b = byte c then readWord word text else .error (Cause.badWord.before text)

end KeyDispensary.Json
