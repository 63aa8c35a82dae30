import KeyDispensary.Bytes
import KeyDispensary.Decimal.Layout
import KeyDispensary.Identity.Text
import KeyDispensary.Text.Quoted

/-! Why JSON text cannot be read, and where in the text that shows. -/

namespace KeyDispensary.Json

/-- A value that stands where another kind of value is wanted. -/
inductive Found where
  | null
  | boolean (value : Bool)
  /-- A whole number that is not negative. -/
  | natural (value : Nat)
  /-- A whole number below zero, by its magnitude. -/
  | negative (magnitude : Nat)
  /-- Any other number, in the 64-bit binary format. -/
  | floating (bits : UInt64)
  | text (value : String)
  | sequence
  | map
deriving DecidableEq

/-- Numbers in messages keep all places from five past the point to sixteen before it. -/
def numberLayout : Decimal.Layout := ⟨-5, 15, 1⟩

/-- How a value is named in a message. -/
def Found.name : Found → String
  | .null => "null"
  | .boolean value => s!"boolean `{value}`"
  | .natural value => s!"integer `{value}`"
  | .negative magnitude => s!"integer `-{magnitude}`"
  | .floating bits => s!"floating point `{numberLayout.text bits}`"
  | .text value => s!"string {Text.quoted value}"
  | .sequence => "sequence"
  | .map => "map"

/-- Why JSON text cannot be read as a value of the wanted type. -/
inductive Cause where
  | endInValue
  | endInList
  | endInObject
  | endInText
  | noColon
  | noListSeparator
  | noObjectSeparator
  /-- A word that begins as `null`, `true` or `false` goes on otherwise. -/
  | badWord
  | noValue
  | keyNotText
  | trailingComma
  | trailingText
  | badNumber
  | numberTooLarge
  | badEscape
  | loneSurrogate
  /-- A leading surrogate is followed by something that is no escape. -/
  | openSurrogate
  | controlCharacter
  | badCodePoint
  | wrongType (found : Found) (wanted : String)
  | wrongValue (found : Found) (wanted : String)
  | duplicateField (name : String)
  | missingField (name : String)
  | wrongLength (length : Nat) (wanted : String)
  | badIdentity (error : IdentityError)
deriving DecidableEq

/-- What is said of a cause. -/
def Cause.message : Cause → String
  | .endInValue => "EOF while parsing a value"
  | .endInList => "EOF while parsing a list"
  | .endInObject => "EOF while parsing an object"
  | .endInText => "EOF while parsing a string"
  | .noColon => "expected `:`"
  | .noListSeparator => "expected `,` or `]`"
  | .noObjectSeparator => "expected `,` or `\x7d`"
  | .badWord => "expected ident"
  | .noValue => "expected value"
  | .keyNotText => "key must be a string"
  | .trailingComma => "trailing comma"
  | .trailingText => "trailing characters"
  | .badNumber => "invalid number"
  | .numberTooLarge => "number out of range"
  | .badEscape => "invalid escape"
  | .loneSurrogate => "lone leading surrogate in hex escape"
  | .openSurrogate => "unexpected end of hex escape"
  | .controlCharacter => "control character (\\u0000-\\u001F) found while parsing a string"
  | .badCodePoint => "invalid unicode code point"
  | .wrongType found wanted => s!"invalid type: {found.name}, expected {wanted}"
  | .wrongValue found wanted => s!"invalid value: {found.name}, expected {wanted}"
  | .duplicateField name => s!"duplicate field `{name}`"
  | .missingField name => s!"missing field `{name}`"
  | .wrongLength length wanted => s!"invalid length {length}, expected {wanted}"
  | .badIdentity error => s!"UUID parsing failed: {error.message}"

/-- A cause and where reading stopped, counted from the end of the text. -/
structure Fault where
  cause : Cause
  /-- The number of bytes that were not read. -/
  left : Nat
  /-- How many columns before that place the fault lies. -/
  back : Nat := 0
deriving DecidableEq

/-- A cause with the line and the column of the text where it shows. -/
structure Error where
  cause : Cause
  line : Nat
  column : Nat
deriving DecidableEq

/-- The text that reports the error. -/
def Error.message (error : Error) : String :=
  s!"{error.cause.message} at line {error.line} column {error.column}"

/-- Finds the line and the column of a fault in the text that was read. -/
def Fault.locate (fault : Fault) (text : Bytes) : Error :=
  let read := text.take (text.length - fault.left)
  { cause := fault.cause
    line := 1 + read.count 10
    column := (read.reverse.takeWhile (· != 10)).length - fault.back }

end KeyDispensary.Json
