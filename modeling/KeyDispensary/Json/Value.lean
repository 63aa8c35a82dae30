import KeyDispensary.Json.Number
import KeyDispensary.Json.Text

/-! Reading a single JSON value of a wanted type: a flag, a text, a number or a list of bytes. -/

namespace KeyDispensary.Json

/--
The fault of a value that is not of the wanted type, given the text from its first byte.

A word, a number or a string is read first, and its own fault comes before the wrong type.
-/
def mismatch (wanted : String) (text : Bytes) : Fault :=
  let wrong (found : Found) : Except Fault Bytes → Fault
    | .ok rest => (Cause.wrongType found wanted).before rest
    | .error fault => fault
  match text with
  | [] => Cause.endInValue.before []
  | b :: rest =>
    if b = byte 'n' then wrong .null (readWord ['u', 'l', 'l'] rest)
    else if b = byte 't' then wrong (.boolean true) (readWord ['r', 'u', 'e'] rest)
    else if b = byte 'f' then wrong (.boolean false) (readWord ['a', 'l', 's', 'e'] rest)
    else if b = byte '-' || isDigit b then
      match readNumber text with
      | .ok (number, rest) => (Cause.wrongType number.found wanted).before rest
      | .error fault => fault
    else if b = byte '"' then
      match readString rest with
      | .ok (value, rest) => (Cause.wrongType (.text value) wanted).before rest
      | .error fault => fault
    else if b = byte '[' then (Cause.wrongType .sequence wanted).before text
    else if b = byte '\x7b' then (Cause.wrongType .map wanted).before text
    else Cause.noValue.onFirst text

/-- Reads `true` or `false`. -/
def readFlag : Reader Bool := fun text =>
  match dropBlank text with
  | [] => .error (Cause.endInValue.before [])
  | b :: rest =>
    if b = byte 't' then (readWord ['r', 'u', 'e'] rest).map fun rest => (true, rest)
    else if b = byte 'f' then (readWord ['a', 'l', 's', 'e'] rest).map fun rest => (false, rest)
    else .error (mismatch "a boolean" (b :: rest))

/-- Reads a string where the given kind of text is wanted. -/
def readTextAs (wanted : String) : Reader String := fun text =>
  match dropBlank text with
  | [] => .error (Cause.endInValue.before [])
  | b :: rest =>
    if b = byte '"' then readString rest else .error (mismatch wanted (b :: rest))

/-- Reads a string. -/
def readText : Reader String :=
  readTextAs "a string"

/-- Reads a whole number from zero to a bound. -/
def readNatUpTo (bound : Nat) (wanted : String) : Reader Nat := fun text =>
  match dropBlank text with
  | [] => .error (Cause.endInValue.before [])
  | b :: rest =>
    if b = byte '-' || isDigit b then
      match readNumber (b :: rest) with
      | .error fault => .error fault
      | .ok (.natural n, rest) =>
        if n ≤ bound then .ok (n, rest)
        else .error ((Cause.wrongValue (.natural n) wanted).before rest)
      | .ok (.negative n, rest) => .error ((Cause.wrongValue (.negative n) wanted).before rest)
      | .ok (.floating bits, rest) =>
        .error ((Cause.wrongType (.floating bits) wanted).before rest)
    else .error (mismatch wanted (b :: rest))

/-- Reads a whole number of 64 bits. -/
def readWord64 : Reader UInt64 := fun text =>
  (readNatUpTo maxWord "u64" text).map fun (n, rest) => (UInt64.ofNat n, rest)

/-- Reads a whole number of eight bits. -/
def readByte : Reader UInt8 := fun text =>
  (readNatUpTo 255 "u8" text).map fun (n, rest) => (UInt8.ofNat n, rest)

/-- Where a list goes on: at its closing byte, or before another element. -/
inductive ListPlace where
  | closing
  | element
deriving DecidableEq

/-- Finds the next element of a list, past the comma that stands before all but the first. -/
def nextElement (first : Bool) : Reader ListPlace := fun text =>
  match dropBlank text with
  | [] => .error (Cause.endInList.before [])
  | b :: rest =>
    if b = byte ']' then .ok (.closing, b :: rest)
    else if first then .ok (.element, b :: rest)
    else if b = byte ',' then
      match dropBlank rest with
      | [] => .error (Cause.endInValue.before [])
      | c :: rest =>
        if c = byte ']' then .error (Cause.trailingComma.onFirst (c :: rest))
        else .ok (.element, c :: rest)
    else .error (Cause.noListSeparator.onFirst (b :: rest))

/-- Reads the elements of a list of bytes through its closing byte; each takes at least one byte. -/
def readElements : Nat → Bool → Reader Bytes
  | 0, _, text => .error (Cause.endInList.before text)
  | steps + 1, first, text =>
    match nextElement first text with
    | .error fault => .error fault
    | .ok (.closing, rest) => .ok ([], rest.drop 1)
    | .ok (.element, rest) =>
      match readByte rest with
      | .error fault => .error fault
      | .ok (b, rest) => prepend [b] (readElements steps false rest)

/-- Reads a list of bytes. -/
def readOctets : Reader Bytes := fun text =>
  match dropBlank text with
  | [] => .error (Cause.endInValue.before [])
  | b :: rest =>
    if b = byte '[' then readElements (rest.length + 1) true rest
    else .error (mismatch "a sequence" (b :: rest))

/-- Reads a whole text as one value with nothing but blanks around it. -/
def decode {α : Type} (read : Reader α) (text : Bytes) : Except Error α :=
  match read text with
  | .error fault => .error (fault.locate text)
  | .ok (value, rest) =>
    match dropBlank rest with
    | [] => .ok value
    | b :: rest => .error ((Cause.trailingText.onFirst (b :: rest)).locate text)

end KeyDispensary.Json
