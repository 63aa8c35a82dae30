/-! Byte strings, as keys, values and files hold them, and the fixed-width form of numbers in keys. -/

namespace KeyDispensary

/-- A string of bytes; `<` on it is byte order, where a proper beginning comes first. -/
abbrev Bytes := List UInt8

namespace Bytes

/-- The last `width` base-256 digits of a number, most significant first. -/
def bigEndian : Nat → Nat → Bytes
  | 0, _ => []
  | width + 1, n => UInt8.ofNat (n / Nat.pow 256 width) :: bigEndian width n

/-- The UTF-8 bytes of characters. -/
def ofChars (chars : List Char) : Bytes :=
  chars.flatMap String.utf8EncodeChar

/-- The UTF-8 bytes of a text. -/
def ofText (text : String) : Bytes :=
  ofChars text.toList

end Bytes

end KeyDispensary
