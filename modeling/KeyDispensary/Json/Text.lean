import KeyDispensary.Json.Reader
import KeyDispensary.Text.Hex
import KeyDispensary.Text.Utf8

/-! JSON strings: their escapes and the bytes that they stand for. -/

namespace KeyDispensary.Json

/-- The byte that a one-letter escape stands for. -/
def escapedByte? (b : UInt8) : Option UInt8 :=
  if b = byte '"' then some (byte '"')
  else if b = byte '\\' then some (byte '\\')
  else if b = byte '/' then some (byte '/')
  else if b = byte 'b' then some 8
  else if b = byte 'f' then some 12
  else if b = byte 'n' then some 10
  else if b = byte 'r' then some 13
  else if b = byte 't' then some 9
  else none

/-- The value of a hexadecimal digit. -/
def hexValue? (b : UInt8) : Option Nat :=
  Hex.value? (Char.ofNat b.toNat)

/-- The code unit that four hexadecimal digits stand for. -/
def codeUnit? (a b c d : UInt8) : Option Nat :=
  match hexValue? a, hexValue? b, hexValue? c, hexValue? d with
  | some w, some x, some y, some z => some (w * 4096 + x * 256 + y * 16 + z)
  | _, _, _, _ => none

/-- Whether a code unit is the first half of a pair. -/
def isLeading (unit : Nat) : Bool :=
  0xD800 ≤ unit && unit ≤ 0xDBFF

/-- Whether a code unit is the second half of a pair. -/
def isTrailing (unit : Nat) : Bool :=
  0xDC00 ≤ unit && unit ≤ 0xDFFF

/-- The UTF-8 bytes of a code point. -/
def codePoint (code : Nat) : Bytes :=
  String.utf8EncodeChar (Char.ofNat code)

/-- The bytes of a pair of code units. -/
def pairedUnits (leading trailing : Nat) : Bytes :=
  codePoint ((leading - 0xD800) * 1024 + (trailing - 0xDC00) + 0x10000)

/-- Puts bytes before those that are read next. -/
def prepend (bytes : Bytes) : Except Fault (Bytes × Bytes) → Except Fault (Bytes × Bytes)
  | .ok (more, rest) => .ok (bytes ++ more, rest)
  | .error fault => .error fault

/-- Reads the bytes of a string after its opening quote, through its closing quote. -/
def readBytes : Reader Bytes
  | [] => .error (Cause.endInText.before [])
  | b :: text =>
    if b = byte '"' then .ok ([], text)
    else if b = byte '\\' then
      match text with
      | [] => .error (Cause.endInText.before [])
      | e :: text =>
        if e = byte 'u' then
          match text with
          | h₁ :: h₂ :: h₃ :: h₄ :: text =>
            match codeUnit? h₁ h₂ h₃ h₄ with
            | none => .error (Cause.badEscape.before text)
            | some unit =>
              if isTrailing unit then .error (Cause.loneSurrogate.before text)
              else if !isLeading unit then prepend (codePoint unit) (readBytes text)
              else
                -- The second half of the pair has to follow in an escape of its own.
                match text with
                | [] => .error (Cause.endInText.before [])
                | s :: text =>
                  if s ≠ byte '\\' then .error (Cause.openSurrogate.before text)
                  else
                    match text with
                    | [] => .error (Cause.endInText.before [])
                    | u :: text =>
                      if u ≠ byte 'u' then .error (Cause.openSurrogate.before text)
                      else
                        match text with
                        | t₁ :: t₂ :: t₃ :: t₄ :: text =>
                          match codeUnit? t₁ t₂ t₃ t₄ with
                          | none => .error (Cause.badEscape.before text)
                          | some second =>
                            if isTrailing second then
                              prepend (pairedUnits unit second) (readBytes text)
                            else .error (Cause.loneSurrogate.before text)
                        | _ => .error (Cause.endInText.before [])
          | _ => .error (Cause.endInText.before [])
        else
          match escapedByte? e with
          | some plain => prepend [plain] (readBytes text)
          | none => .error (Cause.badEscape.before text)
    else if b.toNat < 32 then .error (Cause.controlCharacter.before text)
    -- Whether the bytes are UTF-8 is asked of the whole string at its end.
    else prepend [b] (readBytes text)

/-- Reads a string after its opening quote; bytes that are no UTF-8 are refused. -/
def readString : Reader String := fun text =>
  match readBytes text with
  | .error fault => .error fault
  | .ok (bytes, rest) =>
    match Utf8.decode bytes with
    | .ok value => .ok (value, rest)
    | .error past => .error { cause := .badCodePoint, left := rest.length, back := past }

end KeyDispensary.Json
