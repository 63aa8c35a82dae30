import KeyDispensary.Json.Reader

/-!
JSON numbers. A whole number within 64 bits is exact; any other is brought into the 64-bit binary
format from at most 64 bits of its digits, scaled by a power of ten.
-/

namespace KeyDispensary.Json

/-- A number as it is read. -/
inductive Number where
  /-- A whole number below `2 ^ 64`. -/
  | natural (value : Nat)
  /-- A whole number below zero, by its magnitude up to `2 ^ 63`. -/
  | negative (magnitude : Nat)
  /-- Any other number, in the 64-bit binary format. -/
  | floating (bits : UInt64)
deriving DecidableEq

/-- How a number is named where another kind of value is wanted. -/
def Number.found : Number → Found
  | .natural value => .natural value
  | .negative magnitude => .negative magnitude
  | .floating bits => .floating bits

/-- The greatest number of 64 bits. -/
def maxWord : Nat := 18446744073709551615

/-- The greatest exponent that is read in full. -/
def maxExponent : Nat := 2147483647

/-- Adds digits to a number up to 64 bits, and counts the further digits without adding them. -/
def gather (n : Nat) : Bytes → Nat × Nat × Bytes
  | [] => (n, 0, [])
  | b :: text =>
    if !isDigit b then (n, 0, b :: text)
    else if n * 10 + digitValue b ≤ maxWord then gather (n * 10 + digitValue b) text
    else (n, ((b :: text).takeWhile isDigit).length, (b :: text).dropWhile isDigit)

/-- The power of ten in the 64-bit binary format. -/
def powerOfTen (exponent : Nat) : Float :=
  Float.ofScientific 1 false exponent

/--
Divides by powers of ten until the exponent is within range, or nothing is left.

Three divisions by the largest power leave nothing of any number of 64 bits.
-/
def lower : Nat → Float → Nat → Float
  | 0, x, _ => x
  | rounds + 1, x, exponent =>
    if exponent ≤ 308 then x / powerOfTen exponent
    else if x == 0.0 then x
    else lower rounds (x / powerOfTen 308) (exponent - 308)

/-- Scales a number of 64 bits by a power of ten; nothing when the result is not finite. -/
def scale (significand : Nat) (exponent : Int) : Option Float :=
  let x := (UInt64.ofNat significand).toFloat
  if exponent < 0 then some (lower 4 x exponent.natAbs)
  else if exponent ≤ 308 then
    let y := x * powerOfTen exponent.toNat
    if y.isInf then none else some y
  else if x == 0.0 then some x
  else none

/-- The number with the given sign. -/
def signed (negative : Bool) (x : Float) : Number :=
  .floating (if negative then -x else x).toBits

/-- The number that digits, a sign and a power of ten make, read up to the rest. -/
def scaled (negative : Bool) (significand : Nat) (exponent : Int) : Reader Number := fun text =>
  match scale significand exponent with
  | some x => .ok (signed negative x, text)
  | none => .error (Cause.numberTooLarge.before text)

/--
Adds digits to an exponent, which ends the number.

An exponent past the greatest makes the number too large at once, or nothing at all.
-/
def readExponentDigits (negative : Bool) (significand : Nat) (start : Int) (down : Bool) :
    Nat → Reader Number
  | exponent, [] => scaled negative significand (if down then start - exponent else start + exponent) []
  | exponent, b :: text =>
    if !isDigit b then
      scaled negative significand (if down then start - exponent else start + exponent) (b :: text)
    else if exponent * 10 + digitValue b ≤ maxExponent then
      readExponentDigits negative significand start down (exponent * 10 + digitValue b) text
    else if significand ≠ 0 && !down then .error (Cause.numberTooLarge.before text)
    else .ok (signed negative 0.0, text.dropWhile isDigit)

/-- Reads an exponent after its sign. -/
def readExponentFrom (negative : Bool) (significand : Nat) (start : Int) (down : Bool) :
    Reader Number
  | [] => .error (Cause.endInValue.before [])
  | b :: text =>
    if isDigit b then readExponentDigits negative significand start down (digitValue b) text
    else .error (Cause.badNumber.before text)

/-- Reads an exponent after its letter. -/
def readExponent (negative : Bool) (significand : Nat) (start : Int) : Reader Number
  | [] => readExponentFrom negative significand start false []
  | b :: text =>
    if b = byte '+' then readExponentFrom negative significand start false text
    else if b = byte '-' then readExponentFrom negative significand start true text
    else readExponentFrom negative significand start false (b :: text)

/-- Whether a byte announces an exponent. -/
def isExponentMark (b : UInt8) : Bool :=
  b = byte 'e' || b = byte 'E'

/-- Reads what may follow the digits after a point. -/
def readAfterFraction (negative : Bool) (significand : Nat) (exponent : Int) : Reader Number
  | [] => scaled negative significand exponent []
  | b :: text =>
    if isExponentMark b then readExponent negative significand exponent text
    else scaled negative significand exponent (b :: text)

/-- Reads the digits after a point, at least one, and what follows them. -/
def readFraction (negative : Bool) (significand dropped : Nat) : Reader Number
  | [] => .error (Cause.endInValue.before [])
  | b :: text =>
    if !isDigit b then .error (Cause.badNumber.onFirst (b :: text))
    else
      let (longer, ignored, rest) := gather significand (b :: text)
      -- Digits that were added after the point lower the exponent, ignored ones do not.
      let added := text.length + 1 - rest.length - ignored
      readAfterFraction negative longer (dropped - added) rest

/-- The whole number that digits and a sign make; zero below zero is no whole number. -/
def whole (negative : Bool) (significand : Nat) : Number :=
  if !negative then .natural significand
  else if significand = 0 || 9223372036854775808 < significand then
    signed true (UInt64.ofNat significand).toFloat
  else .negative significand

/-- Reads what may follow the digits before a point, of which `dropped` were only counted. -/
def readAfterWhole (negative : Bool) (significand dropped : Nat) : Reader Number
  | [] => if dropped = 0 then .ok (whole negative significand, []) else
      scaled negative significand dropped []
  | b :: text =>
    if b = byte '.' then readFraction negative significand dropped text
    else if isExponentMark b then readExponent negative significand dropped text
    else if dropped = 0 then .ok (whole negative significand, b :: text)
    else scaled negative significand dropped (b :: text)

/-- Reads the magnitude of a number; a digit after a leading zero is refused. -/
def readMagnitude (negative : Bool) : Reader Number
  | [] => .error (Cause.endInValue.before [])
  | b :: text =>
    if b = byte '0' then
      if (text.head?.map isDigit).getD false then .error (Cause.badNumber.onFirst text)
      else readAfterWhole negative 0 0 text
    else if isDigit b then
      let (significand, dropped, rest) := gather (digitValue b) text
      readAfterWhole negative significand dropped rest
    else .error (Cause.badNumber.before text)

/-- Reads a number, which begins with a minus sign or a digit. -/
def readNumber : Reader Number
  | [] => .error (Cause.endInValue.before [])
  | b :: text =>
    if b = byte '-' then readMagnitude true text else readMagnitude false (b :: text)

end KeyDispensary.Json
