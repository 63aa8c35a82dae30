import KeyDispensary.Json.Number
import KeyDispensary.Json.Text

/-!
Passing over a JSON value whose content does not matter. Lists and objects may be nested to any depth,
numbers may have any size, and strings are only followed to their closing quotes.
-/

namespace KeyDispensary.Json

/-- What encloses a value. -/
inductive Bracket where
  | list
  | object
deriving DecidableEq

/-- The byte that closes a bracket. -/
def Bracket.closer : Bracket → UInt8
  | .list => byte ']'
  | .object => byte '\x7d'

/-- The cause of a text that ends within a bracket. -/
def Bracket.atEnd : Bracket → Cause
  | .list => .endInList
  | .object => .endInObject

/-- The cause of a value that neither a comma nor the closing byte follows. -/
def Bracket.noSeparator : Bracket → Cause
  | .list => .noListSeparator
  | .object => .noObjectSeparator

/-- Passes over a string after its opening quote. -/
def skipString : Bytes → Except Fault Bytes
  | [] => .error (Cause.endInText.before [])
  | b :: text =>
    if b = byte '"' then .ok text
    else if b = byte '\\' then
      match text with
      | [] => .error (Cause.endInText.before [])
      | e :: text =>
        if e = byte 'u' then
          match text with
          | h₁ :: h₂ :: h₃ :: h₄ :: text =>
            if (codeUnit? h₁ h₂ h₃ h₄).isSome then skipString text
            else .error (Cause.badEscape.before text)
          | _ => .error (Cause.endInText.before [])
        else if (escapedByte? e).isSome then skipString text
        else .error (Cause.badEscape.before text)
    else if b.toNat < 32 then .error (Cause.controlCharacter.before (b :: text))
    else skipString text

/-- Passes over the digits of an exponent, at least one. -/
def skipExponentDigits : Bytes → Except Fault Bytes
  | [] => .error (Cause.badNumber.before [])
  | b :: text =>
    if isDigit b then .ok (text.dropWhile isDigit) else .error (Cause.badNumber.before text)

/-- Passes over an exponent after its letter. -/
def skipExponent : Bytes → Except Fault Bytes
  | [] => skipExponentDigits []
  | b :: text =>
    if b = byte '+' || b = byte '-' then skipExponentDigits text else skipExponentDigits (b :: text)

/-- Passes over the exponent that may follow digits. -/
def skipAfterFraction : Bytes → Except Fault Bytes
  | [] => .ok []
  | b :: text => if isExponentMark b then skipExponent text else .ok (b :: text)

/-- Passes over the digits after a point, at least one, and what follows them. -/
def skipFraction : Bytes → Except Fault Bytes
  | [] => .error (Cause.badNumber.before [])
  | b :: text =>
    if isDigit b then skipAfterFraction (text.dropWhile isDigit)
    else .error (Cause.badNumber.onFirst (b :: text))

/-- Passes over the point and the exponent that may follow digits. -/
def skipAfterWhole : Bytes → Except Fault Bytes
  | [] => .ok []
  | b :: text =>
    if b = byte '.' then skipFraction text
    else if isExponentMark b then skipExponent text
    else .ok (b :: text)

/-- Passes over the magnitude of a number; a digit after a leading zero is refused. -/
def skipMagnitude : Bytes → Except Fault Bytes
  | [] => .error (Cause.badNumber.before [])
  | b :: text =>
    if b = byte '0' then
      if (text.head?.map isDigit).getD false then .error (Cause.badNumber.onFirst text)
      else skipAfterWhole text
    else if isDigit b then skipAfterWhole (text.dropWhile isDigit)
    else .error (Cause.badNumber.before text)

/-- A value that is passed over, or the bracket that was opened instead. -/
inductive Opening where
  | scalar
  | bracket (bracket : Bracket)

/-- Passes over a word, a number or a string, or over the opening byte of a bracket. -/
def skipOpening : Reader Opening
  | [] => .error (Cause.endInValue.before [])
  | b :: text =>
    if b = byte '[' then .ok (.bracket .list, text)
    else if b = byte '\x7b' then .ok (.bracket .object, text)
    else
      let passed :=
        if b = byte 'n' then readWord ['u', 'l', 'l'] text
        else if b = byte 't' then readWord ['r', 'u', 'e'] text
        else if b = byte 'f' then readWord ['a', 'l', 's', 'e'] text
        else if b = byte '"' then skipString text
        else if b = byte '-' then skipMagnitude text
        else if isDigit b then skipMagnitude (b :: text)
        else .error (Cause.noValue.onFirst (b :: text))
      passed.map fun rest => (.scalar, rest)

/--
Closes brackets as far as their closing bytes follow, innermost first.

`full` says that the innermost bracket holds a value already, so that a comma may follow. Answers the
brackets that stay open and go on with another value, or none when all are closed.
-/
def settle (full : Bool) : List Bracket → Reader (List Bracket)
  | [], text => .ok ([], text)
  | bracket :: outer, text =>
    match dropBlank text with
    | [] => .error (bracket.atEnd.before [])
    | b :: rest =>
      if full ∧ b = byte ',' then .ok (bracket :: outer, rest)
      -- A closed bracket is itself a value of the one around it.
      else if b = bracket.closer then settle true outer rest
      else if full then .error (bracket.noSeparator.onFirst (b :: rest))
      else .ok (bracket :: outer, b :: rest)

/-- Passes over the key and the colon that stand before a value in an object. -/
def skipKey (text : Bytes) : Except Fault Bytes :=
  match dropBlank text with
  | [] => .error (Cause.endInObject.before [])
  | b :: rest =>
    if b ≠ byte '"' then .error (Cause.keyNotText.onFirst (b :: rest))
    else
      match skipString rest with
      | .error fault => .error fault
      | .ok rest =>
        match dropBlank rest with
        | [] => .error (Cause.endInObject.before [])
        | b :: rest =>
          if b = byte ':' then .ok rest else .error (Cause.noColon.onFirst (b :: rest))

/-- Passes over values until every open bracket is closed; each takes at least one byte. -/
def skipWithin : Nat → List Bracket → Bytes → Except Fault Bytes
  | 0, _, text => .error (Cause.endInValue.before text)
  | steps + 1, outer, text =>
    match skipOpening (dropBlank text) with
    | .error fault => .error fault
    | .ok (opening, rest) =>
      let settled :=
        match opening with
        | .scalar => settle true outer rest
        | .bracket bracket => settle false (bracket :: outer) rest
      match settled with
      | .error fault => .error fault
      | .ok ([], rest) => .ok rest
      | .ok (.list :: outer, rest) => skipWithin steps (.list :: outer) rest
      | .ok (.object :: outer, rest) =>
        match skipKey rest with
        | .error fault => .error fault
        | .ok rest => skipWithin steps (.object :: outer) rest

/-- Passes over one value. -/
def skipValue (text : Bytes) : Except Fault Bytes :=
  skipWithin (text.length + 1) [] text

end KeyDispensary.Json
