import KeyDispensary.Bytes
import KeyDispensary.Text.Hex

/-! Writing JSON text: single values, objects without blanks, and objects with a line per member. -/

namespace KeyDispensary.Json

/-- The decimal digits of a number. -/
def writeNat (n : Nat) : List Char :=
  Nat.toDigits 10 n

/-- The words for flags. -/
def writeFlag (value : Bool) : List Char :=
  if value then ['t', 'r', 'u', 'e'] else ['f', 'a', 'l', 's', 'e']

/-- How one character of a text is written; only quotes, backslashes and controls are escaped. -/
def writeChar (c : Char) : List Char :=
  if c = '"' then ['\\', '"']
  else if c = '\\' then ['\\', '\\']
  else if c = '\x08' then ['\\', 'b']
  else if c = '\x0c' then ['\\', 'f']
  else if c = '\n' then ['\\', 'n']
  else if c = '\r' then ['\\', 'r']
  else if c = '\t' then ['\\', 't']
  else if c.toNat < 32 then
    ['\\', 'u', '0', '0', Hex.digit (c.toNat / 16), Hex.digit (c.toNat % 16)]
  else [c]

/-- A text between quotes. -/
def writeString (value : String) : List Char :=
  '"' :: (value.toList.flatMap writeChar ++ ['"'])

/-- Values joined by commas. -/
def joined : List (List Char) → List Char
  | [] => []
  | [value] => value
  | value :: more => value ++ ',' :: joined more

/-- A list of bytes without blanks. -/
def writeOctets (octets : Bytes) : List Char :=
  '[' :: (joined (octets.map fun b => writeNat b.toNat) ++ [']'])

/-- A member of an object without blanks. -/
def writeMember (member : String × List Char) : List Char :=
  writeString member.1 ++ ':' :: member.2

/-- An object without blanks, given its keys and their written values. -/
def writeObject (members : List (String × List Char)) : List Char :=
  '\x7b' :: (joined (members.map writeMember) ++ ['\x7d'])

/-- A new line that is indented by two spaces for each level. -/
def newLine (depth : Nat) : List Char :=
  '\n' :: List.replicate (2 * depth) ' '

/-- A member of an object on a line of its own. -/
def writeLine (depth : Nat) (member : String × List Char) : List Char :=
  newLine depth ++ writeString member.1 ++ ':' :: ' ' :: member.2

/-- An object at a level of indentation, with each member on a line of its own. -/
def writeBlock (depth : Nat) (members : List (String × List Char)) : List Char :=
  '\x7b' :: (joined (members.map (writeLine (depth + 1))) ++ newLine depth ++ ['\x7d'])

end KeyDispensary.Json
