import KeyDispensary.Decimal.Shortest

/-! How the digits of a number are laid out: with all their places, or with an exponent. -/

namespace KeyDispensary.Decimal

/-- The choices of a format for numbers. -/
structure Layout where
  /-- The least exponent of the leading digit for which all places are written. -/
  plainFrom : Int
  /-- The greatest such exponent. -/
  plainTo : Int
  /-- The least number of digits of a written exponent. -/
  exponentWidth : Nat

/-- All places of a number whose leading digit has the exponent `lead`, with one past the point. -/
def plain (digits : List Char) (exponent lead : Int) : List Char :=
  if 0 ≤ exponent then digits ++ List.replicate exponent.toNat '0' ++ ['.', '0']
  else if 0 ≤ lead then
    digits.take (lead.toNat + 1) ++ '.' :: digits.drop (lead.toNat + 1)
  else '0' :: '.' :: (List.replicate (-lead - 1).toNat '0' ++ digits)

/-- A number as one digit before the point, with a signed exponent. -/
def Layout.scientific (layout : Layout) (digits : List Char) (lead : Int) : List Char :=
  let places := Nat.toDigits 10 lead.natAbs
  let fraction := if digits.length ≤ 1 then [] else '.' :: digits.drop 1
  digits.take 1 ++ fraction ++ 'e' :: (if lead < 0 then '-' else '+') ::
    (List.replicate (layout.exponentWidth - places.length) '0' ++ places)

/-- The text of a decimal other than zero. -/
def Layout.scaled (layout : Layout) (number : Scaled) : List Char :=
  let digits := Nat.toDigits 10 number.digits
  let lead := number.exponent + digits.length - 1
  if layout.plainFrom ≤ lead ∧ lead ≤ layout.plainTo then plain digits number.exponent lead
  else layout.scientific digits lead

/-- The text of a finite number in the 64-bit binary format. -/
def Layout.text (layout : Layout) (bits : UInt64) : String :=
  let sign := if bits.toNat < 9223372036854775808 then [] else ['-']
  let zero := exponentOf bits = 0 ∧ fractionOf bits = 0
  String.ofList (sign ++ if zero then ['0', '.', '0'] else layout.scaled (shortest bits))

end KeyDispensary.Decimal
