/-!
The shortest decimal that reads back as a binary number.

A finite binary number stands for every real that rounds to it. Of the decimals among those reals the
one on the coarsest grid of powers of ten is chosen, and of two on that grid the nearer.
-/

namespace KeyDispensary.Decimal

/-- The reals that round to a positive number, as numerators over one denominator. -/
structure Rounding where
  /-- The least real, four times as fine as the number's own digits. -/
  low : Nat
  /-- The number itself. -/
  value : Nat
  /-- The greatest real. -/
  high : Nat
  /-- What all three are divided by. -/
  denominator : Nat
  /-- Whether the two ends round to the number too. -/
  closed : Bool

/-- The digits of a decimal and the power of ten that they are multiplied by. -/
structure Scaled where
  digits : Nat
  exponent : Int
deriving DecidableEq

/-- The fraction field of a number in the 64-bit binary format. -/
def fractionOf (bits : UInt64) : Nat :=
  bits.toNat % 4503599627370496

/-- The exponent field of a number in the 64-bit binary format. -/
def exponentOf (bits : UInt64) : Nat :=
  bits.toNat / 4503599627370496 % 2048

/--
The reals that round to the magnitude of a finite number.

The gap below a power of two is half the gap above it, unless both are of the finest size.
-/
def roundingOf (bits : UInt64) : Rounding :=
  let fraction := fractionOf bits
  let field := exponentOf bits
  let significand := if field = 0 then fraction else fraction + 4503599627370496
  let below := if fraction = 0 ∧ 1 < field then 1 else 2
  -- The number is `significand · 2 ^ (power - 1077)` in quarters of its last digit.
  let power := if field = 0 then 1 else field
  let up := Nat.pow 2 (power - 1077)
  { low := (4 * significand - below) * up
    value := 4 * significand * up
    high := (4 * significand + 2) * up
    denominator := Nat.pow 2 (1077 - power)
    closed := significand % 2 = 0 }

/-- Whether `digits` grid steps of `step / factor` each round to the number. -/
def Rounding.holds (r : Rounding) (factor step digits : Nat) : Bool :=
  if r.closed then r.low * factor ≤ digits * step && digits * step ≤ r.high * factor
  else r.low * factor < digits * step && digits * step < r.high * factor

/-- The grid point that rounds to the number and is nearest to it, an even one of two as near. -/
def Rounding.onGrid? (r : Rounding) (exponent : Int) : Option Scaled :=
  -- One of the two powers is one, so that the grid is compared in whole numbers.
  let factor := Nat.pow 10 (-exponent).toNat
  let step := Nat.pow 10 exponent.toNat * r.denominator
  let floor := r.value * factor / step
  let past := r.value * factor - floor * step
  let lower := r.holds factor step floor && floor ≠ 0
  let upper := r.holds factor step (floor + 1)
  let preferLower := 2 * past < step || (2 * past = step && floor % 2 = 0)
  if lower && (preferLower || !upper) then some ⟨floor, exponent⟩
  else if upper then some ⟨floor + 1, exponent⟩
  else none

/-- The exponents of the grids that are looked at, coarsest first. -/
def gridExponents : List Int :=
  (List.range 633).map fun (i : Nat) => 308 - (i : Int)

/-- The shortest decimal of a finite number other than zero. -/
def shortest (bits : UInt64) : Scaled :=
  (gridExponents.findSome? (roundingOf bits).onGrid?).getD ⟨0, 0⟩

end KeyDispensary.Decimal
