import KeyDispensary.Bytes
import Mathlib.Algebra.Group.Nat.Defs

/-! Numbers of one width are in the order of their bytes. Main statement: `Bytes.bigEndian_lt_iff`. -/

namespace KeyDispensary.Bytes

/-- Higher digits have no part in the lower ones. -/
theorem bigEndian_mod {width above : Nat} (within : width ≤ above) (n : Nat) :
    bigEndian width (n % 256 ^ above) = bigEndian width n := by
  -- Each digit is a quotient by a smaller power, taken modulo one digit.
  induction width with
  | zero => rfl
  | succ width ih =>
    have split : 256 ^ above = 256 ^ width * 256 * 256 ^ (above - (width + 1)) := by
      rw [← Nat.pow_succ, ← Nat.pow_add]
      congr
      omega
    -- The power of the digit divides the modulus, and a whole digit of it is left.
    have digit : n % 256 ^ above / 256 ^ width % 256 = n / 256 ^ width % 256 := by
      rw [split, Nat.mul_assoc, Nat.mod_mul_right_div_self, Nat.mod_mul_right_mod]
    have same : UInt8.ofNat (n % 256 ^ above / 256 ^ width) = UInt8.ofNat (n / 256 ^ width) := by
      apply UInt8.toNat_inj.1
      rw [UInt8.toNat_ofNat', UInt8.toNat_ofNat']
      exact digit
    rw [bigEndian, bigEndian, ih (by omega)]
    exact congrArg (· :: _) same

/-- Numbers within a width come in the order of their bytes. -/
theorem bigEndian_lt_iff {width a b : Nat} (left : a < 256 ^ width) (right : b < 256 ^ width) :
    bigEndian width a < bigEndian width b ↔ a < b := by
  induction width generalizing a b with
  | zero =>
    -- Of no width there is only zero.
    have zeros : a = 0 ∧ b = 0 := ⟨Nat.lt_one_iff.1 left, Nat.lt_one_iff.1 right⟩
    rw [zeros.1, zeros.2]
    exact iff_of_false (List.lt_irrefl _) (Nat.lt_irrefl _)
  | succ width ih =>
    have positive : 0 < 256 ^ width := Nat.pow_pos (by decide)
    -- The first digit decides, and where it is the same the others do.
    have first (n : Nat) (small : n < 256 ^ (width + 1)) :
        (UInt8.ofNat (n / 256 ^ width)).toNat = n / 256 ^ width := by
      rw [UInt8.toNat_ofNat']
      refine Nat.mod_eq_of_lt (Nat.div_lt_of_lt_mul ?_)
      rw [← Nat.pow_succ]
      exact small
    have others := ih (Nat.mod_lt a positive) (Nat.mod_lt b positive)
    rw [bigEndian_mod (Nat.le_refl _), bigEndian_mod (Nat.le_refl _)] at others
    change UInt8.ofNat (a / 256 ^ width) :: bigEndian width a <
      UInt8.ofNat (b / 256 ^ width) :: bigEndian width b ↔ a < b
    rw [List.cons_lt_cons_iff, others, UInt8.lt_iff_toNat_lt, ← UInt8.toNat_inj, first a left,
      first b right]
    -- A number is its first digit, scaled, and what the others make.
    have wholeLeft := Nat.div_add_mod a (256 ^ width)
    have wholeRight := Nat.div_add_mod b (256 ^ width)
    constructor
    · rintro (less | ⟨same, less⟩)
      · exact Nat.lt_of_not_le fun reversed => absurd (Nat.div_le_div_right reversed) (Nat.not_le.2 less)
      · rw [same] at wholeLeft
        omega
    · intro less
      -- Where the first digits are the same, the others make the difference.
      rcases Nat.lt_or_ge (a / 256 ^ width) (b / 256 ^ width) with digit | digit
      · exact .inl digit
      · have same := Nat.le_antisymm (Nat.div_le_div_right (Nat.le_of_lt less)) digit
        rw [same] at wholeLeft
        exact .inr ⟨same, by omega⟩

/-- Different numbers within a width have different bytes. -/
theorem bigEndian_injective {width a b : Nat} (left : a < 256 ^ width) (right : b < 256 ^ width)
    (same : bigEndian width a = bigEndian width b) : a = b := by
  -- Neither comes before the other.
  rcases Nat.lt_trichotomy a b with less | equal | less
  · exact absurd (same ▸ (bigEndian_lt_iff left right).2 less) (List.lt_irrefl _)
  · exact equal
  · exact absurd (same ▸ (bigEndian_lt_iff right left).2 less) (List.lt_irrefl _)

end KeyDispensary.Bytes
