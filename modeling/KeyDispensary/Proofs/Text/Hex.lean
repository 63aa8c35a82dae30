import KeyDispensary.Text.Hex
import Mathlib

/-!
Digits of either case read back as the bytes they were written for, and bytes are in the order of their
digits. Main statements: `Hex.decode?_eq_some_iff` and `Hex.encode_lt_iff`.
-/

namespace KeyDispensary

/-- Of two lists that begin with as many elements each, these decide first. -/
theorem append_lt_append_iff {α : Type} [LT α] {left right rest rest' : List α}
    (same : left.length = right.length) :
    left ++ rest < right ++ rest' ↔ left < right ∨ left = right ∧ rest < rest' := by
  induction left generalizing right with
  | nil =>
    -- Both beginnings are empty, so what follows is all there is.
    obtain rfl := List.eq_nil_of_length_eq_zero same.symm
    simp
  | cons first left ih =>
    cases right with
    | nil => cases same
    | cons first' right =>
      -- The first elements decide, and otherwise the beginnings that are left.
      have further : left ++ rest < right ++ rest' ↔ left < right ∨ left = right ∧ rest < rest' :=
        ih (Nat.succ.inj same)
      rw [List.cons_append, List.cons_append, List.cons_lt_cons_iff, List.cons_lt_cons_iff, further,
        List.cons.injEq]
      grind

namespace Hex

/-! ### Single digits -/

/-- The code of a digit. -/
theorem toNat_digit {n : Nat} (small : n < 16) :
    (digit n).toNat = if n < 10 then 48 + n else 87 + n := by
  -- Sixteen digits, each with a code of its own.
  rcases n with _ | _ | _ | _ | _ | _ | _ | _ | _ | _ | _ | _ | _ | _ | _ | _ | n
  all_goals first | rfl | omega

/-- The code of a character in lower case. -/
theorem toNat_toLower (c : Char) :
    c.toLower.toNat = if 65 ≤ c.toNat ∧ c.toNat ≤ 90 then c.toNat + 32 else c.toNat := by
  rw [Char.toLower]
  split
  · next capital =>
    have first : 65 ≤ c.toNat := UInt32.le_iff_toNat_le.1 capital.1
    have last : c.toNat ≤ 90 := UInt32.le_iff_toNat_le.1 capital.2
    -- The codes of capital letters are too small for the sum to wrap around.
    have sum : (c.val + 32).toNat = c.toNat + 32 := by
      rw [UInt32.toNat_add, Char.toNat_val]
      exact Nat.mod_eq_of_lt (by simp; omega)
    rw [if_pos ⟨first, last⟩]
    exact sum
  · next other =>
    -- Any other character is left as it is.
    have outside : ¬ (65 ≤ c.toNat ∧ c.toNat ≤ 90) := by
      rintro ⟨first, last⟩
      exact other ⟨UInt32.le_iff_toNat_le.2 first, UInt32.le_iff_toNat_le.2 last⟩
    rw [if_neg outside]

/-- The value of a character is known from its code. -/
theorem value?_eq (c : Char) : value? c =
    if 48 ≤ c.toNat ∧ c.toNat ≤ 57 then some (c.toNat - 48)
    else if 97 ≤ c.toNat ∧ c.toNat ≤ 102 then some (c.toNat - 87)
    else if 65 ≤ c.toNat ∧ c.toNat ≤ 70 then some (c.toNat - 55)
    else none := by
  -- Characters are in the order of their codes.
  simp only [value?, Char.le_def, UInt32.le_iff_toNat_le, Char.toNat_val]
  rfl

/-- A character has a value exactly if it is the digit of that value in either case. -/
theorem value?_eq_some_iff {c : Char} {n : Nat} :
    value? c = some n ↔ n < 16 ∧ c.toLower = digit n := by
  constructor
  · intro valued
    -- The value of a character is told by the range in which its code lies.
    rw [value?_eq] at valued
    have small : n < 16 := by grind
    refine ⟨small, ?_⟩
    -- Both characters have one code.
    rw [← Char.toNat_inj, toNat_toLower, toNat_digit small]
    grind
  · rintro ⟨small, lower⟩
    rw [← Char.toNat_inj, toNat_toLower, toNat_digit small] at lower
    rw [value?_eq]
    grind

/-- Digits are in lower case. -/
theorem lower_digit {n : Nat} (small : n < 16) : (digit n).toLower = digit n := by
  -- No digit has the code of a capital letter.
  rw [← Char.toNat_inj, toNat_toLower, toNat_digit small]
  grind

/-- Digits are in the order of their values. -/
theorem digit_lt_iff {m n : Nat} (small : m < 16) (small' : n < 16) :
    digit m < digit n ↔ m < n := by
  -- The digits are compared by their codes, which ascend with the numbers.
  rw [Char.lt_def, UInt32.lt_iff_toNat_lt, Char.toNat_val, Char.toNat_val, toNat_digit small,
    toNat_digit small']
  grind

/-- Different values have different digits. -/
theorem digit_inj {m n : Nat} (small : m < 16) (small' : n < 16) :
    digit m = digit n ↔ m = n := by
  rw [← Char.toNat_inj, toNat_digit small, toNat_digit small']
  grind

/-! ### Bytes -/

/-- The two digits of a byte have values below sixteen, which make up the byte. -/
theorem halves (byte : UInt8) :
    byte.toNat / 16 < 16 ∧ byte.toNat % 16 < 16 ∧
      16 * (byte.toNat / 16) + byte.toNat % 16 = byte.toNat := by
  have := byte.toNat_lt
  omega

/-- A byte that is made up of two halves has them for its digits. -/
theorem pair_ofNat {high low : Nat} (small : high < 16) (small' : low < 16) :
    pair (UInt8.ofNat (16 * high + low)) = [digit high, digit low] := by
  -- Two digits are no more than a byte can hold.
  have number : (UInt8.ofNat (16 * high + low)).toNat = 16 * high + low := by
    rw [UInt8.toNat_ofNat']
    exact Nat.mod_eq_of_lt (by omega)
  rw [pair, number, show (16 * high + low) / 16 = high by omega,
    show (16 * high + low) % 16 = low by omega]

/-- Digits of bytes that begin with two characters begin with the digits of the first byte. -/
theorem halves_of_lower {high low : Char} {rest : List Char} {bytes : Bytes}
    (lower : (high :: low :: rest).map Char.toLower = encode bytes) :
    ∃ byte others, bytes = byte :: others ∧ value? high = some (byte.toNat / 16) ∧
      value? low = some (byte.toNat % 16) ∧ rest.map Char.toLower = encode others := by
  cases bytes with
  | nil => cases lower
  | cons byte others =>
    -- Each half of the byte is small enough to be a digit.
    obtain ⟨small, small', _⟩ := halves byte
    -- The digits of the first byte come first, and those of the other bytes follow.
    have digits : high.toLower :: low.toLower :: rest.map Char.toLower =
        digit (byte.toNat / 16) :: digit (byte.toNat % 16) :: encode others := lower
    obtain ⟨first, digits⟩ := List.cons.inj digits
    obtain ⟨second, digits⟩ := List.cons.inj digits
    exact ⟨byte, others, rfl, value?_eq_some_iff.2 ⟨small, first⟩,
      value?_eq_some_iff.2 ⟨small', second⟩, digits⟩

/-- Digits are read as some bytes exactly if they are the digits of these bytes in either case. -/
theorem decode?_eq_some_iff {digits : List Char} {bytes : Bytes} :
    decode? digits = some bytes ↔ digits.map Char.toLower = encode bytes := by
  -- Two digits at a time are read, and the rest of the text follows.
  fun_induction decode? digits generalizing bytes with
  | case1 =>
    -- No digits stand for no bytes.
    cases bytes with
    | nil => simp [encode]
    | cons byte bytes => simp [encode, pair]
  | case2 =>
    -- One digit is half a byte.
    cases bytes with
    | nil => simp [encode]
    | cons byte bytes => simp [encode, pair]
  | case3 high low rest h l others decoded value' value ih =>
    constructor
    · intro same
      obtain rfl := Option.some.inj same
      obtain ⟨small, lower⟩ := value?_eq_some_iff.1 value
      obtain ⟨small', lower'⟩ := value?_eq_some_iff.1 value'
      have written : encode (UInt8.ofNat (16 * h + l) :: others) =
          [digit h, digit l] ++ encode others := by
        rw [← pair_ofNat small small']
        rfl
      rw [written, List.map_cons, List.map_cons, lower, lower', ih.1 decoded]
      rfl
    · intro lower
      obtain ⟨byte, bytes, rfl, first, second, digits⟩ := halves_of_lower lower
      -- What is read are the halves of the first byte and all others.
      obtain rfl := Option.some.inj (value.symm.trans first)
      obtain rfl := Option.some.inj (value'.symm.trans second)
      obtain rfl := Option.some.inj (decoded.symm.trans (ih.2 digits))
      obtain ⟨_, _, whole⟩ := halves byte
      rw [whole, UInt8.ofNat_toNat]
  | case4 high low rest refused ih =>
    refine iff_of_false (by simp) ?_
    intro lower
    -- Digits of bytes are not refused.
    obtain ⟨byte, others, rfl, first, second, digits⟩ := halves_of_lower lower
    exact refused _ _ _ first second (ih.2 digits)

/-- Each byte is written with two digits. -/
theorem length_encode (bytes : Bytes) : (encode bytes).length = 2 * bytes.length := by
  -- The induction is on the bytes, each of which adds its pair.
  induction bytes with
  | nil => rfl
  | cons byte bytes ih =>
    have written : (encode (byte :: bytes)).length = 2 + (encode bytes).length :=
      List.length_append
    rw [written, ih, List.length_cons]
    omega

/-- Digits are written in lower case. -/
theorem lower_encode (bytes : Bytes) : (encode bytes).map Char.toLower = encode bytes := by
  -- Both digits of every byte are in lower case.
  induction bytes with
  | nil => rfl
  | cons byte bytes ih =>
    obtain ⟨small, small', _⟩ := halves byte
    have written : encode (byte :: bytes) = pair byte ++ encode bytes := rfl
    rw [written, List.map_append, ih, pair, List.map_cons, List.map_cons, lower_digit small,
      lower_digit small', List.map_nil]

/-- Bytes are in the order of their digits. -/
theorem pair_lt_iff {left right : UInt8} : pair left < pair right ↔ left < right := by
  -- The first digits decide, and where they are the same the second ones do.
  obtain ⟨small, small', whole⟩ := halves left
  obtain ⟨other, other', whole'⟩ := halves right
  rw [pair, pair, List.cons_lt_cons_iff, List.cons_lt_cons_iff, digit_lt_iff small other,
    digit_inj small other, digit_lt_iff small' other', UInt8.lt_iff_toNat_lt]
  simp only [List.lt_irrefl, and_false, or_false]
  omega

/-- Different bytes have different digits. -/
theorem pair_inj {left right : UInt8} : pair left = pair right ↔ left = right := by
  -- A byte is known from its two halves.
  obtain ⟨small, small', whole⟩ := halves left
  obtain ⟨other, other', whole'⟩ := halves right
  rw [pair, pair, List.cons.injEq, List.cons.injEq, digit_inj small other, digit_inj small' other',
    ← UInt8.toNat_inj]
  simp only [and_true]
  omega

/-- Byte strings are in the order of their digits. -/
theorem encode_lt_iff {left right : Bytes} : encode left < encode right ↔ left < right := by
  induction left generalizing right with
  | nil =>
    -- Nothing comes before anything else.
    cases right with
    | nil => exact iff_of_false (List.lt_irrefl _) (List.lt_irrefl _)
    | cons byte bytes => exact iff_of_true (List.nil_lt_cons _ _) (List.nil_lt_cons _ _)
  | cons byte bytes ih =>
    cases right with
    | nil => exact iff_of_false (List.not_lt_nil _) (List.not_lt_nil _)
    | cons byte' bytes' =>
      -- The first bytes decide, or else the others.
      change pair byte ++ encode bytes < pair byte' ++ encode bytes' ↔ _
      have same : (pair byte).length = (pair byte').length := rfl
      rw [append_lt_append_iff same, pair_lt_iff, pair_inj, ih, List.cons_lt_cons_iff]

end Hex

end KeyDispensary
