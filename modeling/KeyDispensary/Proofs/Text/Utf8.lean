import KeyDispensary.Text.Utf8
import Mathlib.Tactic.Common

/-!
The UTF-8 bytes of a text stand for that text. Main statement: `Utf8.decode_ofText`.
-/

namespace KeyDispensary.Utf8

/-! ### The bytes of a character -/

section Encoding

variable {c : Char}

/-- No character is a surrogate or lies past the last code point. -/
theorem valid_code (c : Char) : c.toNat < 55296 ∨ 57343 < c.toNat ∧ c.toNat < 1114112 :=
  c.valid

/-- A character below 128 is written as one byte, its code. -/
theorem encode_one (below : c.toNat < 128) :
    String.utf8EncodeChar c = [UInt8.ofNat c.toNat] := by
  -- Its code is in the first of the four ranges.
  have range : c.val.toNat ≤ 127 := Nat.le_of_lt_succ below
  simp only [String.utf8EncodeChar, if_pos range]
  rfl

/-- A character below 2048 is written as two bytes, with its last six bits in the second. -/
theorem encode_two (from128 : 128 ≤ c.toNat) (below : c.toNat < 2048) : String.utf8EncodeChar c =
    [UInt8.ofNat (c.toNat / 64 + 192), UInt8.ofNat (c.toNat % 64 + 128)] := by
  -- The leading byte is not cut, since the code is below the range of the next form.
  have range : ¬ c.val.toNat ≤ 127 ∧ c.val.toNat ≤ 2047 := ⟨Nat.not_le.2 from128, Nat.le_of_lt_succ below⟩
  have first : c.toNat / 64 % 32 = c.toNat / 64 := by omega
  simp only [String.utf8EncodeChar, if_neg range.1, if_pos range.2]
  rw [← first]
  rfl

/-- A character below 65536 is written as three bytes, with six bits in each after the first. -/
theorem encode_three (from2048 : 2048 ≤ c.toNat) (below : c.toNat < 65536) :
    String.utf8EncodeChar c = [UInt8.ofNat (c.toNat / 4096 + 224),
      UInt8.ofNat (c.toNat / 64 % 64 + 128), UInt8.ofNat (c.toNat % 64 + 128)] := by
  -- The code is past the ranges of the shorter forms.
  have range : ¬ c.val.toNat ≤ 127 ∧ ¬ c.val.toNat ≤ 2047 ∧ c.val.toNat ≤ 65535 := by
    change ¬ c.toNat ≤ 127 ∧ ¬ c.toNat ≤ 2047 ∧ c.toNat ≤ 65535
    omega
  -- The leading byte is not cut.
  have first : c.toNat / 4096 % 16 = c.toNat / 4096 := by omega
  simp only [String.utf8EncodeChar, if_neg range.1, if_neg range.2.1, if_pos range.2.2]
  rw [← first]
  rfl

/-- Any other character is written as four bytes, with six bits in each after the first. -/
theorem encode_four (from65536 : 65536 ≤ c.toNat) : String.utf8EncodeChar c =
    [UInt8.ofNat (c.toNat / 262144 + 240), UInt8.ofNat (c.toNat / 4096 % 64 + 128),
      UInt8.ofNat (c.toNat / 64 % 64 + 128), UInt8.ofNat (c.toNat % 64 + 128)] := by
  -- The code is past the ranges of all shorter forms.
  have range : ¬ c.val.toNat ≤ 127 ∧ ¬ c.val.toNat ≤ 2047 ∧ ¬ c.val.toNat ≤ 65535 := by
    change ¬ c.toNat ≤ 127 ∧ ¬ c.toNat ≤ 2047 ∧ ¬ c.toNat ≤ 65535
    omega
  -- The leading byte is not cut, since there are no codes past the last one.
  have last := valid_code c
  have first : c.toNat / 262144 % 8 = c.toNat / 262144 := by omega
  simp only [String.utf8EncodeChar, if_neg range.1, if_neg range.2.1, if_neg range.2.2]
  rw [← first]
  rfl

/-- Of a character that takes several bytes, each has its highest bit set. -/
theorem high_of_mem (from128 : 128 ≤ c.toNat) {b : UInt8} (member : b ∈ String.utf8EncodeChar c) :
    128 ≤ b.toNat := by
  have last := valid_code c
  -- The bytes of each range are a leading byte from 192 on and bytes from 128 to 191.
  have high (n : Nat) (low : 128 ≤ n) (small : n < 256) : 128 ≤ (UInt8.ofNat n).toNat := by
    rwa [UInt8.toNat_ofNat', Nat.mod_eq_of_lt small]
  -- Each range has its own number of bytes.
  rcases Nat.lt_or_ge c.toNat 2048 with below | from2048
  · rw [encode_two from128 below] at member
    simp only [List.mem_cons, List.not_mem_nil, or_false] at member
    rcases member with rfl | rfl <;> exact high _ (by omega) (by omega)
  · rcases Nat.lt_or_ge c.toNat 65536 with below | from65536
    · rw [encode_three from2048 below] at member
      simp only [List.mem_cons, List.not_mem_nil, or_false] at member
      rcases member with rfl | rfl | rfl <;> exact high _ (by omega) (by omega)
    · rw [encode_four from65536] at member
      simp only [List.mem_cons, List.not_mem_nil, or_false] at member
      rcases member with rfl | rfl | rfl | rfl <;> exact high _ (by omega) (by omega)

end Encoding

/-! ### Reading characters -/

/-- A byte holds a small number as it is. -/
theorem toNat_ofNat_small {n : Nat} (small : n < 256) : (UInt8.ofNat n).toNat = n := by
  rw [UInt8.toNat_ofNat', Nat.mod_eq_of_lt small]

/-- Six bits of a character make a byte that continues it. -/
theorem continues_bits {n : Nat} (small : n < 64) : continues (UInt8.ofNat (n + 128)) = true := by
  -- The two highest bits of the byte say that it continues a character.
  rw [continues, toNat_ofNat_small (by omega)]
  simp
  omega

/-- The two bytes of a character are read as that character. -/
theorem pair?_encode {c : Char} (from128 : 128 ≤ c.toNat) (below : c.toNat < 2048) :
    pair? (UInt8.ofNat (c.toNat / 64 + 192)) (UInt8.ofNat (c.toNat % 64 + 128)) = some c := by
  -- Taking the marks off the bytes leaves the parts of the code.
  have code : (c.toNat / 64 + 192 - 0xC0) * 64 + (c.toNat % 64 + 128 - 0x80) = c.toNat := by omega
  rw [pair?, toNat_ofNat_small (by omega), toNat_ofNat_small (by omega), code, Char.ofNat_toNat,
    if_pos ⟨by omega, by omega, continues_bits (by omega)⟩]

/-- The three bytes of a character are read as that character. -/
theorem triple?_encode {c : Char} (from2048 : 2048 ≤ c.toNat) (below : c.toNat < 65536) :
    triple? (UInt8.ofNat (c.toNat / 4096 + 224)) (UInt8.ofNat (c.toNat / 64 % 64 + 128))
      (UInt8.ofNat (c.toNat % 64 + 128)) = some c := by
  have valid := valid_code c
  have code : (c.toNat / 4096 + 224 - 0xE0) * 4096 + (c.toNat / 64 % 64 + 128 - 0x80) * 64 +
      (c.toNat % 64 + 128 - 0x80) = c.toNat := by omega
  -- The code is none that a shorter form or a surrogate would have.
  simp only [triple?]
  rw [toNat_ofNat_small (by omega), toNat_ofNat_small (by omega), toNat_ofNat_small (by omega),
    code, Char.ofNat_toNat, if_pos ⟨by omega, by omega, continues_bits (by omega),
      continues_bits (by omega), by omega, by omega⟩]

/-- The four bytes of a character are read as that character. -/
theorem quadruple?_encode {c : Char} (from65536 : 65536 ≤ c.toNat) :
    quadruple? (UInt8.ofNat (c.toNat / 262144 + 240)) (UInt8.ofNat (c.toNat / 4096 % 64 + 128))
      (UInt8.ofNat (c.toNat / 64 % 64 + 128)) (UInt8.ofNat (c.toNat % 64 + 128)) = some c := by
  have valid := valid_code c
  have code : (c.toNat / 262144 + 240 - 0xF0) * 262144 + (c.toNat / 4096 % 64 + 128 - 0x80) * 4096 +
      (c.toNat / 64 % 64 + 128 - 0x80) * 64 + (c.toNat % 64 + 128 - 0x80) = c.toNat := by omega
  -- The code is none that a shorter form would have, and is not past the last one.
  simp only [quadruple?]
  rw [toNat_ofNat_small (by omega), toNat_ofNat_small (by omega), toNat_ofNat_small (by omega),
    toNat_ofNat_small (by omega), code, Char.ofNat_toNat, if_pos ⟨by omega, by omega,
      continues_bits (by omega), continues_bits (by omega), continues_bits (by omega), by omega, by omega⟩]

/-- A leading byte past the range of two bytes begins no character of two. -/
theorem pair?_of_past {a : UInt8} (past : 0xDF < a.toNat) (b : UInt8) : pair? a b = none :=
  if_neg fun within => by omega

/-- A leading byte past the range of three bytes begins no character of three. -/
theorem triple?_of_past {a : UInt8} (past : 0xEF < a.toNat) (b c : UInt8) : triple? a b c = none :=
  if_neg fun within => by omega

/-- The bytes of a character are read as that character. -/
theorem scan_encode (c : Char) (rest : Bytes) :
    scan (String.utf8EncodeChar c ++ rest) = (c :: (scan rest).1, (scan rest).2) := by
  have valid := valid_code c
  -- The leading byte tells how many bytes the character takes.
  rcases Nat.lt_or_ge c.toNat 128 with below | from128
  · rw [encode_one below, List.singleton_append, scan.eq_def]
    simp only [toNat_ofNat_small (Nat.lt_trans below (by decide)), if_pos below, Char.ofNat_toNat]
  rcases Nat.lt_or_ge c.toNat 2048 with below | from2048
  · -- The leading byte is past the bytes that stand alone.
    have leads : ¬ (UInt8.ofNat (c.toNat / 64 + 192)).toNat < 0x80 := by
      rw [toNat_ofNat_small (by omega)]
      omega
    rw [encode_two from128 below, scan.eq_def]
    simp only [List.cons_append, List.nil_append, if_neg leads, pair?_encode from128 below]
  rcases Nat.lt_or_ge c.toNat 65536 with below | from65536
  · -- The leading byte is past those of two bytes.
    have leads : 0xDF < (UInt8.ofNat (c.toNat / 4096 + 224)).toNat := by
      rw [toNat_ofNat_small (by omega)]
      omega
    rw [encode_three from2048 below, scan.eq_def]
    simp only [List.cons_append, List.nil_append,
      if_neg (Nat.not_lt.2 (Nat.le_trans (by decide : 0x80 ≤ 0xDF + 1) leads)),
      pair?_of_past leads, triple?_encode from2048 below]
  · -- The leading byte is past those of three bytes.
    have leads : 0xEF < (UInt8.ofNat (c.toNat / 262144 + 240)).toNat := by
      rw [toNat_ofNat_small (by omega)]
      omega
    rw [encode_four from65536, scan.eq_def]
    simp only [List.cons_append, List.nil_append,
      if_neg (Nat.not_lt.2 (Nat.le_trans (by decide : 0x80 ≤ 0xEF + 1) leads)),
      pair?_of_past (Nat.lt_trans (by decide : 0xDF < 0xEF) leads), triple?_of_past leads,
      quadruple?_encode from65536]

/-- The bytes of characters are read as these characters, and none is left. -/
theorem scan_ofChars (chars : List Char) : scan (Bytes.ofChars chars) = (chars, []) := by
  -- Character after character is read off the front.
  induction chars with
  | nil => rfl
  | cons c chars ih =>
    rw [Bytes.ofChars, List.flatMap_cons, scan_encode, ← Bytes.ofChars, ih]

/-- The bytes of characters stand for the text of these characters. -/
theorem decode_ofChars (chars : List Char) :
    decode (Bytes.ofChars chars) = .ok (String.ofList chars) := by
  simp only [decode, scan_ofChars]

/-- The bytes of a text stand for that text. -/
theorem decode_ofText (text : String) : decode (Bytes.ofText text) = .ok text := by
  rw [Bytes.ofText, decode_ofChars, String.ofList_toList]

end KeyDispensary.Utf8
