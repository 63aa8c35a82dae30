import KeyDispensary.Bytes

/-! UTF-8: the characters that bytes encode, and how far bytes that encode none are sound. -/

namespace KeyDispensary.Utf8

/-- Whether a byte continues a character of several bytes. -/
def continues (byte : UInt8) : Bool :=
  0x80 ≤ byte.toNat && byte.toNat ≤ 0xBF

/-- The character of two bytes that is not shorter in another form. -/
def pair? (a b : UInt8) : Option Char :=
  if 0xC2 ≤ a.toNat ∧ a.toNat ≤ 0xDF ∧ continues b then
    some (Char.ofNat ((a.toNat - 0xC0) * 64 + (b.toNat - 0x80)))
  else none

/-- The character of three bytes that is not shorter in another form and no surrogate. -/
def triple? (a b c : UInt8) : Option Char :=
  let code := (a.toNat - 0xE0) * 4096 + (b.toNat - 0x80) * 64 + (c.toNat - 0x80)
  if 0xE0 ≤ a.toNat ∧ a.toNat ≤ 0xEF ∧ continues b ∧ continues c ∧ 0x800 ≤ code ∧
      (code < 0xD800 ∨ 0xDFFF < code) then
    some (Char.ofNat code)
  else none

/-- The character of four bytes that is not shorter in another form and within range. -/
def quadruple? (a b c d : UInt8) : Option Char :=
  let code := (a.toNat - 0xF0) * 262144 + (b.toNat - 0x80) * 4096 + (c.toNat - 0x80) * 64 +
    (d.toNat - 0x80)
  if 0xF0 ≤ a.toNat ∧ a.toNat ≤ 0xF4 ∧ continues b ∧ continues c ∧ continues d ∧
      0x10000 ≤ code ∧ code ≤ 0x10FFFF then
    some (Char.ofNat code)
  else none

/-- The characters that bytes begin with, and the bytes from the first fault on. -/
def scan : Bytes → List Char × Bytes
  | [] => ([], [])
  | a :: rest =>
    if a.toNat < 0x80 then
      let (chars, left) := scan rest
      (Char.ofNat a.toNat :: chars, left)
    else
      match rest with
      | [] => ([], [a])
      | b :: rest₂ =>
        match pair? a b with
        | some c =>
          let (chars, left) := scan rest₂
          (c :: chars, left)
        | none =>
          match rest₂ with
          | [] => ([], [a, b])
          | c :: rest₃ =>
            match triple? a b c with
            | some char =>
              let (chars, left) := scan rest₃
              (char :: chars, left)
            | none =>
              match rest₃ with
              | [] => ([], [a, b, c])
              | d :: rest₄ =>
                match quadruple? a b c d with
                | some char =>
                  let (chars, left) := scan rest₄
                  (char :: chars, left)
                | none => ([], a :: b :: c :: d :: rest₄)

/-- The text that bytes encode, or how many bytes stand before the end from the first fault on. -/
def decode (bytes : Bytes) : Except Nat String :=
  match scan bytes with
  | (chars, []) => .ok (String.ofList chars)
  | (_, left) => .error left.length

end KeyDispensary.Utf8
