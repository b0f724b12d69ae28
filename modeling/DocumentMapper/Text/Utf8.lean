import DocumentMapper.Text.Basic

/-
  Well-formed UTF-8.

  `Text.isUtf8` accepts exactly the encodings of Unicode
  scalar values: no overlong forms, no surrogates, nothing
  above U+10FFFF. `Text.ofScalar` writes one scalar value.

  Key definitions include:
    * `Text.isUtf8`
    * `Text.ofScalar`
-/

namespace DocumentMapper

namespace Text

------------------------------------------------------------
-- Byte Classes
------------------------------------------------------------

/- A byte that may follow the first byte of a longer encoding. -/
def isContinuation
    (b : UInt8) : Bool :=
  0x80 ≤ b ∧ b ≤ 0xBF

/- The first two bytes of an encoding of three bytes. -/
def opensThree
    (b₀ b₁ : UInt8) : Bool :=
  (b₀ = 0xE0 ∧ 0xA0 ≤ b₁ ∧ b₁ ≤ 0xBF) ∨
  (b₀ = 0xED ∧ 0x80 ≤ b₁ ∧ b₁ ≤ 0x9F) ∨
  (0xE1 ≤ b₀ ∧ b₀ ≤ 0xEF ∧ b₀ ≠ 0xED ∧ isContinuation b₁)

/- The first two bytes of an encoding of four bytes. -/
def opensFour
    (b₀ b₁ : UInt8) : Bool :=
  (b₀ = 0xF0 ∧ 0x90 ≤ b₁ ∧ b₁ ≤ 0xBF) ∨
  (b₀ = 0xF4 ∧ 0x80 ≤ b₁ ∧ b₁ ≤ 0x8F) ∨
  (0xF1 ≤ b₀ ∧ b₀ ≤ 0xF3 ∧ isContinuation b₁)

------------------------------------------------------------
-- Validity
------------------------------------------------------------

/- Every byte belongs to the encoding of one Unicode scalar value. -/
def isUtf8
    (s : Text) : Bool :=
  match s with
  | [] => true
  | b₀ :: s =>
      if b₀ < 0x80 then
        isUtf8 s
      else
        match s with
        | [] => false
        | b₁ :: s =>
            if 0xC2 ≤ b₀ ∧ b₀ ≤ 0xDF then
              isContinuation b₁ && isUtf8 s
            else
              match s with
              | [] => false
              | b₂ :: s =>
                  if opensThree b₀ b₁ then
                    isContinuation b₂ && isUtf8 s
                  else
                    match s with
                    | [] => false
                    | b₃ :: s =>
                        opensFour b₀ b₁ &&
                          isContinuation b₂ &&
                          isContinuation b₃ &&
                          isUtf8 s

------------------------------------------------------------
-- Writing
------------------------------------------------------------

/- The UTF-8 encoding of one scalar value, given as a number. -/
def ofScalar
    (n : Nat) : Text :=
  if n < 0x80 then
    [n.toUInt8]
  else if n < 0x800 then
    [(0xC0 + n / 0x40).toUInt8,
     (0x80 + n % 0x40).toUInt8]
  else if n < 0x10000 then
    [(0xE0 + n / 0x1000).toUInt8,
     (0x80 + n / 0x40 % 0x40).toUInt8,
     (0x80 + n % 0x40).toUInt8]
  else
    [(0xF0 + n / 0x40000).toUInt8,
     (0x80 + n / 0x1000 % 0x40).toUInt8,
     (0x80 + n / 0x40 % 0x40).toUInt8,
     (0x80 + n % 0x40).toUInt8]

end Text

end DocumentMapper
