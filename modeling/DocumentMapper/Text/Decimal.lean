import DocumentMapper.Text.Basic

/-
  Whole numbers in decimal notation.

  Key definitions include:
    * `Text.ofNat`
    * `Text.ofInt`
    * `Text.readNat?`
    * `Text.readInt?`
-/

namespace DocumentMapper

namespace Text

------------------------------------------------------------
-- Digits
------------------------------------------------------------

/- The bytes `0` to `9`. -/
def isDigit
    (b : UInt8) : Bool :=
  0x30 ≤ b ∧ b ≤ 0x39

/- The number that a digit byte stands for. -/
def digitValue
    (b : UInt8) : Nat :=
  b.toNat - 0x30

/-
  Read a run of digit bytes from the left, behind the number
  read so far.
-/
def appendDigits
    (n : Nat)
    (digits : Text) : Nat :=
  digits.foldl (fun n b => 10 * n + digitValue b) n

/- The number that a run of digit bytes stands for. -/
def natOfDigits
    (digits : Text) : Nat :=
  appendDigits 0 digits

------------------------------------------------------------
-- Writing
------------------------------------------------------------

/- The decimal digits of a natural number, without leading zeros. -/
def ofNat
    (n : Nat) : Text :=
  (Nat.toDigits 10 n).map fun c => c.toNat.toUInt8

/- The decimal form of an integer, with a minus sign below zero. -/
def ofInt
    (i : Int) : Text :=
  if i < 0 then
    lit "-" ++ ofNat i.natAbs
  else
    ofNat i.natAbs

------------------------------------------------------------
-- Reading
------------------------------------------------------------

/-
  The number written by a non-empty run of digits; leading
  zeros are allowed.
-/
def readNat?
    (s : Text) : Option Nat :=
  if s ≠ [] ∧ s.all isDigit then
    some (natOfDigits s)
  else
    none

/-
  A run of digits with at most one minus sign in front; a plus
  sign is refused.
-/
def readInt?
    (s : Text) : Option Int :=
  match s with
  | 0x2D :: digits => (readNat? digits).map fun n => -(n : Int)
  | digits => (readNat? digits).map Int.ofNat

end Text

end DocumentMapper
