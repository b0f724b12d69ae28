import Mathlib.Algebra.Group.Int.Defs
import Mathlib.Algebra.Group.Nat.Defs

/-
  Words as numbers, with a sign and without one.

  The same bits are read in two ways. They agree on the lower
  half of the words; the upper half is negative with a sign.

  Main statements include:
    * `toInt_toInt64`, `toInt_toInt32`
    * `toNat_toUInt64`
-/

namespace DocumentMapper

/- The signed word of an unsigned one: the upper half is negative. -/
theorem toInt_toInt64
    (m : UInt64) :
    m.toInt64.toInt =
      if m.toNat < 2 ^ 63 then
        (m.toNat : Int)
      else
        (m.toNat : Int) - 2 ^ 64 := by
  show m.toBitVec.toInt = _
  rw [BitVec.toInt_eq_toNat_cond, UInt64.toNat_toBitVec]
  split <;> split <;> omega

/- So it is for short words. -/
theorem toInt_toInt32
    (m : UInt32) :
    m.toInt32.toInt =
      if m.toNat < 2 ^ 31 then
        (m.toNat : Int)
      else
        (m.toNat : Int) - 2 ^ 32 := by
  show m.toBitVec.toInt = _
  rw [BitVec.toInt_eq_toNat_cond, UInt32.toNat_toBitVec]
  split <;> split <;> omega

/- The unsigned word of a signed one is its rest. -/
theorem toNat_toUInt64
    (n : Int64) :
    (n.toUInt64.toNat : Int) = n.toInt % 2 ^ 64 := by
  have hBound := n.toUInt64.toNat_lt
  have hSigned := toInt_toInt64 n.toUInt64
  rw [Int64.toInt64_toUInt64] at hSigned
  rw [hSigned]
  split <;> omega

end DocumentMapper
