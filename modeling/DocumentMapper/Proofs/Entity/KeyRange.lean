import DocumentMapper.Proofs.Entity.Layout
import DocumentMapper.Proofs.Number.Words

/-
  Which transaction keys a member can hold.

  A key that is given to a member is cut to the type of the
  member, and nobody is told. What is read back is the rest
  that is left of the key. A positive key comes back exactly if
  it is at most the greatest value of the type; members of 64
  bits and optional numbers have room for all keys.

  Key definitions include:
    * `KeyType.greatest`
    * `KeyType.cut`
    * `Descriptor.HasRoom`

  Main statements include:
    * `KeyType.exists_key_ofKey`
    * `KeyType.cut_eq_iff`
    * `KeyType.key_ofKey_eq_iff`
    * `Descriptor.keyOf_withKey_eq_iff`
-/

namespace DocumentMapper

namespace KeyType

variable {type : KeyType}
variable {key : Int64}

------------------------------------------------------------
-- Members
------------------------------------------------------------

/- The greatest key that a member of the type can hold. -/
def greatest : KeyType → Int64
  | .bool => 1
  | .int8 => 127
  | .uint8 => 255
  | .int16 => 32767
  | .uint16 => 65535
  | .int32 => 2147483647
  | .uint32 => 4294967295
  | .int64 => .maxValue
  | .uint64 => .maxValue
  | .optionalInt64 => .maxValue

/- What is left of a number in a member of the type. -/
def cut
    (type : KeyType)
    (n : Int) : Int :=
  match type with
  | .bool => if n = 0 then 0 else 1
  | .int8 => n.bmod (2 ^ 8)
  | .uint8 => n % 2 ^ 8
  | .int16 => n.bmod (2 ^ 16)
  | .uint16 => n % 2 ^ 16
  | .int32 => n.bmod (2 ^ 32)
  | .uint32 => n % 2 ^ 32
  | .int64 => n
  | .uint64 => n
  | .optionalInt64 => n

/- A member reads back what is left of the key in it. -/
theorem exists_key_ofKey
    (type : KeyType)
    (key : Int64) :
    ∃ read,
      type.key (type.ofKey key) = some read ∧
        read.toInt = type.cut key.toInt := by
  have hWord := toNat_toUInt64 key
  cases type with
  | bool =>
      refine ⟨_, rfl, ?_⟩
      by_cases hZero : key = 0
      · subst hZero
        rfl
      · have hInt : key.toInt ≠ 0 := by
          rw [← Int64.toInt_zero, ne_eq, Int64.toInt_inj]
          exact hZero
        simp [ofKey, cut, hZero, hInt]
  | int8 =>
      refine ⟨_, rfl, ?_⟩
      show key.toInt8.toInt32.toInt64.toInt = _
      rw [Int32.toInt_toInt64, Int8.toInt_toInt32,
        Int64.toInt_toInt8]
      rfl
  | uint8 =>
      refine ⟨_, rfl, ?_⟩
      show key.toUInt64.toUInt8.toUInt32.toInt32.toInt64.toInt = _
      rw [Int32.toInt_toInt64, toInt_toInt32,
        UInt8.toNat_toUInt32, UInt64.toNat_toUInt8,
        if_pos (by omega), cut]
      omega
  | int16 =>
      refine ⟨_, rfl, ?_⟩
      show key.toInt16.toInt32.toInt64.toInt = _
      rw [Int32.toInt_toInt64, Int16.toInt_toInt32,
        Int64.toInt_toInt16]
      rfl
  | uint16 =>
      refine ⟨_, rfl, ?_⟩
      show key.toUInt64.toUInt16.toUInt32.toInt32.toInt64.toInt = _
      rw [Int32.toInt_toInt64, toInt_toInt32,
        UInt16.toNat_toUInt32, UInt64.toNat_toUInt16,
        if_pos (by omega), cut]
      omega
  | int32 =>
      refine ⟨_, rfl, ?_⟩
      show key.toInt32.toInt64.toInt = _
      rw [Int32.toInt_toInt64, Int64.toInt_toInt32]
      rfl
  | uint32 =>
      refine ⟨_, rfl, ?_⟩
      show key.toUInt64.toUInt32.toUInt64.toInt64.toInt = _
      rw [toInt_toInt64, UInt32.toNat_toUInt64,
        UInt64.toNat_toUInt32, if_pos (by omega), cut]
      omega
  | int64 => exact ⟨key, rfl, rfl⟩
  | uint64 =>
      refine ⟨key, ?_, rfl⟩
      exact congrArg some key.toInt64_toUInt64
  | optionalInt64 => exact ⟨key, rfl, rfl⟩

/- A positive number is left whole exactly if it is small enough. -/
theorem cut_eq_iff
    {n : Int}
    (hPos : 0 < n)
    (hBound : n < 2 ^ 63) :
    type.cut n = n ↔ n ≤ type.greatest.toInt := by
  have hMost : Int64.maxValue.toInt = 2 ^ 63 - 1 := by decide
  cases type <;>
    simp [cut, greatest, Int.bmod_def, hMost] <;>
    omega

/- A member reads back the positive keys up to its greatest one. -/
theorem key_ofKey_eq_iff
    (hPos : 0 < key) :
    type.key (type.ofKey key) = some key ↔
      key ≤ type.greatest := by
  rcases exists_key_ofKey type key with ⟨read, hRead, hInt⟩
  have hPosInt : 0 < key.toInt := Int64.lt_iff_toInt_lt.mp hPos
  rw [hRead, Option.some.injEq, ← Int64.toInt_inj, hInt,
    cut_eq_iff hPosInt key.toInt_lt, Int64.le_iff_toInt_le]

end KeyType

------------------------------------------------------------
-- Fields for Keys
------------------------------------------------------------

namespace Descriptor

variable {S : Schema}
variable {d : Descriptor S}
variable {key : Int64}

/- The key has a member, which is wide enough for it. -/
def HasRoom
    (d : Descriptor S)
    (key : Int64) : Prop :=
  ∃ b, d.key? = some b ∧ key ≤ b.type.greatest

/- What an entity has of a key is left to the type of its member. -/
theorem keyOf_withKey
    {b : KeyBinding S}
    (hKey : d.key? = some b)
    (e : Entity S)
    (key : Int64) :
    d.keyOf (d.withKey e key) = b.type.key (b.type.ofKey key) := by
  unfold keyOf withKey
  rw [hKey]
  exact congrArg b.type.key (Entity.get_put _ _ _)

/- An entity has a key that it is given if there is room for it. -/
theorem keyOf_withKey_eq_iff
    (hPos : 0 < key)
    (e : Entity S) :
    d.keyOf (d.withKey e key) = some key ↔ d.HasRoom key := by
  cases hKey : d.key? with
  | none =>
      have hNone : d.keyOf (d.withKey e key) = none := by
        unfold keyOf
        rw [hKey]
        rfl
      simp [hNone, HasRoom, hKey]
  | some b =>
      rw [keyOf_withKey hKey, KeyType.key_ofKey_eq_iff hPos]
      simp [HasRoom, hKey]

end Descriptor

end DocumentMapper
