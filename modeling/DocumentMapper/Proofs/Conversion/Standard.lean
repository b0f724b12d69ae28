import DocumentMapper.Conversion.Standard
import DocumentMapper.Proofs.Conversion.RoundTrip
import DocumentMapper.Proofs.Number.Widening

/-
  The standard conversions read back what they write.

  Main statements include:
    * `Conversions.keeps_of_find?`
    * `Conversions.standard_readsBack`
-/

namespace DocumentMapper

namespace Conversions

variable {s : Conversions}
variable {t : FieldType}

------------------------------------------------------------
-- Registered Conversions
------------------------------------------------------------

/- A type is kept where its own conversion keeps it. -/
theorem keeps_of_find?
    {c : Conversion t}
    (hFind : s.find? t = some c)
    (hConstructible : t.isConstructible = true)
    (hKeeps :
      ∀ v j, s.Storable t v → c.write v = .ok j →
        j.Storable ∧
          ∃ w, c.read j.normal = .ok w ∧ t.Alike w v) :
    s.Keeps t := by
  intro v j hStorable hWrite
  rw [write_of_find? hFind] at hWrite
  rcases hKeeps v j hStorable hWrite with
    ⟨hKept, w, hRead, hAlike⟩
  refine ⟨hKept, w, ?_, hAlike⟩
  rw [read_of_find? hFind hConstructible, hRead]

/- Values that agree only with themselves are written alike. -/
theorem writesAlike_of_eq
    (hEq : ∀ v w, t.Alike w v → w = v) :
    s.WritesAlike t := by
  intro v w j hAlike hWrite
  rcases hEq v w hAlike with rfl
  exact ⟨j, hWrite, rfl⟩

------------------------------------------------------------
-- Whole Numbers
------------------------------------------------------------

/- A word in normal form is read as the word. -/
theorem read_int64_normal
    (n : Int64) :
    Conversion.int64.read (Json.signed n).normal = .ok n := by
  rw [Json.normal]
  split
  · rename_i hSign
    have hFits : ¬ Int64.maxValue.toUInt64 < n.toUInt64 := by
      have hHigh := n.toInt_lt
      have hMost :
          Int64.maxValue.toUInt64.toNat = 2 ^ 63 - 1 := by decide
      rw [UInt64.lt_iff_toNat_lt, hMost,
        Int64.toNat_toUInt64_of_le hSign]
      show ¬ 2 ^ 63 - 1 < n.toInt.toNat
      omega
    simp [Conversion.int64, hFits]
  · rfl

/- A short number is read from its 64-bit word. -/
theorem read_int32_of_asInt64?
    {n : Int32}
    {value : Json}
    (h : value.asInt64? = some n.toInt64) :
    Conversion.int32.read value = .ok n := by
  have hLeast : Int32.minValue.toInt64.toInt = -2 ^ 31 := by
    decide
  have hMost : Int32.maxValue.toInt64.toInt = 2 ^ 31 - 1 := by
    decide
  have hFits :
      ¬ (n.toInt64 < Int32.minValue.toInt64 ∨
        Int32.maxValue.toInt64 < n.toInt64) := by
    have hLow := n.le_toInt
    have hHigh := n.toInt_lt
    rw [Int64.lt_iff_toInt_lt, Int64.lt_iff_toInt_lt, hLeast,
      hMost, Int32.toInt_toInt64]
    omega
  simp only [Conversion.int32, h]
  rw [if_neg hFits, Int32.toInt32_toInt64]

/- A short number in normal form is read as the number. -/
theorem read_int32_normal
    (n : Int32) :
    Conversion.int32.read (Json.signed n.toInt64).normal =
      .ok n := by
  apply read_int32_of_asInt64?
  rw [Json.asInt64?_normal]
  rfl

/- Cutting an instant to milliseconds stays within the word. -/
theorem toInt_milliseconds_mul
    (n : Int64) :
    (Int64.ofInt (n.toInt.tdiv 1000000) * 1000000).toInt =
      n.toInt.tdiv 1000000 * 1000000 := by
  have hLow := n.le_toInt
  have hHigh := n.toInt_lt
  have hRange :
      -2 ^ 63 ≤ n.toInt.tdiv 1000000 * 1000000 ∧
        n.toInt.tdiv 1000000 * 1000000 < 2 ^ 63 := by
    rcases Int.le_total 0 n.toInt with hSign | hSign
    · rw [Int.tdiv_eq_ediv_of_nonneg hSign]
      omega
    · -- the quotient of the opposite number is rounded down
      have hOpposite : (-n.toInt).tdiv 1000000 = _ :=
        Int.tdiv_eq_ediv_of_nonneg (by omega)
      rw [Int.neg_tdiv] at hOpposite
      omega
  have hProduct :
      Int64.ofInt (n.toInt.tdiv 1000000) * 1000000 =
        Int64.ofInt (n.toInt.tdiv 1000000 * 1000000) := by
    rw [Int64.ofInt_mul]
    rfl
  rw [hProduct, Int64.toInt_ofInt_of_le hRange.1 hRange.2]

/- Whole milliseconds are read back to the nanosecond. -/
theorem read_time_normal
    {t : Instant}
    (h : 1000000 ∣ t.nanoseconds.toInt) :
    Conversion.time.read
        (Json.signed
          (Int64.ofInt
            (t.nanoseconds.toInt.tdiv 1000000))).normal =
      .ok t := by
  rcases t with ⟨nanoseconds⟩
  have hBack :
      Int64.ofInt (nanoseconds.toInt.tdiv 1000000) * 1000000 =
        nanoseconds := by
    rw [← Int64.toInt_inj, toInt_milliseconds_mul]
    exact Int.tdiv_mul_cancel h
  have hWord :
      (Json.signed
          (Int64.ofInt
            (nanoseconds.toInt.tdiv 1000000))).normal.asInt64? =
        some (Int64.ofInt (nanoseconds.toInt.tdiv 1000000)) := by
    rw [Json.asInt64?_normal]
    rfl
  simp only [Conversion.time, hWord, hBack]

/- Every standard conversion reads back what it wrote. -/
theorem standard_readsBack : standard.ReadsBack := by
  intro t hSome
  cases t with
  | string =>
      refine ⟨keeps_of_find? (c := .string) rfl rfl ?_,
        writesAlike_of_eq fun _ _ h => h⟩
      rintro v _ - ⟨⟩
      exact ⟨⟨trivial, trivial⟩, v, rfl, rfl⟩
  | bool =>
      refine ⟨keeps_of_find? (c := .bool) rfl rfl ?_,
        writesAlike_of_eq fun _ _ h => h⟩
      rintro v _ - ⟨⟩
      exact ⟨⟨trivial, trivial⟩, v, rfl, rfl⟩
  | int32 =>
      refine ⟨keeps_of_find? (c := .int32) rfl rfl ?_,
        writesAlike_of_eq fun _ _ h => h⟩
      rintro v _ - ⟨⟩
      exact ⟨⟨trivial, trivial⟩, v, read_int32_normal v, rfl⟩
  | int64 =>
      refine ⟨keeps_of_find? (c := .int64) rfl rfl ?_,
        writesAlike_of_eq fun _ _ h => h⟩
      rintro v _ - ⟨⟩
      exact ⟨⟨trivial, trivial⟩, v, read_int64_normal v, rfl⟩
  | uint64 =>
      refine ⟨keeps_of_find? (c := .uint64) rfl rfl ?_,
        writesAlike_of_eq fun _ _ h => h⟩
      rintro v _ - ⟨⟩
      exact ⟨⟨trivial, trivial⟩, v, rfl, rfl⟩
  | double =>
      refine ⟨keeps_of_find? (c := .double) rfl rfl ?_,
        writesAlike_of_eq fun _ _ h => h⟩
      rintro v _ hFinite ⟨⟩
      exact ⟨⟨hFinite, trivial⟩, v, rfl, rfl⟩
  | float =>
      refine ⟨keeps_of_find? (c := .float) rfl rfl ?_,
        writesAlike_of_eq fun _ _ h => h⟩
      rintro v _ hFinite ⟨⟩
      refine ⟨⟨(Binary.units_widened hFinite).1, trivial⟩, v, ?_,
        rfl⟩
      exact congrArg Except.ok (Binary.convert_widened hFinite)
  | time =>
      refine ⟨keeps_of_find? (c := .time) rfl rfl ?_,
        writesAlike_of_eq fun _ _ h => h⟩
      rintro v _ hWhole ⟨⟩
      exact ⟨⟨trivial, trivial⟩, v, read_time_normal hWhole, rfl⟩
  | json =>
      refine ⟨keeps_of_find? (c := .json) rfl rfl ?_, ?_⟩
      · rintro v _ hStorable ⟨⟩
        exact ⟨hStorable, v.normal, rfl, Json.normal_normal v⟩
      · rintro v w _ hAlike hWrite
        cases hWrite
        exact ⟨w, rfl, hAlike⟩
  | record r => cases hSome
  | option t => cases hSome
  | list t => cases hSome
  | map t => cases hSome

end Conversions

end DocumentMapper
