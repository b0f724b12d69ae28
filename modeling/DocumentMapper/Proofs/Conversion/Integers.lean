import DocumentMapper.Proofs.Association
import DocumentMapper.Proofs.Conversion.Standard
import DocumentMapper.Proofs.Number.Words

/-
  Whole numbers that are read from JSON values.

  A whole number is read exactly where it lies in the range of
  the type, and anything else is a decode error. Only the
  short type looks at the signed 64-bit word first, so that
  the largest unsigned numbers wrap around into its range.

  Key definitions include:
    * `IntegerType`, `IntegerType.toInt`
    * `IntegerType.Contains`
    * `IntegerType.Wraps`, `IntegerType.readAs`
    * `FieldType.HoldsIntegers`, `FieldType.Shows`

  Main statements include:
    * `IntegerType.readAs_eq_self_iff`
    * `Conversions.read_integer_eq_ok_iff`
    * `Conversions.shows_of_read`
    * `Conversions.integers_read`
-/

namespace DocumentMapper

------------------------------------------------------------
-- Ranges
------------------------------------------------------------

/- The types of whole numbers. -/
inductive IntegerType where
  | int32
  | int64
  | uint64
  deriving DecidableEq, Repr

namespace IntegerType

/- The field type of an integer type. -/
@[reducible]
def fieldType : IntegerType → FieldType
  | .int32 => .int32
  | .int64 => .int64
  | .uint64 => .uint64

/- The number that a member holds. -/
def toInt : (k : IntegerType) → k.fieldType.Value → Int
  | .int32, v => Int32.toInt v
  | .int64, v => Int64.toInt v
  | .uint64, v => (UInt64.toNat v : Int)

/- The number lies in the range of the type. -/
def Contains
    (k : IntegerType)
    (n : Int) : Prop :=
  match k with
  | .int32 => -2 ^ 31 ≤ n ∧ n < 2 ^ 31
  | .int64 => -2 ^ 63 ≤ n ∧ n < 2 ^ 63
  | .uint64 => 0 ≤ n ∧ n < 2 ^ 64

instance
    (k : IntegerType)
    (n : Int) : Decidable (k.Contains n) :=
  match k with
  | .int32 => inferInstanceAs (Decidable (_ ∧ _))
  | .int64 => inferInstanceAs (Decidable (_ ∧ _))
  | .uint64 => inferInstanceAs (Decidable (_ ∧ _))

/-
  The number is one of the largest of 64 bits, whose signed
  words are short negative numbers.
-/
def Wraps
    (k : IntegerType)
    (n : Int) : Prop :=
  k = .int32 ∧ 2 ^ 64 - 2 ^ 31 ≤ n

instance
    (k : IntegerType)
    (n : Int) : Decidable (k.Wraps n) :=
  inferInstanceAs (Decidable (_ ∧ _))

/- The number that a whole number is taken for. -/
def readAs
    (k : IntegerType)
    (n : Int) : Int :=
  if k.Wraps n then n - 2 ^ 64 else n

/- Why the type refuses a value. -/
def refusal
    (k : IntegerType)
    (value : Json) : ConversionFault :=
  match value.integer?, k with
  | none, _ => .expected (Text.lit "integer") value.kind
  | some _, .int32 => .outOfRange (Text.lit "int")
  | some _, .int64 => .outOfRange (Text.lit "int64")
  | some _, .uint64 => .negative

/- Every refusal is a decode error. -/
theorem refusal_code
    (k : IntegerType)
    (value : Json) :
    (k.refusal value).toError.code = .decodeError := by
  unfold refusal
  split <;> rfl

/- A number is taken for itself unless it wraps around. -/
theorem readAs_eq_self_iff
    {k : IntegerType}
    {n : Int} :
    k.readAs n = n ↔ ¬ k.Wraps n := by
  unfold readAs
  split
  · rename_i hWraps
    exact iff_of_false (by omega) fun hNot => hNot hWraps
  · rename_i hStays
    exact iff_of_true rfl hStays

/- The numbers of a type are those that its members hold. -/
theorem contains_iff
    {k : IntegerType}
    {n : Int} :
    k.Contains n ↔ ∃ v, k.toInt v = n := by
  constructor
  · intro h
    cases k with
    | int32 => exact ⟨_, Int32.toInt_ofInt_of_le h.1 h.2⟩
    | int64 => exact ⟨_, Int64.toInt_ofInt_of_le h.1 h.2⟩
    | uint64 =>
        refine ⟨UInt64.ofNat n.toNat, ?_⟩
        have hLow : 0 ≤ n := h.1
        have hHigh : n < 2 ^ 64 := h.2
        show ((UInt64.ofNat n.toNat).toNat : Int) = n
        rw [UInt64.toNat_ofNat_of_lt' (by show n.toNat < 2 ^ 64; omega)]
        omega
  · rintro ⟨v, rfl⟩
    cases k with
    | int32 => exact ⟨Int32.le_toInt v, Int32.toInt_lt v⟩
    | int64 => exact ⟨Int64.le_toInt v, Int64.toInt_lt v⟩
    | uint64 =>
        refine ⟨Int.natCast_nonneg _, ?_⟩
        have hHigh := UInt64.toNat_lt v
        show (UInt64.toNat v : Int) < 2 ^ 64
        omega

end IntegerType

------------------------------------------------------------
-- Single Numbers
------------------------------------------------------------

namespace Conversions

variable {value : Json}

/- A short number is read from the signed word, if that is short. -/
theorem read_int32_eq_ok_iff
    {v : Int32} :
    Conversion.int32.read value = .ok v ↔
      ∃ w, value.asInt64? = some w ∧ w.toInt = v.toInt := by
  have hLeast : Int32.minValue.toInt64.toInt = -2 ^ 31 := by
    decide
  have hMost : Int32.maxValue.toInt64.toInt = 2 ^ 31 - 1 := by
    decide
  constructor
  · intro hRead
    simp only [Conversion.int32] at hRead
    split at hRead
    · rename_i w hWord
      split at hRead
      · cases hRead
      · rename_i hFits
        cases hRead
        rw [Int64.lt_iff_toInt_lt, Int64.lt_iff_toInt_lt, hLeast,
          hMost] at hFits
        refine ⟨w, hWord, ?_⟩
        rw [Int64.toInt_toInt32, Int.bmod_eq_of_le] <;> omega
    · cases hRead
  · rintro ⟨w, hWord, hSame⟩
    apply read_int32_of_asInt64?
    rw [hWord, Option.some.injEq, ← Int64.toInt_inj, hSame,
      Int32.toInt_toInt64]

/- A signed number is read if it fits the signed word. -/
theorem read_int64_eq_ok_iff
    {v : Int64} :
    Conversion.int64.read value = .ok v ↔
      value.integer? = some v.toInt := by
  cases value with
  | signed m =>
      simp [Conversion.int64, Json.integer?, Int64.toInt_inj]
  | unsigned m =>
      have hHigh := v.toInt_lt
      have hMost : Int64.maxValue.toUInt64.toNat = 2 ^ 63 - 1 := by
        decide
      simp only [Conversion.int64, Json.integer?,
        Option.some.injEq]
      split
      · rename_i hExceeds
        rw [UInt64.lt_iff_toNat_lt, hMost] at hExceeds
        exact iff_of_false (by rintro ⟨⟩) (by omega)
      · rename_i hFits
        rw [UInt64.lt_iff_toNat_lt, hMost] at hFits
        rw [Except.ok.injEq, ← Int64.toInt_inj, toInt_toInt64,
          if_pos (by omega)]
  | _ => simp [Conversion.int64, Json.integer?, Conversion.mismatch]

/- An unsigned number is read if it is not negative. -/
theorem read_uint64_eq_ok_iff
    {v : UInt64} :
    Conversion.uint64.read value = .ok v ↔
      value.integer? = some (v.toNat : Int) := by
  cases value with
  | unsigned m =>
      simp [Conversion.uint64, Json.integer?, UInt64.toNat_inj]
  | signed m =>
      simp only [Conversion.uint64, Json.integer?,
        Option.some.injEq]
      have hZero : (0 : Int64).toInt = 0 := by decide
      split
      · rename_i hNegative
        rw [Int64.lt_iff_toInt_lt, hZero] at hNegative
        exact iff_of_false (by rintro ⟨⟩) (by omega)
      · rename_i hSign
        have hLow : 0 ≤ m := Int64.not_lt.mp hSign
        have hNat := Int64.toNat_toUInt64_of_le hLow
        rw [Int64.le_iff_toInt_le, hZero] at hLow
        rw [Except.ok.injEq, ← UInt64.toNat_inj, hNat]
        show m.toInt.toNat = _ ↔ _
        omega
  | _ =>
      simp [Conversion.uint64, Json.integer?, Conversion.mismatch]

/-
  A value is read as a number of the type exactly if it is a
  whole number that is taken for this one.
-/
theorem read_integer_eq_ok_iff
    {k : IntegerType}
    {v : k.fieldType.Value} :
    standard.read k.fieldType value = .ok v ↔
      ∃ n, value.integer? = some n ∧ k.toInt v = k.readAs n := by
  cases k with
  | int32 =>
      rw [read_of_find? (c := .int32) rfl rfl,
        read_int32_eq_ok_iff]
      have hLow := Int32.le_toInt v
      have hHigh := Int32.toInt_lt v
      cases value with
      | signed m =>
          have hWord := m.toInt_lt
          have hStays : IntegerType.int32.readAs m.toInt = m.toInt := by
            rw [IntegerType.readAs_eq_self_iff]
            rintro ⟨-, hLarge⟩
            omega
          simp [Json.asInt64?, Json.integer?, hStays,
            IntegerType.toInt, eq_comm]
      | unsigned m =>
          have hWord := m.toNat_lt
          simp only [Json.asInt64?, Json.integer?,
            Option.some.injEq, exists_eq_left', toInt_toInt64,
            IntegerType.toInt, IntegerType.readAs,
            IntegerType.Wraps, true_and]
          split <;> split <;> omega
      | _ => simp [Json.asInt64?, Json.integer?]
  | int64 =>
      rw [read_of_find? (c := .int64) rfl rfl,
        read_int64_eq_ok_iff]
      simp [IntegerType.readAs, IntegerType.Wraps,
        IntegerType.toInt]
  | uint64 =>
      rw [read_of_find? (c := .uint64) rfl rfl,
        read_uint64_eq_ok_iff]
      simp [IntegerType.readAs, IntegerType.Wraps,
        IntegerType.toInt]

/- A value that is not read is refused by its type. -/
theorem read_integer_eq_error
    {k : IntegerType}
    {e : Error}
    (h : standard.read k.fieldType value = .error e) :
    e = (k.refusal value).toError := by
  cases k with
  | int32 =>
      rw [read_of_find? (c := .int32) rfl rfl] at h
      cases value with
      | unsigned m | signed m =>
          simp only [Conversion.int32, Json.asInt64?] at h
          split at h
          · cases h
            rfl
          · cases h
      | _ =>
          cases h
          rfl
  | int64 =>
      rw [read_of_find? (c := .int64) rfl rfl] at h
      cases value with
      | signed m => cases h
      | unsigned m =>
          simp only [Conversion.int64] at h
          split at h
          · cases h
            rfl
          · cases h
      | _ =>
          cases h
          rfl
  | uint64 =>
      rw [read_of_find? (c := .uint64) rfl rfl] at h
      cases value with
      | unsigned m => cases h
      | signed m =>
          simp only [Conversion.uint64] at h
          split at h
          · cases h
            rfl
          · cases h
      | _ =>
          cases h
          rfl

end Conversions

------------------------------------------------------------
-- Structure
------------------------------------------------------------

namespace FieldType

/- The type is built of whole numbers only. -/
def HoldsIntegers : FieldType → Prop
  | .int32 | .int64 | .uint64 => True
  | .option t => HoldsIntegers t
  | .list t => HoldsIntegers t
  | .map t => HoldsIntegers t
  | _ => False

/-
  A value holds the numbers that stand in a JSON value: null
  is absent, items and members are at their places, and a key
  that is repeated stands for its last member.
-/
def Shows : (t : FieldType) → Json → t.Value → Prop
  | .int32, j, v =>
      j.integer?.map IntegerType.int32.readAs =
        some (IntegerType.int32.toInt v)
  | .int64, j, v =>
      j.integer? = some (IntegerType.int64.toInt v)
  | .uint64, j, v =>
      j.integer? = some (IntegerType.uint64.toInt v)
  | .option _, .null, v => v = none
  | .option t, j, v => ∃ w, v = some w ∧ Shows t j w
  | .list t, .array items, vs => List.Forall₂ (Shows t) items vs
  | .map t, .object members, m =>
      ∀ key,
        Option.Rel (Shows t)
          (Association.lookup? key (Association.merge [] members))
          (m.get? key)
  | _, _, _ => False

end FieldType

namespace Conversions

/- Items that are read show what they are read from. -/
theorem forall₂_of_readItems
    {α : Type}
    {read : Json → Result α}
    {R : Json → α → Prop}
    (hRead : ∀ j v, read j = .ok v → R j v)
    {items : List Json}
    {vs : List α}
    (h : readItems read items = .ok vs) :
    List.Forall₂ R items vs := by
  induction items generalizing vs with
  | nil =>
      cases h
      exact .nil
  | cons item rest ih =>
      rw [readItems] at h
      split at h
      · cases h
      · rename_i v hItem
        split at h
        · cases h
        · rename_i others hRest
          cases h
          exact .cons (hRead _ _ hItem) (ih hRest)

/- Members that are read show what their keys were bound to last. -/
theorem rel_of_readMembers
    {α : Type}
    {read : Json → Result α}
    {R : Json → α → Prop}
    (hRead : ∀ j v, read j = .ok v → R j v)
    {members bound : List (Text × Json)}
    {found m : TextMap α}
    (hFound :
      ∀ key,
        Option.Rel R (Association.lookup? key bound)
          (found.get? key))
    (h : readMembers read found members = .ok m)
    (key : Text) :
    Option.Rel R
      (Association.lookup? key (Association.merge bound members))
      (m.get? key) := by
  induction members generalizing bound found with
  | nil =>
      cases h
      exact hFound key
  | cons member rest ih =>
      rcases member with ⟨k, j⟩
      rw [readMembers] at h
      split at h
      · cases h
      · rename_i v hValue
        refine ih (fun other => ?_) h
        rw [Association.lookup?_assign, TextMap.get?_insert]
        split
        · exact .some (hRead _ _ hValue)
        · exact hFound other

/- What is read of a type shows what it was read from. -/
theorem shows_of_read
    {t : FieldType}
    (hIntegers : t.HoldsIntegers)
    {value : Json}
    {v : t.Value}
    (h : standard.read t value = .ok v) :
    t.Shows value v := by
  induction t generalizing value with
  | int32 =>
      rcases (read_integer_eq_ok_iff (k := .int32)).mp h with
        ⟨n, hNumber, hSame⟩
      rw [FieldType.Shows, hNumber, Option.map_some, hSame]
  | int64 =>
      rcases (read_integer_eq_ok_iff (k := .int64)).mp h with
        ⟨n, hNumber, hSame⟩
      rw [FieldType.Shows, hNumber, hSame]
      simp [IntegerType.readAs, IntegerType.Wraps]
  | uint64 =>
      rcases (read_integer_eq_ok_iff (k := .uint64)).mp h with
        ⟨n, hNumber, hSame⟩
      rw [FieldType.Shows, hNumber, hSame]
      simp [IntegerType.readAs, IntegerType.Wraps]
  | option t ih =>
      by_cases hNull : value = .null
      · subst hNull
        rw [read_null rfl] at h
        cases h
        rfl
      · rw [read_some rfl hNull] at h
        rcases Result.map_eq_ok_iff.mp h with ⟨w, hInner, rfl⟩
        have hShows : ∃ u, some w = some u ∧ t.Shows value u :=
          ⟨w, rfl, ih hIntegers hInner⟩
        cases value <;> first | contradiction | exact hShows
  | list t ih =>
      cases value with
      | array items =>
          rw [read_list rfl] at h
          exact forall₂_of_readItems (fun _ _ => ih hIntegers) h
      | _ => cases h
  | map t ih =>
      cases value with
      | object members =>
          rw [read_map rfl] at h
          exact
            rel_of_readMembers (fun _ _ => ih hIntegers)
              (fun _ => .none) h
      | _ => cases h
  | _ => cases hIntegers

------------------------------------------------------------
-- Whole Numbers That Are Read
------------------------------------------------------------

/- Whole numbers have 64 bits. -/
theorem integer?_lt
    {value : Json}
    {n : Int}
    (h : value.integer? = some n) :
    n < 2 ^ 64 := by
  cases value with
  | unsigned m =>
      have hHigh := m.toNat_lt
      cases h
      omega
  | signed m =>
      have hHigh := m.toInt_lt
      cases h
      omega
  | _ => cases h

/- A number is read if what it is taken for lies in the range. -/
theorem read_integer_of_contains
    {k : IntegerType}
    {value : Json}
    {n : Int}
    (hNumber : value.integer? = some n)
    (hContains : k.Contains (k.readAs n)) :
    ∃ v,
      standard.read k.fieldType value = .ok v ∧
        k.toInt v = k.readAs n := by
  rcases IntegerType.contains_iff.mp hContains with ⟨v, hValue⟩
  exact
    ⟨v, read_integer_eq_ok_iff.mpr ⟨n, hNumber, hValue⟩, hValue⟩

/-
  A whole number is read exactly if it lies in the range of
  the type, and is read as itself; every other value is
  refused with a decode error. The one exception is a number
  that wraps around, which is read as another one. Through any
  structure, a value that is read shows the numbers that stand
  where it was read.
-/
theorem integers_read
    (k : IntegerType)
    (value : Json) :
    (∀ n, value.integer? = some n → ¬ k.Wraps n →
      k.Contains n →
        ∃ v,
          standard.read k.fieldType value = .ok v ∧
            k.toInt v = n) ∧
    (∀ n, value.integer? = some n → k.Wraps n →
      ∃ v,
        standard.read k.fieldType value = .ok v ∧
          k.toInt v = n - 2 ^ 64) ∧
    ((∀ n, value.integer? = some n →
        ¬ k.Wraps n ∧ ¬ k.Contains n) →
      ∃ e : Error,
        standard.read k.fieldType value = .error e ∧
          e = (k.refusal value).toError ∧
          e.code = .decodeError) ∧
    ∀ t : FieldType, t.HoldsIntegers → ∀ v,
      standard.read t value = .ok v → t.Shows value v := by
  refine ⟨?_, ?_, ?_,
    fun t hIntegers v hRead => shows_of_read hIntegers hRead⟩
  · intro n hNumber hStays hContains
    rw [← IntegerType.readAs_eq_self_iff] at hStays
    have hRead := read_integer_of_contains (k := k) hNumber
    rw [hStays] at hRead
    exact hRead hContains
  · intro n hNumber hWraps
    have hHigh := integer?_lt hNumber
    have hOther : k.readAs n = n - 2 ^ 64 := if_pos hWraps
    have hRead := read_integer_of_contains (k := k) hNumber
    rw [hOther] at hRead
    apply hRead
    rcases hWraps with ⟨rfl, hLow⟩
    exact ⟨by omega, by omega⟩
  · intro hOutside
    cases hRead : standard.read k.fieldType value with
    | error e =>
        have hRefused := read_integer_eq_error hRead
        exact ⟨e, rfl, hRefused, hRefused ▸ k.refusal_code value⟩
    | ok v =>
        rcases read_integer_eq_ok_iff.mp hRead with
          ⟨n, hNumber, hValue⟩
        rcases hOutside n hNumber with ⟨hStays, hNot⟩
        rw [IntegerType.readAs_eq_self_iff.mpr hStays] at hValue
        exact
          absurd (IntegerType.contains_iff.mpr ⟨v, hValue⟩) hNot

/-
  The largest number of 64 bits wraps around to minus one; a
  larger one than a signed word can hold is refused; and a
  list of two numbers shows them.
-/
theorem integers_read_of_largest :
    (∃ v : Int32,
      standard.read .int32 (.unsigned 18446744073709551615) =
          .ok v ∧
        v.toInt = -1) ∧
    (∃ e : Error,
      standard.read .int64 (.unsigned 9223372036854775808) =
          .error e ∧
        e.code = .decodeError) ∧
    standard.read (.list .uint64) (.array [.unsigned 5, .signed 7]) =
        .ok [5, 7] ∧
      FieldType.Shows (.list .uint64)
        (.array [.unsigned 5, .signed 7]) [5, 7] := by
  refine ⟨?_, ?_, rfl, ?_⟩
  · exact
      (integers_read .int32 (.unsigned 18446744073709551615)).2.1
        18446744073709551615 rfl (by decide)
  · rcases (integers_read .int64
        (.unsigned 9223372036854775808)).2.2.1 (by
          rintro n ⟨⟩
          decide) with
      ⟨e, hRead, -, hCode⟩
    exact ⟨e, hRead, hCode⟩
  · exact
      (integers_read .uint64 _).2.2.2 (.list .uint64) trivial _ rfl

end Conversions

end DocumentMapper
