import DocumentMapper.Proofs.Conversion.Integers

/-
  Points in time that are read from JSON values.

  The clock counts nanoseconds in a signed 64-bit word, the
  payload counts milliseconds. A whole number that the clock
  reaches is read as the instant it stands for. One that it
  does not reach is read all the same: the word runs around,
  and the instant is off by whole laps of the clock.

  Key definitions include:
    * `Instant.IsAt`
    * `Instant.Reaches`

  Main statements include:
    * `Conversions.read_time_of_integer?`
    * `Conversions.timestamps_read`
-/

namespace DocumentMapper

------------------------------------------------------------
-- Instants and Milliseconds
------------------------------------------------------------

namespace Instant

/- The instant lies this many milliseconds after the epoch. -/
def IsAt
    (t : Instant)
    (milliseconds : Int) : Prop :=
  t.nanoseconds.toInt = milliseconds * 1000000

instance
    (t : Instant)
    (milliseconds : Int) : Decidable (t.IsAt milliseconds) :=
  inferInstanceAs (Decidable (_ = _))

/- The nanoseconds of so many milliseconds fit the clock. -/
def Reaches
    (milliseconds : Int) : Prop :=
  -2 ^ 63 ≤ milliseconds * 1000000 ∧
    milliseconds * 1000000 < 2 ^ 63

instance
    (milliseconds : Int) : Decidable (Reaches milliseconds) :=
  inferInstanceAs (Decidable (_ ∧ _))

/-
  An instant that is a number of laps away from where it
  should be is at its place exactly if the clock reaches that
  place.
-/
theorem isAt_iff_of_laps
    {t : Instant}
    {n laps : Int}
    (h : t.nanoseconds.toInt = n * 1000000 + laps * 2 ^ 64) :
    (t.IsAt n ↔ laps = 0) ∧ (Reaches n ↔ laps = 0) := by
  have hLow := t.nanoseconds.le_toInt
  have hHigh := t.nanoseconds.toInt_lt
  unfold IsAt Reaches
  omega

end Instant

------------------------------------------------------------
-- Readings
------------------------------------------------------------

namespace Conversions

/- The signed word of a whole number differs by whole laps. -/
theorem asInt64?_of_integer?
    {value : Json}
    {n : Int}
    (h : value.integer? = some n) :
    ∃ word laps,
      value.asInt64? = some word ∧
        word.toInt = n + laps * 2 ^ 64 := by
  cases value with
  | signed m =>
      cases h
      exact ⟨m, 0, rfl, by omega⟩
  | unsigned m =>
      cases h
      refine ⟨m.toInt64, if m.toNat < 2 ^ 63 then 0 else -1, rfl, ?_⟩
      rw [toInt_toInt64]
      split <;> omega
  | _ => cases h

/- The nanoseconds of a word differ by whole laps. -/
theorem toInt_mul_million
    (word : Int64) :
    ∃ laps,
      (word * 1000000).toInt =
        word.toInt * 1000000 + laps * 2 ^ 64 := by
  refine ⟨-Int.bdiv (word.toInt * 1000000) (2 ^ 64), ?_⟩
  have hMillion : (1000000 : Int64).toInt = 1000000 := by decide
  have hLaps :
      (word.toInt * 1000000).bmod (2 ^ 64) +
          2 ^ 64 * (word.toInt * 1000000).bdiv (2 ^ 64) =
        word.toInt * 1000000 :=
    Int.bmod_add_bdiv _ _
  rw [Int64.toInt_mul, hMillion]
  omega

variable
  {s : Conversions}
  {value : Json}

/-
  Every whole number is read as an instant, whole laps of the
  clock away from the instant that it stands for.
-/
theorem read_time_of_integer?
    (hTime : s.find? .time = some Conversion.time)
    {n : Int}
    (hNumber : value.integer? = some n) :
    ∃ (t : Instant) (laps : Int),
      s.read .time value = .ok t ∧
        t.nanoseconds.toInt = n * 1000000 + laps * 2 ^ 64 := by
  rcases asInt64?_of_integer? hNumber with
    ⟨word, wordLaps, hWord, hInt⟩
  rcases toInt_mul_million word with ⟨laps, hProduct⟩
  refine
    ⟨⟨word * 1000000⟩, wordLaps * 1000000 + laps, ?_, ?_⟩
  · rw [read_of_find? hTime rfl]
    simp only [Conversion.time, hWord]
  · show (word * 1000000).toInt = _
    rw [hProduct, hInt]
    omega

/- Only whole numbers are read as points in time. -/
theorem read_time_of_integer?_eq_none
    (hTime : s.find? .time = some Conversion.time)
    (hNone : value.integer? = none) :
    s.read .time value =
      .error
        (ConversionFault.expected
          (Text.lit "integer timestamp") value.kind).toError := by
  rw [read_of_find? hTime rfl]
  cases value with
  | signed _ | unsigned _ => cases hNone
  | _ => rfl

/-
  Whole numbers that the clock reaches are read as the instant
  that they stand for, in their order; a value that is no whole
  number is refused with a decode error. A whole number that
  the clock does not reach is read as well, as an instant that
  is off by at least a lap.
-/
theorem timestamps_read
    (hTime : s.find? .time = some Conversion.time)
    (value : Json) :
    (∀ n, value.integer? = some n → Instant.Reaches n →
      ∃ t : Instant, s.read .time value = .ok t ∧ t.IsAt n) ∧
    (∀ n, value.integer? = some n → ¬ Instant.Reaches n →
      ∃ (t : Instant) (laps : Int),
        s.read .time value = .ok t ∧ ¬ t.IsAt n ∧ laps ≠ 0 ∧
          t.nanoseconds.toInt = n * 1000000 + laps * 2 ^ 64) ∧
    (value.integer? = none →
      ∃ e : Error,
        s.read .time value = .error e ∧
          e =
            (ConversionFault.expected
              (Text.lit "integer timestamp")
              value.kind).toError ∧
          e.code = .decodeError) ∧
    ∀ later n m,
      value.integer? = some n → later.integer? = some m →
        Instant.Reaches n → Instant.Reaches m → n < m →
          ∃ t u : Instant,
            s.read .time value = .ok t ∧
              s.read .time later = .ok u ∧
              t.nanoseconds < u.nanoseconds := by
  have hExact : ∀ other n, other.integer? = some n →
      Instant.Reaches n →
        ∃ t : Instant, s.read .time other = .ok t ∧ t.IsAt n := by
    intro other n hNumber hReaches
    rcases read_time_of_integer? hTime hNumber with
      ⟨t, laps, hRead, hLaps⟩
    rcases Instant.isAt_iff_of_laps hLaps with ⟨hAt, hPlace⟩
    exact ⟨t, hRead, hAt.mpr (hPlace.mp hReaches)⟩
  refine ⟨hExact value, ?_, ?_, ?_⟩
  · intro n hNumber hBeyond
    rcases read_time_of_integer? hTime hNumber with
      ⟨t, laps, hRead, hLaps⟩
    rcases Instant.isAt_iff_of_laps hLaps with ⟨hAt, hPlace⟩
    have hSome : laps ≠ 0 := fun hZero => hBeyond (hPlace.mpr hZero)
    exact ⟨t, laps, hRead, hSome ∘ hAt.mp, hSome, hLaps⟩
  · intro hNone
    exact ⟨_, read_time_of_integer?_eq_none hTime hNone, rfl, rfl⟩
  · intro later n m hFirst hSecond hReachesFirst hReachesSecond hLess
    rcases hExact value n hFirst hReachesFirst with ⟨t, hRead, hAt⟩
    rcases hExact later m hSecond hReachesSecond with
      ⟨u, hReadLater, hAtLater⟩
    refine ⟨t, u, hRead, hReadLater, ?_⟩
    rw [Int64.lt_iff_toInt_lt, hAt, hAtLater]
    omega

/-
  A second before the epoch is read as itself and comes before
  a second after it; the largest number of 64 bits is read as
  an instant that it does not stand for; and a text is refused.
-/
theorem timestamps_read_of_seconds :
    (∃ t : Instant,
      standard.read .time (.signed (-1000)) = .ok t ∧
        t.IsAt (-1000)) ∧
    (∃ t u : Instant,
      standard.read .time (.signed (-1000)) = .ok t ∧
        standard.read .time (.unsigned 1000) = .ok u ∧
          t.nanoseconds < u.nanoseconds) ∧
    (∃ t : Instant,
      standard.read .time (.unsigned 18446744073709551615) = .ok t ∧
        ¬ t.IsAt 18446744073709551615) ∧
    ∃ e : Error,
      standard.read .time (.string (Text.lit "1")) = .error e ∧
        e.code = .decodeError := by
  have hTime : standard.find? .time = some Conversion.time := rfl
  refine ⟨?_, ?_, ?_, ?_⟩
  · exact
      (timestamps_read hTime (.signed (-1000))).1 (-1000) rfl
        (by decide)
  · exact
      (timestamps_read hTime (.signed (-1000))).2.2.2
        (.unsigned 1000) (-1000) 1000 rfl rfl (by decide)
        (by decide) (by decide)
  · rcases (timestamps_read hTime
        (.unsigned 18446744073709551615)).2.1
        18446744073709551615 rfl (by decide) with
      ⟨t, -, hRead, hNot, -⟩
    exact ⟨t, hRead, hNot⟩
  · rcases (timestamps_read hTime
        (.string (Text.lit "1"))).2.2.1 rfl with
      ⟨e, hRead, -, hCode⟩
    exact ⟨e, hRead, hCode⟩

end Conversions

end DocumentMapper
