import DocumentMapper.Proofs.Number.Rounding

/-
  Single precision within double precision.

  Every finite single-precision number is a double-precision
  number of the same value, and comes back from it; so do the
  infinities, while a NaN may come back as another NaN.

  Main statements include:
    * `Binary.units_ofMagnitude_doubled`
    * `Binary.units_widened`
    * `Binary.convert_widened`
    * `Binary.convert_widened_of_not_isNaN`
    * `Binary.isNaN_convert`
-/

namespace DocumentMapper

namespace Binary

------------------------------------------------------------
-- Units of Patterns
------------------------------------------------------------

variable {f : BinaryFormat}

/- No pattern, no units. -/
theorem units_eq_zero
    {x : Binary f}
    (h : x.magnitude = 0) :
    x.units = 0 := by
  rw [units_eq, h]
  simp

/- A full count of units and its doublings are read off a pattern. -/
theorem units_ofMagnitude_doubled
    (negative : Bool)
    {significand exponent : Nat}
    (hLow : f.fractionSpan ≤ significand)
    (hHigh : significand < 2 * f.fractionSpan)
    (hFinite :
      exponent * f.fractionSpan + significand < f.infinity) :
    (ofMagnitude f negative
        (exponent * f.fractionSpan + significand)).units =
      significand * 2 ^ exponent := by
  have hSplit :
      exponent * f.fractionSpan + significand =
        (significand - f.fractionSpan) +
          f.fractionSpan * (exponent + 1) := by
    rw [Nat.mul_add, Nat.mul_comm exponent]
    omega
  have hRest : significand - f.fractionSpan < f.fractionSpan := by
    omega
  have hMagnitude :=
    magnitude_ofMagnitude negative
      (hFinite.trans f.infinity_lt_signWeight)
  have hDiv :
      (exponent * f.fractionSpan + significand) /
          f.fractionSpan =
        exponent + 1 := by
    rw [hSplit, Nat.add_mul_div_left _ _ f.fractionSpan_pos,
      Nat.div_eq_of_lt hRest, Nat.zero_add]
  have hMod :
      (exponent * f.fractionSpan + significand) %
          f.fractionSpan =
        significand - f.fractionSpan := by
    rw [hSplit, Nat.add_mul_mod_self_left, Nat.mod_eq_of_lt hRest]
  rw [units_eq, hMagnitude, hDiv, hMod, if_neg (by omega)]
  congr 1
  omega

/-
  The units of a finite number that is not zero: some, but no
  more than two spans, and their doublings.
-/
theorem units_eq_doubled
    {x : Binary f}
    (hFinite : x.isFinite = true)
    (hSome : x.magnitude ≠ 0) :
    ∃ significand exponent,
      0 < significand ∧ significand < 2 * f.fractionSpan ∧
        exponent < f.exponentSpan ∧
        x.units = significand * 2 ^ exponent := by
  have hLess : x.magnitude < f.infinity := by
    simpa [isFinite] using hFinite
  have hRest := Nat.mod_lt x.magnitude f.fractionSpan_pos
  have hSplit := Nat.div_add_mod' x.magnitude f.fractionSpan
  have hExponents : 0 < f.exponentSpan := Nat.two_pow_pos _
  rw [units_eq]
  split
  · rename_i hSmall
    rw [hSmall, Nat.zero_mul, Nat.zero_add] at hSplit
    exact ⟨x.magnitude % f.fractionSpan, 0, by omega, by omega,
      hExponents, by simp⟩
  · have hDiv :
        x.magnitude / f.fractionSpan < f.exponentSpan - 1 :=
      Nat.div_lt_of_lt_mul (Nat.mul_comm _ _ ▸ hLess)
    exact ⟨f.fractionSpan + x.magnitude % f.fractionSpan, _,
      by omega, by omega, by omega, rfl⟩

------------------------------------------------------------
-- Widening
------------------------------------------------------------

/- The doublings from a unit of double to one of single precision. -/
def wideningBits : Nat :=
  925

/- The units of double precision in one of single precision. -/
def widening : Nat :=
  2 ^ wideningBits

/- One has as many more units as each of them has. -/
theorem unitsPerOne_binary64 :
    binary64.unitsPerOne = binary32.unitsPerOne * widening := by
  have hExponent :
      binary64.exponentSpan / 2 - 2 + binary64.fractionBits =
        (binary32.exponentSpan / 2 - 2 + binary32.fractionBits) +
          wideningBits := by
    decide
  unfold BinaryFormat.unitsPerOne widening
  rw [hExponent, Nat.pow_eq, Nat.pow_eq, Nat.pow_add]

/- A finite number is widened to its units. -/
theorem convert_eq_ofMagnitude
    {x : Binary32}
    (hFinite : x.isFinite = true) :
    x.convert binary64 =
      ofMagnitude binary64 x.negative
        (nearestMagnitude binary64 (x.units * widening) 1) := by
  have hLess : x.magnitude < binary32.infinity := by
    simpa [isFinite] using hFinite
  have hNoNaN : x.isNaN = false := by
    simpa [isNaN] using Nat.le_of_lt hLess
  have hReduced :=
    nearestMagnitude_mul (f := binary64) (x.units * widening) 1
      binary32.unitsPerOne_pos
  have hUnits :
      x.units * binary64.unitsPerOne =
        x.units * widening * binary32.unitsPerOne := by
    rw [unitsPerOne_binary64]
    ring
  rw [Nat.one_mul] at hReduced
  rw [convert, hNoNaN, if_neg (by decide), if_pos hFinite,
    ofRatio, hUnits, hReduced]

/- Doublings fill a field with a significand. -/
theorem fill_significand
    {significand k : Nat}
    (hSome : 0 < significand)
    (hFits : significand.log2 ≤ k) :
    2 ^ k ≤ significand * 2 ^ (k - significand.log2) ∧
      significand * 2 ^ (k - significand.log2) < 2 * 2 ^ k := by
  have hPower :
      2 ^ significand.log2 * 2 ^ (k - significand.log2) = 2 ^ k := by
    rw [← Nat.pow_add, Nat.add_sub_cancel' hFits]
  have hLow := Nat.log2_self_le hSome.ne'
  have hHigh : significand < 2 * 2 ^ significand.log2 := by
    rw [← Nat.pow_succ']
    exact Nat.lt_log2_self
  constructor
  · rw [← hPower]
    exact Nat.mul_le_mul_right _ hLow
  · rw [← hPower, ← Nat.mul_assoc]
    exact Nat.mul_lt_mul_of_pos_right hHigh (Nat.two_pow_pos _)

/- A widened number has its sign, its value, and is finite. -/
theorem units_widened
    {x : Binary32}
    (hFinite : x.isFinite = true) :
    (x.convert binary64).isFinite = true ∧
      (x.convert binary64).negative = x.negative ∧
      (x.convert binary64).units = x.units * widening := by
  rw [convert_eq_ofMagnitude hFinite]
  by_cases hZero : x.magnitude = 0
  · have hNone : nearestMagnitude binary64 0 1 = 0 :=
      nearestMagnitude_of_small (by decide)
    have hPositive : 0 < binary64.signWeight := by decide
    have hMagnitude :=
      magnitude_ofMagnitude x.negative hPositive
    rw [units_eq_zero hZero, Nat.zero_mul, hNone]
    refine ⟨?_, negative_ofMagnitude _ hPositive,
      units_eq_zero hMagnitude⟩
    rw [isFinite, hMagnitude]
    decide
  · rcases units_eq_doubled hFinite hZero with
      ⟨significand, exponent, hSome, hFew, hExponent, hUnits⟩
    have hSpan : binary32.fractionSpan = 2 ^ 23 := rfl
    have hWide : binary64.fractionSpan = 2 ^ 52 := rfl
    have hLog : significand.log2 ≤ 23 := by
      have hLess : significand < 2 ^ 24 := by omega
      have hLog := (Nat.log2_lt hSome.ne').mpr hLess
      omega
    have hMost : exponent < 256 := hExponent
    have hBits : wideningBits = 925 := rfl
    -- The significand fills the wider field once it is doubled.
    have hNumber :
        x.units * widening =
          significand * 2 ^ (52 - significand.log2) *
            2 ^ (exponent + wideningBits + significand.log2 - 52) := by
      unfold widening
      rw [hUnits, Nat.mul_assoc, Nat.mul_assoc, ← Nat.pow_add,
        ← Nat.pow_add]
      congr 2
      omega
    have hFits : significand.log2 ≤ 52 := by omega
    rcases fill_significand hSome hFits with ⟨hLow, hHigh⟩
    rw [← hWide] at hLow hHigh
    have hInfinity : binary64.infinity = 2047 * 2 ^ 52 := rfl
    have hInside :
        (exponent + wideningBits + significand.log2 - 52) *
            binary64.fractionSpan +
            significand * 2 ^ (52 - significand.log2) <
          binary64.infinity := by
      have hPlaces :
          exponent + wideningBits + significand.log2 - 52 ≤ 1200 := by
        omega
      have hTimes :=
        Nat.mul_le_mul_right binary64.fractionSpan hPlaces
      omega
    have hSign := hInside.trans binary64.infinity_lt_signWeight
    rw [hNumber, nearestMagnitude_doubled hLow hHigh hInside]
    refine ⟨?_, negative_ofMagnitude _ hSign,
      units_ofMagnitude_doubled _ hLow hHigh hInside⟩
    rw [isFinite, magnitude_ofMagnitude _ hSign]
    simpa using hInside

/- A widened number comes back. -/
theorem convert_widened
    {x : Binary32}
    (hFinite : x.isFinite = true) :
    (x.convert binary64).convert binary32 = x := by
  rcases units_widened hFinite with ⟨hWide, hSign, hUnits⟩
  have hLess :
      (x.convert binary64).magnitude < binary64.infinity := by
    simpa [isFinite] using hWide
  have hNoNaN : (x.convert binary64).isNaN = false := by
    simpa [isNaN] using Nat.le_of_lt hLess
  have hPositive : 0 < widening := Nat.two_pow_pos _
  rw [convert, hNoNaN, if_neg (by decide), if_pos hWide, hSign,
    hUnits, unitsPerOne_binary64,
    ofRatio_mul _ _ _ hPositive, ofRatio_units hFinite]

------------------------------------------------------------
-- Infinities and NaNs
------------------------------------------------------------

/- A NaN stays a NaN in every format with a fraction. -/
theorem isNaN_convert
    {g : BinaryFormat}
    (hFraction : g.fractionBits ≠ 0)
    {x : Binary f}
    (h : x.isNaN = true) :
    (x.convert g).isNaN = true := by
  have hKept :
      x.magnitude % f.fractionSpan * g.fractionSpan /
          f.fractionSpan <
        2 ^ g.fractionBits := by
    rw [Nat.div_lt_iff_lt_mul f.fractionSpan_pos,
      ← g.fractionSpan_eq, Nat.mul_comm]
    exact Nat.mul_lt_mul_of_pos_left
      (Nat.mod_lt _ f.fractionSpan_pos) g.fractionSpan_pos
  have hQuiet : g.fractionSpan / 2 < 2 ^ g.fractionBits :=
    Nat.div_lt_self g.fractionSpan_pos (by decide)
  have hSome : 0 < g.fractionSpan / 2 := by
    have hTwo : 2 ≤ g.fractionSpan :=
      Nat.le_self_pow hFraction 2
    omega
  have hFraction := Nat.or_lt_two_pow hKept hQuiet
  have hLeast :
      g.fractionSpan / 2 ≤
        x.magnitude % f.fractionSpan * g.fractionSpan /
            f.fractionSpan |||
          g.fractionSpan / 2 :=
    Nat.right_le_or
  have hRoom := g.infinity_add_fractionSpan
  rw [← g.fractionSpan_eq] at hFraction
  rw [convert, if_pos h, isNaN,
    magnitude_ofMagnitude _ (by omega)]
  exact decide_eq_true (by omega)

/- Any widened number comes back, infinities too. -/
theorem convert_widened_of_not_isNaN
    {x : Binary32}
    (h : x.isNaN = false) :
    (x.convert binary64).convert binary32 = x := by
  by_cases hFinite : x.isFinite = true
  · exact convert_widened hFinite
  · have hMagnitude : x.magnitude = binary32.infinity := by
      rw [isNaN, decide_eq_false_iff_not] at h
      rw [isFinite, decide_eq_true_iff] at hFinite
      omega
    have hWide :
        x.convert binary64 =
          ofMagnitude binary64 x.negative binary64.infinity := by
      rw [convert, h, if_neg (by decide), if_neg hFinite]
    have hLess := binary64.infinity_lt_signWeight
    rw [hWide, convert, isNaN, isFinite,
      magnitude_ofMagnitude _ hLess,
      negative_ofMagnitude _ hLess, if_neg (by decide),
      if_neg (by decide), ← hMagnitude, ofMagnitude_magnitude]

end Binary

end DocumentMapper
