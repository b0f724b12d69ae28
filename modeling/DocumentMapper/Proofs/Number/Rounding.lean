import DocumentMapper.Number.Binary
import Mathlib.Tactic.Ring

/-
  Rounding to binary numbers.

  A fraction can be reduced before it is rounded, a number of
  units that has a pattern is rounded to that pattern, and so
  every finite number is the one nearest to its own value.

  Main statements include:
    * `nearestMagnitude_mul`
    * `Binary.nearestMagnitude_units`
    * `Binary.ofMagnitude_magnitude`
    * `Binary.ofRatio_units`
    * `Binary.ofScientific_eq_ofRatio`
    * `Binary.ofScientific_mul_ten_pow`
-/

namespace DocumentMapper

variable {f : BinaryFormat}

------------------------------------------------------------
-- Fractions
------------------------------------------------------------

/- A fraction is rounded as its reduced form. -/
theorem roundToEven_mul
    (num den : Nat)
    {k : Nat}
    (hk : 0 < k) :
    roundToEven (num * k) (den * k) = roundToEven num den := by
  have hBelow :
      2 * (num % den * k) < den * k ↔ 2 * (num % den) < den := by
    rw [← Nat.mul_assoc]
    exact Nat.mul_lt_mul_right hk
  have hAbove :
      den * k < 2 * (num % den * k) ↔ den < 2 * (num % den) := by
    rw [← Nat.mul_assoc]
    exact Nat.mul_lt_mul_right hk
  simp only [roundToEven, Nat.mul_div_mul_right _ _ hk,
    Nat.mul_mod_mul_right, hBelow, hAbove]

/- A whole number is rounded to itself. -/
theorem roundToEven_of_dvd
    (n : Nat)
    {den : Nat}
    (hDen : 0 < den) :
    roundToEven (n * den) den = n := by
  simp [roundToEven, Nat.mul_div_cancel _ hDen, hDen]

/- A fraction has the pattern of its reduced form. -/
theorem nearestMagnitude_mul
    (num den : Nat)
    {k : Nat}
    (hk : 0 < k) :
    nearestMagnitude f (num * k) (den * k) =
      nearestMagnitude f num den := by
  have hPower :
      ∀ p, den * k * p = den * p * k := fun p => by ring
  simp only [nearestMagnitude, Nat.mul_div_mul_right _ _ hk,
    hPower, roundToEven_mul _ _ hk]

/- A fraction has the number of its reduced form. -/
theorem Binary.ofRatio_mul
    (negative : Bool)
    (num den : Nat)
    {k : Nat}
    (hk : 0 < k) :
    Binary.ofRatio f negative (num * k) (den * k) =
      Binary.ofRatio f negative num den := by
  have hUnits :
      num * k * f.unitsPerOne = num * f.unitsPerOne * k := by ring
  rw [Binary.ofRatio, hUnits, nearestMagnitude_mul _ _ hk,
    Binary.ofRatio]

------------------------------------------------------------
-- Patterns
------------------------------------------------------------

namespace BinaryFormat

/- Spans are powers of two. -/
theorem fractionSpan_eq
    (f : BinaryFormat) :
    f.fractionSpan = 2 ^ f.fractionBits :=
  rfl

/- There is a pattern of the fraction field. -/
theorem fractionSpan_pos
    (f : BinaryFormat) :
    0 < f.fractionSpan :=
  Nat.two_pow_pos _

/- There are units in one. -/
theorem unitsPerOne_pos
    (f : BinaryFormat) :
    0 < f.unitsPerOne :=
  Nat.two_pow_pos _

/- The sign stands in front of exponent and fraction. -/
theorem signWeight_eq
    (f : BinaryFormat) :
    f.signWeight = 2 ^ (f.exponentBits + f.fractionBits) := by
  rw [Nat.pow_add]
  rfl

/- Half of the patterns have a sign. -/
theorem two_mul_signWeight
    (f : BinaryFormat) :
    2 * f.signWeight = 2 ^ f.width := by
  rw [signWeight_eq, width, Nat.add_assoc, Nat.pow_add 2 1,
    Nat.pow_one]

/- Behind infinity there is a pattern for each fraction. -/
theorem infinity_add_fractionSpan
    (f : BinaryFormat) :
    f.infinity + f.fractionSpan = f.signWeight := by
  have hExponent : 1 ≤ f.exponentSpan := Nat.one_le_two_pow
  rw [infinity, signWeight, ← Nat.succ_mul, Nat.succ_eq_add_one,
    Nat.sub_add_cancel hExponent]

/- Infinity is a pattern without a sign. -/
theorem infinity_lt_signWeight
    (f : BinaryFormat) :
    f.infinity < f.signWeight := by
  rw [← f.infinity_add_fractionSpan]
  exact Nat.lt_add_of_pos_right f.fractionSpan_pos

end BinaryFormat

namespace Binary

/- A number is its sign and its magnitude. -/
theorem ofMagnitude_magnitude
    (x : Binary f) :
    ofMagnitude f x.negative x.magnitude = x := by
  rcases x with ⟨bits⟩
  have hSpan := f.two_mul_signWeight
  have hLt := bits.isLt
  have hMsb : bits.msb = decide (f.signWeight ≤ bits.toNat) := by
    rw [BitVec.msb_eq_decide, f.signWeight_eq]
    congr 2
    rw [BinaryFormat.width]
    congr 1
    omega
  have hSum :
      bits.toNat % f.signWeight +
          (if bits.msb then f.signWeight else 0) =
        bits.toNat := by
    rw [hMsb]
    by_cases hSign : f.signWeight ≤ bits.toNat
    · rw [Nat.mod_eq_sub_mod hSign, Nat.mod_eq_of_lt (by omega)]
      simp only [hSign, decide_true, if_true]
      omega
    · rw [Nat.mod_eq_of_lt (by omega)]
      simp [hSign]
  unfold ofMagnitude magnitude negative
  rw [hSum, BitVec.ofNat_toNat, BitVec.setWidth_eq]

/- A magnitude below the sign is kept. -/
theorem magnitude_ofMagnitude
    (negative : Bool)
    {m : Nat}
    (h : m < f.signWeight) :
    (ofMagnitude f negative m).magnitude = m := by
  have hSpan := f.two_mul_signWeight
  have hFits :
      (m + if negative then f.signWeight else 0) < 2 ^ f.width := by
    split <;> omega
  rw [magnitude, ofMagnitude, BitVec.toNat_ofNat,
    Nat.mod_eq_of_lt hFits]
  split
  · rw [Nat.add_mod_right, Nat.mod_eq_of_lt h]
  · rw [Nat.add_zero, Nat.mod_eq_of_lt h]

/- A sign is kept. -/
theorem negative_ofMagnitude
    (negative : Bool)
    {m : Nat}
    (h : m < f.signWeight) :
    (ofMagnitude f negative m).negative = negative := by
  have hSpan := f.two_mul_signWeight
  have hFits :
      (m + if negative then f.signWeight else 0) < 2 ^ f.width := by
    split <;> omega
  have hWidth : 2 ^ (f.width - 1) = f.signWeight := by
    rw [f.signWeight_eq, BinaryFormat.width]
    congr 1
    omega
  rw [Binary.negative, ofMagnitude, BitVec.msb_eq_decide,
    BitVec.toNat_ofNat, Nat.mod_eq_of_lt hFits, hWidth]
  cases negative with
  | true => simp
  | false => simpa using h

/- The exponent field of a finite number counts doublings. -/
theorem units_eq
    (x : Binary f) :
    x.units =
      if x.magnitude / f.fractionSpan = 0 then
        x.magnitude % f.fractionSpan
      else
        (f.fractionSpan + x.magnitude % f.fractionSpan) *
          2 ^ (x.magnitude / f.fractionSpan - 1) := by
  unfold units
  cases x.magnitude / f.fractionSpan with
  | zero => rfl
  | succ exponent => rfl

/- A count of units without a doubling is its own pattern. -/
theorem nearestMagnitude_of_lt
    {n : Nat}
    (h : n < f.fractionSpan)
    (hFinite : n < f.infinity) :
    nearestMagnitude f n 1 = n := by
  have hLog : n.log2 ≤ f.fractionBits := by
    rcases Nat.eq_zero_or_pos n with rfl | hPos
    · simp
    · exact Nat.le_of_lt ((Nat.log2_lt hPos.ne').mpr h)
  have hRound := roundToEven_of_dvd n Nat.one_pos
  rw [Nat.mul_one] at hRound
  rw [nearestMagnitude, Nat.div_one,
    Nat.sub_eq_zero_of_le hLog]
  simp only [Nat.zero_mul, Nat.zero_add, Nat.pow_eq,
    Nat.pow_zero, Nat.mul_one, hRound]
  exact Nat.min_eq_right (Nat.le_of_lt hFinite)

/- Doublings of a full count of units stand in the exponent field. -/
theorem nearestMagnitude_doubled
    {significand exponent : Nat}
    (hLow : f.fractionSpan ≤ significand)
    (hHigh : significand < 2 * f.fractionSpan)
    (hFinite :
      exponent * f.fractionSpan + significand < f.infinity) :
    nearestMagnitude f (significand * 2 ^ exponent) 1 =
      exponent * f.fractionSpan + significand := by
  have hPos : significand * 2 ^ exponent ≠ 0 :=
    (Nat.mul_pos (Nat.lt_of_lt_of_le f.fractionSpan_pos hLow)
      (Nat.two_pow_pos _)).ne'
  have hLog :
      (significand * 2 ^ exponent).log2 =
        f.fractionBits + exponent := by
    rw [Nat.log2_eq_iff hPos]
    rw [f.fractionSpan_eq] at hLow hHigh
    constructor
    · rw [Nat.pow_add]
      exact Nat.mul_le_mul_right _ hLow
    · rw [Nat.pow_succ, Nat.pow_add, Nat.mul_right_comm,
        Nat.mul_comm (2 ^ f.fractionBits) 2]
      exact Nat.mul_lt_mul_of_pos_right hHigh (Nat.two_pow_pos _)
  have hRound :=
    roundToEven_of_dvd significand (Nat.two_pow_pos exponent)
  rw [nearestMagnitude, Nat.div_one, hLog,
    Nat.add_sub_cancel_left]
  simp only [Nat.pow_eq, Nat.one_mul, hRound]
  exact Nat.min_eq_right (Nat.le_of_lt hFinite)

/- A finite number is the nearest one to its own units. -/
theorem nearestMagnitude_units
    {x : Binary f}
    (h : x.isFinite = true) :
    nearestMagnitude f x.units 1 = x.magnitude := by
  have hFinite : x.magnitude < f.infinity := by
    simpa [isFinite] using h
  have hSplit := Nat.div_add_mod' x.magnitude f.fractionSpan
  have hRest := Nat.mod_lt x.magnitude f.fractionSpan_pos
  rw [units_eq]
  by_cases hSmall : x.magnitude / f.fractionSpan = 0
  · rw [if_pos hSmall]
    rw [hSmall, Nat.zero_mul, Nat.zero_add] at hSplit
    rw [hSplit] at hRest ⊢
    exact nearestMagnitude_of_lt hRest hFinite
  · rw [if_neg hSmall]
    rcases Nat.exists_eq_succ_of_ne_zero hSmall with
      ⟨exponent, hExponent⟩
    rw [hExponent, Nat.succ_mul] at hSplit
    rw [hExponent, Nat.succ_sub_one,
      nearestMagnitude_doubled] <;> omega

/- A finite number is the nearest one to its own value. -/
theorem ofRatio_units
    {x : Binary f}
    (h : x.isFinite = true) :
    ofRatio f x.negative x.units f.unitsPerOne = x := by
  have hReduced :=
    nearestMagnitude_mul (f := f) x.units 1 f.unitsPerOne_pos
  rw [Nat.one_mul, nearestMagnitude_units h] at hReduced
  rw [ofRatio, hReduced, ofMagnitude_magnitude]

------------------------------------------------------------
-- Decimals
------------------------------------------------------------

/- Beyond the greatest number everything is infinite. -/
theorem nearestMagnitude_of_large
    {n : Nat}
    (h : 2 ^ (f.exponentSpan + f.fractionBits) ≤ n) :
    nearestMagnitude f n 1 = f.infinity := by
  have hNe : n ≠ 0 := by
    rintro rfl
    exact absurd h (Nat.not_le.mpr (Nat.two_pow_pos _))
  have hLog : f.exponentSpan + f.fractionBits ≤ n.log2 :=
    (Nat.le_log2 hNe).mpr h
  have hShift :
      f.infinity ≤ (n.log2 - f.fractionBits) * f.fractionSpan :=
    Nat.mul_le_mul_right _ (by omega)
  rw [nearestMagnitude, Nat.div_one]
  exact Nat.min_eq_left (Nat.le_add_right_of_le hShift)

/- Less than half a unit is nothing. -/
theorem nearestMagnitude_of_small
    {num den : Nat}
    (h : 2 * num < den) :
    nearestMagnitude f num den = 0 := by
  have hDiv : num / den = 0 := Nat.div_eq_of_lt (by omega)
  have hMod : num % den = num := Nat.mod_eq_of_lt (by omega)
  simp [nearestMagnitude, hDiv, roundToEven, hMod, h]

/-
  The exponents that are decided without their power are
  decided as the power would have it.
-/
theorem ofScientific_eq_ofRatio
    (hWide : f.fractionBits ≤ f.exponentSpan)
    (negative : Bool)
    (digits : Nat)
    (exponent : Int) :
    ofScientific f negative digits exponent =
      ofRatio f negative (digits * 10 ^ exponent.toNat)
        (10 ^ (-exponent).toNat) := by
  unfold ofScientific
  split
  · rename_i hZero
    have hPower : 2 * 0 < 10 ^ (-exponent).toNat :=
      Nat.pow_pos (by decide)
    have hNone := nearestMagnitude_of_small (f := f) hPower
    rw [hZero, Nat.zero_mul, ofRatio, Nat.zero_mul, hNone]
  · rename_i hDigits
    split
    · rename_i hLarge
      have hDen : (-exponent).toNat = 0 := by omega
      have hExponent : f.exponentSpan ≤ exponent.toNat := by omega
      have hPower : 2 ^ f.exponentSpan ≤ 10 ^ exponent.toNat :=
        (Nat.pow_le_pow_right (by decide) hExponent).trans
          (Nat.pow_le_pow_left (by decide) _)
      have hUnits : 2 ^ f.fractionBits ≤ f.unitsPerOne :=
        Nat.pow_le_pow_right (by decide) (by omega)
      have hAll :
          2 ^ (f.exponentSpan + f.fractionBits) ≤
            digits * 10 ^ exponent.toNat * f.unitsPerOne := by
        rw [Nat.pow_add]
        refine Nat.mul_le_mul ?_ hUnits
        exact hPower.trans
          (Nat.le_mul_of_pos_left _ (Nat.pos_of_ne_zero hDigits))
      rw [ofRatio, hDen, Nat.pow_zero,
        nearestMagnitude_of_large hAll]
    · split
      · rename_i hSmall
        have hNum : exponent.toNat = 0 := by omega
        have hExponent :
            f.exponentSpan + digits.log2 + 1 ≤
              (-exponent).toNat := by omega
        have hAll :
            2 * (digits * f.unitsPerOne) <
              10 ^ (-exponent).toNat := by
          have hDigits : digits < 2 ^ (digits.log2 + 1) :=
            Nat.lt_log2_self
          calc
            2 * (digits * f.unitsPerOne)
              < 2 * (2 ^ (digits.log2 + 1) * f.unitsPerOne) := by
                have hLt :=
                  Nat.mul_lt_mul_of_pos_right hDigits
                    f.unitsPerOne_pos
                omega
            _ = 2 ^ (1 + (digits.log2 + 1) +
                  (f.exponentSpan / 2 - 2 + f.fractionBits)) := by
                rw [Nat.pow_add 2 (1 + _), Nat.pow_add 2 1,
                  Nat.pow_one, Nat.mul_assoc]
                rfl
            _ ≤ 2 ^ (3 * (-exponent).toNat) :=
                Nat.pow_le_pow_right (by decide) (by omega)
            _ = 8 ^ (-exponent).toNat := by rw [Nat.pow_mul]
            _ ≤ 10 ^ (-exponent).toNat :=
                Nat.pow_le_pow_left (by decide) _
        rw [ofRatio, hNum, Nat.pow_zero, Nat.mul_one,
          nearestMagnitude_of_small hAll]
      · rfl

/- Zeros behind the digits and steps of the exponent are one. -/
theorem ofScientific_mul_ten_pow
    (hWide : f.fractionBits ≤ f.exponentSpan)
    (negative : Bool)
    (digits k : Nat)
    (exponent : Int) :
    ofScientific f negative (digits * 10 ^ k) exponent =
      ofScientific f negative digits (exponent + k) := by
  rw [ofScientific_eq_ofRatio hWide,
    ofScientific_eq_ofRatio hWide]
  -- Both fractions are the same once ten to a power is cancelled.
  have hCancel :
      k + exponent.toNat + (-(exponent + k)).toNat =
        (exponent + k).toNat + (-exponent).toNat := by omega
  rw [← ofRatio_mul negative (digits * 10 ^ k * _) _
      (Nat.pow_pos (n := (-(exponent + k)).toNat)
        (by decide : 0 < 10)),
    ← ofRatio_mul negative (digits * 10 ^ (exponent + k).toNat) _
      (Nat.pow_pos (n := (-exponent).toNat) (by decide : 0 < 10))]
  congr 1
  · simp only [Nat.mul_assoc, ← Nat.pow_add]
    rw [← hCancel, Nat.add_assoc]
  · rw [Nat.mul_comm]

end Binary

end DocumentMapper
