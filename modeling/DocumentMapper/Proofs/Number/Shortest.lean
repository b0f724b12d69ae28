import DocumentMapper.Number.Shortest
import DocumentMapper.Proofs.Number.Rounding

/-
  The shortest decimal reads back.

  Whichever decimal the search chooses, it was read back
  before it was chosen, or it has all digits of the number;
  dropping zeros changes neither.

  Main statements include:
    * `Binary.readsBack_of_onGrid?`
    * `Binary.readsBack_allDigits`
    * `Binary.readsBack_shortest`
-/

namespace DocumentMapper

namespace Binary

variable {f : BinaryFormat}
variable {x : Binary f}

/- A decimal reads back as a number exactly if it is read as it. -/
theorem readsBack_iff
    {d : Decimal} :
    x.readsBack d = true ↔
      ofScientific f x.negative d.coefficient d.exponent = x := by
  simp [readsBack]

/- A hit on a grid reads back. -/
theorem readsBack_of_onGrid?
    {exponent : Int}
    {d : Decimal}
    (h : x.onGrid? exponent = some d) :
    x.readsBack d = true := by
  unfold onGrid? at h
  dsimp only at h
  split at h
  · rename_i hBelow hAbove
    split at h
    · cases h
      exact hBelow
    · cases h
      exact hAbove
  · rename_i hBelow _
    cases h
    exact hBelow
  · rename_i _ hAbove
    cases h
    exact hAbove
  · cases h

/- All digits of a finite number read back. -/
theorem readsBack_allDigits
    (hWide : f.fractionBits ≤ f.exponentSpan)
    (hFinite : x.isFinite = true) :
    x.readsBack x.allDigits = true := by
  rw [readsBack_iff, ofScientific_eq_ofRatio hWide]
  have hUnits : f.unitsPerOne = 2 ^ f.unitsPerOne.log2 := by
    have hLog :
        f.unitsPerOne.log2 =
          f.exponentSpan / 2 - 2 + f.fractionBits :=
      Nat.log2_two_pow
    rw [hLog]
    rfl
  simp only [allDigits, Int.neg_neg, Int.toNat_natCast,
    Int.toNat_neg_natCast, Nat.pow_eq, Nat.pow_zero, Nat.mul_one]
  generalize f.unitsPerOne.log2 = halvings at hUnits
  have hTen : 10 ^ halvings = f.unitsPerOne * 5 ^ halvings := by
    rw [hUnits, ← Nat.mul_pow]
  rw [hTen, ofRatio_mul _ _ _ (Nat.pow_pos (by decide)),
    ofRatio_units hFinite]

/- Dropping zeros does not change what is read. -/
theorem readsBack_trimZeros
    (hWide : f.fractionBits ≤ f.exponentSpan)
    {d : Decimal}
    (h : x.readsBack d = true)
    (fuel : Nat) :
    x.readsBack (d.trimZeros fuel) = true := by
  induction fuel generalizing d with
  | zero => exact h
  | succ fuel ih =>
      rw [Decimal.trimZeros]
      split
      · rename_i hZero
        apply ih
        have hTen : d.coefficient / 10 * 10 ^ 1 = d.coefficient := by
          omega
        rw [readsBack_iff] at h ⊢
        rw [← hTen, ofScientific_mul_ten_pow hWide] at h
        exact h
      · exact h

/- The shortest decimal of a finite number reads back as it. -/
theorem readsBack_shortest
    (hWide : f.fractionBits ≤ f.exponentSpan)
    (hFinite : x.isFinite = true) :
    x.readsBack x.shortest = true := by
  unfold shortest
  split
  · rename_i hZero
    have hMagnitude := nearestMagnitude_units hFinite
    have hNone : nearestMagnitude f 0 1 = 0 :=
      nearestMagnitude_of_small (by decide)
    rw [hZero, hNone] at hMagnitude
    rw [readsBack_iff]
    show ofMagnitude f x.negative 0 = x
    rw [hMagnitude, ofMagnitude_magnitude]
  · refine readsBack_trimZeros hWide ?_ _
    generalize hSearch : List.findSome? _ _ = found
    cases found with
    | none => exact readsBack_allDigits hWide hFinite
    | some d =>
        rcases List.exists_of_findSome?_eq_some hSearch with
          ⟨k, -, hHit⟩
        exact readsBack_of_onGrid? hHit

end Binary

end DocumentMapper
