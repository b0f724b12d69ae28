import DocumentMapper.Text.Decimal
import Mathlib.Data.List.Basic
import Mathlib.Data.List.Induction
import Mathlib.Tactic.Ring

/-
  Decimal digits of natural numbers.

  The digits of a number are digits, the first of them is no
  zero unless it is the only one, and they read back as the
  number.

  Key definitions include:
    * `Text.digit`

  Main statements include:
    * `Text.ofNat_of_le`
    * `Text.natOfDigits_ofNat`
    * `Text.natOfDigits_append`
    * `Text.head?_ofNat`
-/

namespace DocumentMapper

namespace Text

------------------------------------------------------------
-- Single Digits
------------------------------------------------------------

/- The byte of a digit. -/
def digit
    (n : Nat) : UInt8 :=
  (Nat.digitChar n).toNat.toUInt8

/- The bytes of digits are digits, and stand for them. -/
theorem digit_spec :
    ∀ n < 10,
      isDigit (digit n) = true ∧ digitValue (digit n) = n ∧
        (digit n = 0x30 → n = 0) := by
  decide

/- A number of one digit. -/
theorem ofNat_of_lt
    {n : Nat}
    (h : n < 10) :
    ofNat n = [digit n] := by
  rw [ofNat, Nat.toDigits_of_lt_base h]
  rfl

/- A number of more digits: the last one stands behind the others. -/
theorem ofNat_of_le
    {n : Nat}
    (h : 10 ≤ n) :
    ofNat n = ofNat (n / 10) ++ [digit (n % 10)] := by
  rw [ofNat, Nat.toDigits_of_base_le (by decide) h,
    List.map_append]
  rfl

/- An induction along the digits of a number. -/
theorem digits_induction
    {P : Nat → Prop}
    (hOne : ∀ n < 10, P n)
    (hMore : ∀ n, 10 ≤ n → P (n / 10) → P n)
    (n : Nat) : P n := by
  induction n using Nat.strong_induction_on with
  | _ n ih =>
      rcases Nat.lt_or_ge n 10 with hLt | hLe
      · exact hOne n hLt
      · exact hMore n hLe (ih (n / 10) (by omega))

------------------------------------------------------------
-- Runs of Digits
------------------------------------------------------------

/- There is at least one digit. -/
@[simp]
theorem ofNat_ne_nil
    (n : Nat) :
    ofNat n ≠ [] := by
  simp [ofNat, Nat.toDigits_ne_nil]

/- All digits are digits. -/
theorem isDigit_of_mem_ofNat
    (n : Nat) :
    ∀ b ∈ ofNat n, isDigit b = true := by
  induction n using digits_induction with
  | hOne n hLt =>
      rw [ofNat_of_lt hLt]
      simpa using (digit_spec n hLt).1
  | hMore n hLe ih =>
      rw [ofNat_of_le hLe]
      have hLast := (digit_spec (n % 10) (by omega)).1
      simpa [or_imp, forall_and, hLast] using ih

/- Only zero begins with a zero. -/
theorem head?_ofNat
    {n : Nat}
    (h : (ofNat n).head? = some 0x30) :
    n = 0 := by
  induction n using digits_induction with
  | hOne n hLt =>
      rw [ofNat_of_lt hLt] at h
      exact (digit_spec n hLt).2.2 (by simpa using h)
  | hMore n hLe ih =>
      rw [ofNat_of_le hLe,
        List.head?_append_of_ne_nil _ (ofNat_ne_nil _)] at h
      have hZero := ih h
      omega

/- No number is written with a leading zero. -/
theorem ofNat_no_leading_zero
    (n : Nat) :
    ¬ ((ofNat n).head? = some 0x30 ∧ (ofNat n).length > 1) := by
  rintro ⟨hHead, hLength⟩
  rcases head?_ofNat hHead with rfl
  rw [ofNat_of_lt (by decide)] at hLength
  exact absurd hLength (by decide)

------------------------------------------------------------
-- Reading Digits
------------------------------------------------------------

/- Digits are read from the left. -/
theorem natOfDigits_append
    (a b : Text) :
    natOfDigits (a ++ b) =
      natOfDigits a * 10 ^ b.length + natOfDigits b := by
  induction b using List.reverseRecOn with
  | nil => simp [natOfDigits, appendDigits]
  | append_singleton b last ih =>
      have hStep :
          ∀ s : Text,
            natOfDigits (s ++ [last]) =
              10 * natOfDigits s + digitValue last := by
        intro s
        simp [natOfDigits, appendDigits, List.foldl_append]
      rw [← List.append_assoc, hStep, hStep, ih,
        List.length_append, List.length_singleton, Nat.pow_succ]
      ring

/- Zeros behind digits move them to the left. -/
theorem natOfDigits_append_zeros
    (a : Text)
    (k : Nat) :
    natOfDigits (a ++ List.replicate k 0x30) =
      natOfDigits a * 10 ^ k := by
  have hZeros : natOfDigits (List.replicate k 0x30) = 0 := by
    induction k with
    | zero => rfl
    | succ k ih =>
        rw [List.replicate_succ, ← List.singleton_append,
          natOfDigits_append, ih]
        simp [natOfDigits, appendDigits, digitValue]
  rw [natOfDigits_append, hZeros, List.length_replicate,
    Nat.add_zero]

/- Zeros in front of digits change nothing. -/
theorem natOfDigits_zeros_append
    (k : Nat)
    (a : Text) :
    natOfDigits (List.replicate k 0x30 ++ a) = natOfDigits a := by
  have hZeros := natOfDigits_append_zeros [] k
  rw [List.nil_append] at hZeros
  rw [natOfDigits_append, hZeros]
  simp [natOfDigits, appendDigits]

/- The digits of a number read back as the number. -/
@[simp]
theorem natOfDigits_ofNat
    (n : Nat) :
    natOfDigits (ofNat n) = n := by
  induction n using digits_induction with
  | hOne n hLt =>
      rw [ofNat_of_lt hLt]
      simpa [natOfDigits, appendDigits]
        using (digit_spec n hLt).2.1
  | hMore n hLe ih =>
      have hLast := (digit_spec (n % 10) (by omega)).2.1
      rw [ofNat_of_le hLe, natOfDigits_append, ih]
      simp only [natOfDigits, appendDigits, List.foldl_cons,
        List.foldl_nil, List.length_singleton, hLast]
      omega

end Text

end DocumentMapper
