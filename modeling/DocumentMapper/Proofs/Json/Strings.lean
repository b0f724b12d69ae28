import DocumentMapper.Json.Parser
import DocumentMapper.Json.Printer
import Mathlib.Tactic.SplitIfs

/-
  Strings that are written and read back.

  Every byte is read as it was written, whether it stands for
  itself or is escaped by a letter or by its number.

  Main statements include:
    * `Json.readCharacters?_escapeByte`
    * `Json.readCharacters?_escaped`
    * `Json.readString?_escaped`
-/

namespace DocumentMapper

namespace Json

------------------------------------------------------------
-- Single Bytes
------------------------------------------------------------

/- An escape of one letter is read as its character. -/
theorem readCharacters?_simpleEscape
    {mark b : UInt8}
    (hMark : mark ≠ 0x75)
    (hEscape : simpleEscape? mark = some b)
    (fuel : Nat)
    (rest : Text) :
    readCharacters? (fuel + 1) (0x5C :: mark :: rest) =
      (readCharacters? fuel rest).map fun (chars, rest) =>
        (b :: chars, rest) := by
  rw [readCharacters?.eq_def]
  simp only [show ¬ ((0x5C : UInt8) = 0x22) by decide,
    show ¬ ((0x5C : UInt8) < 0x20) by decide, if_false, if_true]
  rw [hEscape]
  cases readCharacters? fuel rest <;> rfl

/- The two digits of a control character are its number. -/
theorem hexValue?_control
    {b : UInt8}
    (h : b < 0x20) :
    hexValue? (hexDigit (b / 16)) = some (b.toNat / 16) ∧
      hexValue? (hexDigit (b % 16)) = some (b.toNat % 16) := by
  have hAll :
      ∀ n < 0x20,
        hexValue? (hexDigit (UInt8.ofNat n / 16)) =
            some (n / 16) ∧
          hexValue? (hexDigit (UInt8.ofNat n % 16)) =
            some (n % 16) := by
    decide
  have hb := hAll b.toNat (UInt8.lt_iff_toNat_lt.mp h)
  rwa [UInt8.ofNat_toNat] at hb

/- An escape by number is read as its character. -/
theorem readCharacters?_control
    {b : UInt8}
    (h : b < 0x20)
    (fuel : Nat)
    (rest : Text) :
    readCharacters? (fuel + 1)
        (0x5C :: 0x75 :: 0x30 :: 0x30 :: hexDigit (b / 16) ::
          hexDigit (b % 16) :: rest) =
      (readCharacters? fuel rest).map fun (chars, rest) =>
        (b :: chars, rest) := by
  rcases hexValue?_control h with ⟨hHigh, hLow⟩
  have hNat : b.toNat < 0x20 := UInt8.lt_iff_toNat_lt.mp h
  have hZero : hexValue? 0x30 = some 0 := by decide
  have hNumber :
      ((0 * 16 + 0) * 16 + b.toNat / 16) * 16 + b.toNat % 16 =
        b.toNat := by omega
  have hScalar :
      readScalar?
          (0x30 :: 0x30 :: hexDigit (b / 16) ::
            hexDigit (b % 16) :: rest) =
        some (b.toNat, rest) := by
    simp only [readScalar?, readHex?, hZero, hHigh, hLow, hNumber,
      Option.bind_eq_bind, Option.bind_some, Option.pure_def]
    rw [if_neg (by omega), if_neg (by omega)]
  have hText : Text.ofScalar b.toNat = [b] := by
    rw [Text.ofScalar, if_pos (by omega)]
    simp
  rw [readCharacters?.eq_def]
  simp only [show ¬ ((0x5C : UInt8) = 0x22) by decide,
    show ¬ ((0x5C : UInt8) < 0x20) by decide, if_false, if_true]
  rw [hScalar]
  simp only [Option.bind_eq_bind, Option.bind_some, hText]
  cases readCharacters? fuel rest <;> rfl

/- A byte that stands for itself is read as itself. -/
theorem readCharacters?_plain
    {b : UInt8}
    (hQuote : b ≠ 0x22)
    (hControl : ¬ b < 0x20)
    (hEscape : b ≠ 0x5C)
    (fuel : Nat)
    (rest : Text) :
    readCharacters? (fuel + 1) (b :: rest) =
      (readCharacters? fuel rest).map fun (chars, rest) =>
        (b :: chars, rest) := by
  rw [readCharacters?.eq_def]
  simp only [hQuote, hControl, hEscape, if_false]
  cases readCharacters? fuel rest <;> rfl

/- Every byte is read as it was written. -/
theorem readCharacters?_escapeByte
    (b : UInt8)
    (fuel : Nat)
    (rest : Text) :
    readCharacters? (fuel + 1) (escapeByte b ++ rest) =
      (readCharacters? fuel rest).map fun (chars, rest) =>
        (b :: chars, rest) := by
  have hLetter :
      ∀ mark, mark ≠ 0x75 → simpleEscape? mark = some b →
        readCharacters? (fuel + 1) ([0x5C, mark] ++ rest) =
          (readCharacters? fuel rest).map fun (chars, rest) =>
            (b :: chars, rest) :=
    fun mark hMark hEscape =>
      readCharacters?_simpleEscape hMark hEscape fuel rest
  unfold escapeByte
  split_ifs with hQuote hSlash hBack hFeed hLine hReturn hTab hLow
  · exact hLetter 0x22 (by decide) (by rw [hQuote]; rfl)
  · exact hLetter 0x5C (by decide) (by rw [hSlash]; rfl)
  · exact hLetter 0x62 (by decide) (by rw [hBack]; rfl)
  · exact hLetter 0x66 (by decide) (by rw [hFeed]; rfl)
  · exact hLetter 0x6E (by decide) (by rw [hLine]; rfl)
  · exact hLetter 0x72 (by decide) (by rw [hReturn]; rfl)
  · exact hLetter 0x74 (by decide) (by rw [hTab]; rfl)
  · exact readCharacters?_control hLow fuel rest
  · exact readCharacters?_plain hQuote hLow hSlash fuel rest

------------------------------------------------------------
-- Strings
------------------------------------------------------------

/- An escaped byte takes at least one byte. -/
theorem length_escapeByte_pos
    (b : UInt8) :
    0 < (escapeByte b).length := by
  unfold escapeByte
  split_ifs <;> exact Nat.succ_pos _

/- Escaped bytes are read up to the closing quote. -/
theorem readCharacters?_escaped
    {s : Text}
    {fuel : Nat}
    (rest : Text)
    (hFuel : s.length < fuel) :
    readCharacters? fuel (s.flatMap escapeByte ++ 0x22 :: rest) =
      some (s, rest) := by
  induction s generalizing fuel with
  | nil =>
      rcases Nat.exists_eq_succ_of_ne_zero
          (Nat.ne_zero_of_lt hFuel) with
        ⟨fuel, rfl⟩
      rw [readCharacters?.eq_def]
      rfl
  | cons b s ih =>
      rcases Nat.exists_eq_succ_of_ne_zero
          (Nat.ne_zero_of_lt hFuel) with
        ⟨fuel, rfl⟩
      rw [List.flatMap_cons, List.append_assoc,
        readCharacters?_escapeByte, ih (by simpa using hFuel)]
      rfl

/- A written string is read back, if its bytes are UTF-8. -/
theorem readString?_escaped
    {s : Text}
    (rest : Text)
    (hUtf8 : s.isUtf8 = true) :
    readString? (s.flatMap escapeByte ++ 0x22 :: rest) =
      some (s, rest) := by
  have hLength : s.length ≤ (s.flatMap escapeByte).length := by
    clear hUtf8
    induction s with
    | nil => simp
    | cons b s ih =>
        have hByte := length_escapeByte_pos b
        rw [List.flatMap_cons, List.length_append,
          List.length_cons]
        omega
  have hFuel :
      s.length <
        (s.flatMap escapeByte ++ 0x22 :: rest).length := by
    rw [List.length_append, List.length_cons]
    omega
  rw [readString?, readCharacters?_escaped rest hFuel]
  simp [hUtf8]

end Json

end DocumentMapper
