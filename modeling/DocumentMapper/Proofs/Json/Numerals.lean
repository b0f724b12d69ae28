import DocumentMapper.Json.Parser
import DocumentMapper.Json.Printer
import DocumentMapper.Proofs.Json.Normal
import DocumentMapper.Proofs.Number.Shortest
import DocumentMapper.Proofs.Text.Digits

/-
  Numbers that are written and read back.

  A written number is read up to what follows a value. A
  whole number is read in its normal form, and a fraction as
  the number whose shortest decimal was written.

  Key definitions include:
    * `Json.Follows`
    * `Json.ReadsAs`
    * `Json.ReadsNumber`

  Main statements include:
    * `Json.readNumeral?_of_parts`
    * `Json.readNumeral?_ofNat`
    * `Json.readsAs_render`
    * `Json.readsNumber_unsigned`, `Json.readsNumber_signed`
    * `Json.readsNumber_real`
-/

namespace DocumentMapper

namespace Json

------------------------------------------------------------
-- Ends of Numbers
------------------------------------------------------------

/- A text that can follow a value: its end, or a separator. -/
def Follows
    (rest : Text) : Prop :=
  ∀ b ∈ rest.head?, b = 0x2C ∨ b = 0x5D ∨ b = 0x7D

/- A text that does not go on with a digit. -/
def EndsDigits
    (rest : Text) : Prop :=
  ∀ b ∈ rest.head?, Text.isDigit b = false

/- What follows a value does not go on with a digit. -/
theorem Follows.endsDigits
    {rest : Text}
    (h : Follows rest) :
    EndsDigits rest := by
  intro b hb
  rcases h b hb with rfl | rfl | rfl <;> decide

/- A run of digits is read up to where it ends. -/
theorem readDigits?_append
    {digits rest : Text}
    (hSome : digits ≠ [])
    (hDigits : ∀ b ∈ digits, Text.isDigit b = true)
    (hEnd : EndsDigits rest) :
    readDigits? (digits ++ rest) = some (digits, rest) := by
  have hTake : rest.takeWhile Text.isDigit = [] := by
    cases rest with
    | nil => rfl
    | cons b rest => simp [hEnd b rfl]
  have hDrop : rest.dropWhile Text.isDigit = rest := by
    cases rest with
    | nil => rfl
    | cons b rest => simp [hEnd b rfl]
  simp only [readDigits?, List.takeWhile_append_of_pos hDigits,
    List.dropWhile_append_of_pos hDigits, hTake, hDrop,
    List.append_nil, hSome, if_false]

/- Where no point stands, there is no fraction. -/
theorem readFraction?_of_follows
    {rest : Text}
    (h : Follows rest) :
    readFraction? rest = some (none, rest) := by
  unfold readFraction?
  split
  · have hHead := h 0x2E rfl
    exact absurd hHead (by decide)
  · rfl

/- A fraction is read behind its point. -/
theorem readFraction?_append
    {digits rest : Text}
    (hSome : digits ≠ [])
    (hDigits : ∀ b ∈ digits, Text.isDigit b = true)
    (hEnd : EndsDigits rest) :
    readFraction? (0x2E :: (digits ++ rest)) =
      some (some digits, rest) := by
  simp [readFraction?, readDigits?_append hSome hDigits hEnd]

/- Where no mark of an exponent stands, there is none. -/
theorem readExponent?_of_follows
    {rest : Text}
    (h : Follows rest) :
    readExponent? rest = some (none, rest) := by
  cases rest with
  | nil => rfl
  | cons b rest =>
      have hMark : ¬ (b = 0x65 ∨ b = 0x45) := by
        rcases h b rfl with rfl | rfl | rfl <;> decide
      rw [readExponent?.eq_def]
      exact if_neg hMark

/- A written exponent begins with its mark. -/
theorem renderExponent_eq_cons
    (l : DecimalLayout)
    (exponent : Int) :
    ∃ tail, l.renderExponent exponent = 0x65 :: tail := by
  unfold DecimalLayout.renderExponent
  split <;> exact ⟨_, rfl⟩

/- The mark of an exponent is no digit. -/
theorem endsDigits_renderExponent
    (l : DecimalLayout)
    (exponent : Int)
    (rest : Text) :
    EndsDigits (l.renderExponent exponent ++ rest) := by
  rcases renderExponent_eq_cons l exponent with ⟨tail, hTail⟩
  rw [hTail]
  intro b hb
  cases hb
  decide

/- The mark of an exponent is no point. -/
theorem readFraction?_renderExponent
    (l : DecimalLayout)
    (exponent : Int)
    (rest : Text) :
    readFraction? (l.renderExponent exponent ++ rest) =
      some (none, l.renderExponent exponent ++ rest) := by
  rcases renderExponent_eq_cons l exponent with ⟨tail, hTail⟩
  rw [hTail]
  rfl

/- A written exponent is read back. -/
theorem readExponent?_renderExponent
    {rest : Text}
    (l : DecimalLayout)
    (exponent : Int)
    (hEnd : EndsDigits rest) :
    readExponent? (l.renderExponent exponent ++ rest) =
      some (some exponent, rest) := by
  have hDigits :
      ∀ b ∈ List.replicate
          (l.exponentDigits -
            (Text.ofNat exponent.natAbs).length) 0x30 ++
          Text.ofNat exponent.natAbs,
        Text.isDigit b = true := by
    intro b hb
    rcases List.mem_append.mp hb with hZero | hDigit
    · rw [List.eq_of_mem_replicate hZero]
      decide
    · exact Text.isDigit_of_mem_ofNat _ b hDigit
  have hRead :=
    readDigits?_append (by simp) hDigits hEnd
  unfold DecimalLayout.renderExponent
  by_cases hSign : exponent < 0
  · have hText : Text.lit "e-" = [0x65, 0x2D] := by decide
    simp only [hSign, if_true, hText, List.cons_append,
      List.nil_append, List.append_assoc]
    rw [List.append_assoc] at hRead
    generalize hAbs : exponent.natAbs = magnitude at hRead ⊢
    simp [readExponent?, readMinus, hRead,
      Text.natOfDigits_zeros_append]
    omega
  · have hText : Text.lit "e+" = [0x65, 0x2B] := by decide
    simp only [hSign, if_false, hText, List.cons_append,
      List.nil_append, List.append_assoc]
    rw [List.append_assoc] at hRead
    generalize hAbs : exponent.natAbs = magnitude at hRead ⊢
    simp [readExponent?, hRead, Text.natOfDigits_zeros_append]
    omega

------------------------------------------------------------
-- Parts of Numbers
------------------------------------------------------------

/- The sign of a number that is written. -/
def sign
    (negative : Bool) : Text :=
  if negative then [0x2D] else []

/- A digit is no minus sign. -/
theorem readMinus_sign
    {negative : Bool}
    {s : Text}
    (h : ∀ b ∈ s.head?, Text.isDigit b = true) :
    readMinus (sign negative ++ s) = (negative, s) := by
  cases negative with
  | true => rfl
  | false =>
      show readMinus s = (false, s)
      unfold readMinus
      split
      · have hDigit := h 0x2D rfl
        exact absurd hDigit (by decide)
      · rfl

/- A number is read part by part. -/
theorem readNumeral?_of_parts
    {negative : Bool}
    {whole tail mid rest : Text}
    {fraction? : Option Text}
    {exponent? : Option Int}
    (hSome : whole ≠ [])
    (hDigits : ∀ b ∈ whole, Text.isDigit b = true)
    (hZero : ¬ (whole.head? = some 0x30 ∧ whole.length > 1))
    (hEnd : EndsDigits tail)
    (hFraction : readFraction? tail = some (fraction?, mid))
    (hExponent : readExponent? mid = some (exponent?, rest)) :
    readNumeral? (sign negative ++ (whole ++ tail)) =
      some (⟨negative, whole, fraction?, exponent?⟩, rest) := by
  have hHead :
      ∀ b ∈ (whole ++ tail).head?, Text.isDigit b = true := by
    intro b hb
    rw [List.head?_append_of_ne_nil _ hSome] at hb
    exact hDigits b (List.mem_of_mem_head? hb)
  simp only [readNumeral?, readMinus_sign hHead,
    readDigits?_append hSome hDigits hEnd, Option.bind_eq_bind,
    Option.bind_some, hZero, if_false, hFraction, hExponent,
    Option.pure_def]

/- The digits of a whole number are read. -/
theorem readNumeral?_ofNat
    {rest : Text}
    (negative : Bool)
    (n : Nat)
    (hFollows : Follows rest) :
    readNumeral? (sign negative ++ (Text.ofNat n ++ rest)) =
      some (⟨negative, Text.ofNat n, none, none⟩, rest) :=
  readNumeral?_of_parts (Text.ofNat_ne_nil n)
    (Text.isDigit_of_mem_ofNat n) (Text.ofNat_no_leading_zero n)
    hFollows.endsDigits (readFraction?_of_follows hFollows)
    (readExponent?_of_follows hFollows)

------------------------------------------------------------
-- Decimals on Paper
------------------------------------------------------------

/-
  A text that is read as a number with a fraction or an
  exponent, of the value of a decimal.
-/
def ReadsAs
    (s : Text)
    (d : Decimal) : Prop :=
  ∀ (negative : Bool) (rest : Text), Follows rest →
    ∃ n : Numeral,
      readNumeral? (sign negative ++ (s ++ rest)) =
          some (n, rest) ∧
        n.negative = negative ∧
        (n.fraction?.isNone && n.exponent?.isNone) = false ∧
        n.toBinary64 =
          Binary.ofScientific binary64 negative d.coefficient
            d.exponent

/- Double precision is wide enough for its exponents. -/
theorem binary64_wide :
    binary64.fractionBits ≤ binary64.exponentSpan := by
  decide

/- Positional notation: digits, a point, digits. -/
theorem readsAs_positional
    {d : Decimal}
    {whole fraction : Text}
    (k : Nat)
    (hSome : whole ≠ [])
    (hWhole : ∀ b ∈ whole, Text.isDigit b = true)
    (hZero : ¬ (whole.head? = some 0x30 ∧ whole.length > 1))
    (hMore : fraction ≠ [])
    (hFraction : ∀ b ∈ fraction, Text.isDigit b = true)
    (hValue :
      Text.natOfDigits (whole ++ fraction) =
        d.coefficient * 10 ^ k)
    (hExponent : d.exponent = k - (fraction.length : Int)) :
    ReadsAs (whole ++ 0x2E :: fraction) d := by
  intro negative rest hFollows
  refine ⟨⟨negative, whole, some fraction, none⟩, ?_, rfl, rfl, ?_⟩
  · rw [List.append_assoc]
    refine readNumeral?_of_parts hSome hWhole hZero ?_
      (readFraction?_append hMore hFraction hFollows.endsDigits)
      (readExponent?_of_follows hFollows)
    intro b hb
    cases hb
    decide
  · simp only [Numeral.toBinary64, Option.getD_some,
      Option.getD_none, hValue]
    rw [Binary.ofScientific_mul_ten_pow binary64_wide, hExponent]
    congr 1
    omega

/- Scientific notation: one digit, the others, the exponent. -/
theorem readsAs_scientific
    (l : DecimalLayout)
    (d : Decimal) :
    ReadsAs (DecimalLayout.render.scientific l d.digits d.point)
      d := by
  have hDigits := Text.isDigit_of_mem_ofNat d.coefficient
  have hValue := Text.natOfDigits_ofNat d.coefficient
  intro negative rest hFollows
  unfold DecimalLayout.render.scientific Decimal.point
    Decimal.digits
  rcases hText : Text.ofNat d.coefficient with
    _ | ⟨first, _ | ⟨second, others⟩⟩
  · exact absurd hText (Text.ofNat_ne_nil _)
  · rw [hText] at hDigits hValue
    refine ⟨⟨negative, [first], none,
      some (d.exponent + 1 - 1)⟩, ?_, rfl, rfl, ?_⟩
    · exact readNumeral?_of_parts (by simp) hDigits (by simp)
        (endsDigits_renderExponent l _ rest)
        (readFraction?_renderExponent l _ rest)
        (readExponent?_renderExponent l _ hFollows.endsDigits)
    · simp [Numeral.toBinary64, hValue]
  · rw [hText] at hDigits hValue
    rw [List.forall_mem_cons] at hDigits
    have hFirst : ∀ b ∈ [first], Text.isDigit b = true := by
      simpa using hDigits.1
    refine ⟨⟨negative, [first], some (second :: others), some
        (d.exponent + (first :: second :: others).length - 1)⟩,
      ?_, rfl, rfl, ?_⟩
    · have hPoint : Text.lit "." = [0x2E] := by decide
      simp only [List.take_succ_cons, List.take_zero,
        List.drop_succ_cons, List.drop_zero, hPoint]
      rw [if_neg (by simp)]
      simp only [List.append_assoc, List.singleton_append]
      rw [← List.singleton_append (x := first)]
      refine readNumeral?_of_parts (by simp) hFirst (by simp) ?_
        (readFraction?_append (by simp) hDigits.2
          (endsDigits_renderExponent l _ rest))
        (readExponent?_renderExponent l _ hFollows.endsDigits)
      intro b hb
      cases hb
      decide
    · simp only [Numeral.toBinary64, Option.getD_some,
        List.singleton_append, hValue]
      congr 1
      simp only [List.length_cons]
      omega

/- However a decimal is laid out, it is read as itself. -/
theorem readsAs_render
    (l : DecimalLayout)
    (d : Decimal) :
    ReadsAs (l.render d) d := by
  have hDigits : ∀ b ∈ d.digits, Text.isDigit b = true :=
    Text.isDigit_of_mem_ofNat d.coefficient
  have hValue : Text.natOfDigits d.digits = d.coefficient :=
    Text.natOfDigits_ofNat d.coefficient
  have hNe : d.digits ≠ [] := Text.ofNat_ne_nil d.coefficient
  have hPositive := List.length_pos_iff.mpr hNe
  have hZeros :
      ∀ k, ∀ b ∈ List.replicate k (0x30 : UInt8),
        Text.isDigit b = true := by
    intro k b hb
    rw [List.eq_of_mem_replicate hb]
    decide
  have hPoint : Text.lit "." = [0x2E] := by decide
  have hPointZero : Text.lit ".0" = [0x2E, 0x30] := by decide
  have hZeroPoint : Text.lit "0." = [0x30, 0x2E] := by decide
  unfold DecimalLayout.render
  dsimp only
  split
  · rename_i hZero
    have hNone : ReadsAs (Text.lit "0.0") ⟨0, -1⟩ :=
      readsAs_positional (d := ⟨0, -1⟩) 0 (by decide) (hZeros 1)
        (by decide) (by decide) (hZeros 1) (by decide)
        (by decide)
    intro negative rest hFollows
    rcases hNone negative rest hFollows with
      ⟨n, hRead, hSign, hParts, hNumber⟩
    refine ⟨n, hRead, hSign, hParts, ?_⟩
    rw [hNumber, hZero]
    simp [Binary.ofScientific]
  · rename_i hCoefficient
    have hHead : d.digits.head? ≠ some 0x30 :=
      fun h => hCoefficient (Text.head?_ofNat h)
    split
    · exact readsAs_scientific l d
    · split
      · -- A whole number: zeros up to the point, and one behind it.
        rename_i hWide
        rw [hPointZero]
        refine readsAs_positional
          ((d.point - d.digits.length).toNat + 1) (by simp [hNe])
          ?_ ?_ (by simp) (hZeros 1) ?_ ?_
        · intro b hb
          rcases List.mem_append.mp hb with hDigit | hZero
          · exact hDigits b hDigit
          · exact hZeros _ b hZero
        · rw [List.head?_append_of_ne_nil _ hNe]
          exact fun h => hHead h.1
        · rw [List.append_assoc, ← List.replicate_succ',
            Text.natOfDigits_append_zeros, hValue]
        · unfold Decimal.point at hWide ⊢
          simp only [List.length_singleton]
          omega
      · split
        · -- The point among the digits.
          rename_i hNarrow hInside
          rw [hPoint, List.append_assoc, List.singleton_append]
          have hTake : d.digits.take d.point.toNat ≠ [] := by
            simp only [ne_eq, List.take_eq_nil_iff, hNe, or_false]
            omega
          apply readsAs_positional 0 hTake
          · exact fun b hb => hDigits b (List.mem_of_mem_take hb)
          · intro h
            apply hHead
            rw [← h.1, List.head?_take, if_neg (by omega)]
          · simp only [ne_eq, List.drop_eq_nil_iff]
            omega
          · exact fun b hb => hDigits b (List.mem_of_mem_drop hb)
          · rw [List.take_append_drop, hValue, Nat.pow_zero,
              Nat.mul_one]
          · rw [List.length_drop]
            unfold Decimal.point at hNarrow hInside ⊢
            omega
        · split
          · -- Zeros between the point and the digits.
            rename_i hBefore _
            rw [hZeroPoint]
            show ReadsAs ([0x30] ++ 0x2E ::
              (List.replicate (-d.point).toNat 0x30 ++ d.digits)) d
            refine readsAs_positional 0 (by simp) (hZeros 1)
              (by simp) (by simp [hNe]) ?_ ?_ ?_
            · intro b hb
              rcases List.mem_append.mp hb with hZero | hDigit
              · exact hZeros _ b hZero
              · exact hDigits b hDigit
            · rw [← List.append_assoc, List.singleton_append,
                ← List.replicate_succ,
                Text.natOfDigits_zeros_append, hValue,
                Nat.pow_zero, Nat.mul_one]
            · rw [List.length_append, List.length_replicate]
              unfold Decimal.point at hBefore ⊢
              omega
          · exact readsAs_scientific l d

------------------------------------------------------------
-- Numbers
------------------------------------------------------------

/- A number whose text is read as its normal form. -/
def ReadsNumber
    (j : Json) : Prop :=
  ∀ rest, Follows rest →
    ∃ n : Numeral,
      readNumeral? (j.render ++ rest) = some (n, rest) ∧
        n.toJson? = some j.normal

/- The digits of a 64-bit word are read as the word. -/
theorem toJson?_ofNat
    {n : Nat}
    (h : n < UInt64.size) :
    (⟨false, Text.ofNat n, none, none⟩ : Numeral).toJson? =
      some (.unsigned n.toUInt64) := by
  simp [Numeral.toJson?, h]

/- Unsigned numbers are read as they are. -/
theorem readsNumber_unsigned
    (n : UInt64) :
    ReadsNumber (.unsigned n) := by
  intro rest hFollows
  refine ⟨_, readNumeral?_ofNat false n.toNat hFollows, ?_⟩
  rw [toJson?_ofNat n.toNat_lt]
  simp [normal]

/- Signed numbers become unsigned, unless they are negative. -/
theorem readsNumber_signed
    (n : Int64) :
    ReadsNumber (.signed n) := by
  intro rest hFollows
  by_cases hSign : 0 ≤ n
  · have hInt : 0 ≤ n.toInt := Int64.le_iff_toInt_le.mp hSign
    have hNat : n.toInt.natAbs = n.toUInt64.toNat := by
      rw [Int64.toNat_toUInt64_of_le hSign]
      show n.toInt.natAbs = n.toInt.toNat
      omega
    have hText :
        (Json.signed n).render =
          (Json.unsigned n.toUInt64).render := by
      rw [render, render, Text.ofInt,
        if_neg (Int.not_lt.mpr hInt), hNat]
    rw [hText, normal, if_pos hSign]
    exact readsNumber_unsigned n.toUInt64 rest hFollows
  · have hInt : n.toInt < 0 := by
      rw [Int64.le_iff_toInt_le] at hSign
      exact Int.not_le.mp hSign
    have hText :
        (Json.signed n).render =
          sign true ++ Text.ofNat n.toInt.natAbs := by
      rw [render, Text.ofInt, if_pos hInt]
      rfl
    have hBack : -(n.toInt.natAbs : Int) = n.toInt := by omega
    have hLow : -9223372036854775808 ≤ n.toInt := n.le_toInt
    refine ⟨⟨true, Text.ofNat n.toInt.natAbs, none, none⟩, ?_, ?_⟩
    · rw [hText, List.append_assoc]
      exact readNumeral?_ofNat true _ hFollows
    · rw [normal, if_neg hSign]
      generalize n.toInt.natAbs = magnitude at hBack ⊢
      simp [Numeral.toJson?, hBack, hLow]

/- Finite fractions are read as they are. -/
theorem readsNumber_real
    {x : Binary64}
    (hFinite : x.isFinite = true) :
    ReadsNumber (.real x) := by
  intro rest hFollows
  have hBack :=
    Binary.readsBack_iff.mp
      (Binary.readsBack_shortest binary64_wide hFinite)
  rcases readsAs_render layout x.shortest x.negative rest
      hFollows with
    ⟨n, hRead, hSign, hParts, hValue⟩
  have hMinus : Text.lit "-" = [0x2D] := by decide
  refine ⟨n, ?_, ?_⟩
  · rw [render, renderReal, if_pos hFinite, hMinus,
      List.append_assoc]
    exact hRead
  · rw [hBack] at hValue
    simp [Numeral.toJson?, hParts, hValue, hFinite, normal]

end Json

end DocumentMapper
