import DocumentMapper.Number.Binary
import DocumentMapper.Text.Decimal

/-
  The shortest decimal that reads back as a given binary
  number, and its layout on paper.

  For one, two, three, ... digits the two neighbours of the
  number on the decimal grid with that many digits are read
  back; the first grid with a hit wins. Of two hits the
  nearer is taken, and of two equally near the even one. All
  arithmetic is on natural numbers.

  Key definitions include:
    * `Decimal`
    * `Binary.shortest`
    * `DecimalLayout`
    * `DecimalLayout.render`
-/

namespace DocumentMapper

------------------------------------------------------------
-- Decimals
------------------------------------------------------------

/- The non-negative decimal `coefficient * 10 ^ exponent`. -/
structure Decimal where
  coefficient : Nat
  exponent : Int
  deriving DecidableEq, Repr

namespace Decimal

/-
  Move trailing zeros of the coefficient into the exponent, at
  most `fuel` of them.
-/
def trimZeros
    (fuel : Nat)
    (d : Decimal) : Decimal :=
  match fuel with
  | 0 => d
  | fuel + 1 =>
      if d.coefficient ≠ 0 ∧ d.coefficient % 10 = 0 then
        trimZeros fuel
          ⟨d.coefficient / 10, d.exponent + 1⟩
      else
        d

/- The digits of the coefficient. -/
def digits
    (d : Decimal) : Text :=
  Text.ofNat d.coefficient

/- The place of the point: the value is `0.digits * 10 ^ point`. -/
def point
    (d : Decimal) : Int :=
  d.exponent + d.digits.length

end Decimal

------------------------------------------------------------
-- The Search
------------------------------------------------------------

namespace Binary

variable {f : BinaryFormat}

/-
  The place of the point of the fraction `num / den`: the
  least `n` with `num / den < 10 ^ n`.
-/
def decimalPoint
    (num den : Nat) : Int :=
  if den ≤ num then
    (Nat.toDigits 10 (num / den)).length
  else
    1 - ((Nat.toDigits 10 ((den - 1) / num)).length : Int)

/- A decimal reads back as `x`, sign aside. -/
def readsBack
    (x : Binary f)
    (d : Decimal) : Bool :=
  ofScientific f x.negative d.coefficient d.exponent = x

/-
  The better of the two neighbours of `x` on the grid `10 ^
  exponent`, if one reads back.
-/
def onGrid?
    (x : Binary f)
    (exponent : Int) : Option Decimal :=
  let num := x.units * Nat.pow 10 (-exponent).toNat
  let den := f.unitsPerOne * Nat.pow 10 exponent.toNat
  let below : Decimal := ⟨num / den, exponent⟩
  let above : Decimal := ⟨num / den + 1, exponent⟩
  match x.readsBack below, x.readsBack above with
  | true, true =>
      some <|
        if roundToEven num den = num / den then
          below
        else
          above
  | true, false => some below
  | false, true => some above
  | false, false => none

/-
  All digits of `x`: a number of units is a multiple of a
  power of a half.
-/
def allDigits
    (x : Binary f) : Decimal :=
  let halvings := f.unitsPerOne.log2
  ⟨x.units * Nat.pow 5 halvings, -halvings⟩

/- The shortest decimal that reads back as the finite number `x`. -/
def shortest
    (x : Binary f) : Decimal :=
  if x.units = 0 then
    ⟨0, 0⟩
  else
    let point := decimalPoint x.units f.unitsPerOne
    let found :=
      (List.range (f.fractionBits + 1)).findSome? fun (k : Nat) =>
        x.onGrid? (point - (k + 1))
    let chosen := found.getD x.allDigits
    chosen.trimZeros (chosen.digits.length)

end Binary

------------------------------------------------------------
-- Layout
------------------------------------------------------------

/-
  How a decimal is laid out: the places of the point that are
  written positionally, and the least number of digits of a
  written exponent.
-/
structure DecimalLayout where
  leastPoint : Int
  greatestPoint : Int
  exponentDigits : Nat
  deriving DecidableEq, Repr

namespace DecimalLayout

/- A written exponent: its sign and at least the required digits. -/
def renderExponent
    (layout : DecimalLayout)
    (exponent : Int) : Text :=
  let digits := Text.ofNat exponent.natAbs
  (if exponent < 0 then Text.lit "e-" else Text.lit "e+") ++
    List.replicate (layout.exponentDigits - digits.length) 0x30 ++
    digits

/-
  Write a decimal. A whole number that is written
  positionally ends in `.0`; scientific notation has one digit
  before the point, and no point if that is the only digit.
-/
def render
    (layout : DecimalLayout)
    (d : Decimal) : Text :=
  let digits := d.digits
  let point := d.point
  let zeros (n : Int) : Text := List.replicate n.toNat 0x30
  if d.coefficient = 0 then
    Text.lit "0.0"
  else if layout.greatestPoint < point then
    scientific digits point
  else if (digits.length : Int) ≤ point then
    digits ++ zeros (point - digits.length) ++ Text.lit ".0"
  else if 0 < point then
    digits.take point.toNat ++ Text.lit "." ++
      digits.drop point.toNat
  else if layout.leastPoint < point then
    Text.lit "0." ++ zeros (-point) ++ digits
  else
    scientific digits point
where
  /- One digit, the point and the other digits, and the exponent. -/
  scientific
      (digits : Text)
      (point : Int) : Text :=
    digits.take 1 ++
      (if digits.length ≤ 1 then [] else Text.lit ".") ++
      digits.drop 1 ++
      layout.renderExponent (point - 1)

end DecimalLayout

end DocumentMapper
