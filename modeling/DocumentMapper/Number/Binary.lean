/-
  Binary floating-point numbers, as bit patterns with an
  exact meaning.

  A finite magnitude is a whole number of *units*, the
  smallest subnormal of its format. Every conversion is
  computed on exact fractions of such units and rounded once,
  to the nearest number, ties to the even pattern. Patterns
  are kept as they are, so that two NaNs stay apart.

  Key definitions include:
    * `BinaryFormat`, `binary32`, `binary64`
    * `Binary`
    * `Binary.units`
    * `Binary.sameValue`
    * `Binary.ofRatio`
    * `Binary.ofInt`
    * `Binary.ofScientific`
    * `Binary.convert`
-/

namespace DocumentMapper

------------------------------------------------------------
-- Formats
------------------------------------------------------------

/- A binary interchange format: the widths of its two fields. -/
structure BinaryFormat where
  fractionBits : Nat
  exponentBits : Nat
  deriving DecidableEq, Repr

/- Single precision. -/
abbrev binary32 : BinaryFormat :=
  ⟨23, 8⟩

/- Double precision. -/
abbrev binary64 : BinaryFormat :=
  ⟨52, 11⟩

namespace BinaryFormat

/- The width of a pattern: sign, exponent and fraction. -/
abbrev width
    (f : BinaryFormat) : Nat :=
  1 + f.exponentBits + f.fractionBits

/- The number of patterns of the fraction field. -/
def fractionSpan
    (f : BinaryFormat) : Nat :=
  Nat.pow 2 f.fractionBits

/- The number of patterns of the exponent field. -/
def exponentSpan
    (f : BinaryFormat) : Nat :=
  Nat.pow 2 f.exponentBits

/- The weight of the sign bit: the number of patterns without it. -/
def signWeight
    (f : BinaryFormat) : Nat :=
  f.exponentSpan * f.fractionSpan

/- The pattern of infinity; greater magnitudes are NaNs. -/
def infinity
    (f : BinaryFormat) : Nat :=
  (f.exponentSpan - 1) * f.fractionSpan

/- The number of units that make one. -/
def unitsPerOne
    (f : BinaryFormat) : Nat :=
  Nat.pow 2 (f.exponentSpan / 2 - 2 + f.fractionBits)

end BinaryFormat

------------------------------------------------------------
-- Rounding
------------------------------------------------------------

/-
  The natural number nearest to `num / den`; a half goes to
  the even one.
-/
def roundToEven
    (num den : Nat) : Nat :=
  let floor := num / den
  let rest := num % den
  if 2 * rest < den then
    floor
  else if den < 2 * rest then
    floor + 1
  else
    floor + floor % 2

/-
  The magnitude pattern nearest to `num / den` units. Below
  two to the power of the fraction width the pattern is the
  rounded count itself; above, each doubling moves the
  pattern by one step of the exponent field. A fraction that
  rounds up to the next power of two carries into it.
-/
def nearestMagnitude
    (f : BinaryFormat)
    (num den : Nat) : Nat :=
  let shift := (num / den).log2 - f.fractionBits
  min f.infinity
    (shift * f.fractionSpan +
      roundToEven num (den * Nat.pow 2 shift))

------------------------------------------------------------
-- Numbers
------------------------------------------------------------

/- A number of a format, given by its bit pattern. -/
structure Binary (f : BinaryFormat) where
  bits : BitVec f.width
  deriving DecidableEq, Repr

/- A double-precision number. -/
abbrev Binary64 := Binary binary64

/- A single-precision number. -/
abbrev Binary32 := Binary binary32

namespace Binary

variable {f : BinaryFormat}

instance : Inhabited (Binary f) :=
  ⟨⟨0⟩⟩

/- The sign bit. -/
def negative
    (x : Binary f) : Bool :=
  x.bits.msb

/- The pattern without its sign. -/
def magnitude
    (x : Binary f) : Nat :=
  x.bits.toNat % f.signWeight

/- Neither infinite nor a NaN. -/
def isFinite
    (x : Binary f) : Bool :=
  x.magnitude < f.infinity

/- Not a number. -/
def isNaN
    (x : Binary f) : Bool :=
  f.infinity < x.magnitude

/- Put a sign before a magnitude pattern. -/
def ofMagnitude
    (f : BinaryFormat)
    (negative : Bool)
    (magnitude : Nat) : Binary f :=
  ⟨BitVec.ofNat _
    (magnitude + if negative then f.signWeight else 0)⟩

/- The absolute value of a finite number, in units. -/
def units
    (x : Binary f) : Nat :=
  let fraction := x.magnitude % f.fractionSpan
  match x.magnitude / f.fractionSpan with
  | 0 => fraction
  | exponent + 1 =>
      (f.fractionSpan + fraction) * Nat.pow 2 exponent

/- The value of a finite number, in units with its sign. -/
def signedUnits
    (x : Binary f) : Int :=
  if x.negative then -(x.units : Int) else x.units

/- The whole part of a finite number, cut toward zero. -/
def wholePart
    (x : Binary f) : Int :=
  x.signedUnits.tdiv f.unitsPerOne

/-
  Two numbers have the same value. Both zeros have one value,
  and a NaN has none.
-/
def sameValue
    (x y : Binary f) : Bool :=
  !x.isNaN && !y.isNaN &&
    (x = y ∨ (x.magnitude = 0 ∧ y.magnitude = 0))

------------------------------------------------------------
-- Conversion
------------------------------------------------------------

/- The number nearest to `num / den`, with the given sign. -/
def ofRatio
    (f : BinaryFormat)
    (negative : Bool)
    (num den : Nat) : Binary f :=
  ofMagnitude f negative
    (nearestMagnitude f (num * f.unitsPerOne) den)

/- The number nearest to an integer. -/
def ofInt
    (f : BinaryFormat)
    (i : Int) : Binary f :=
  ofRatio f (decide (i < 0)) i.natAbs 1

/-
  The number nearest to `digits * 10 ^ exponent`. An exponent
  far outside the range of the format is decided without
  computing the power.
-/
def ofScientific
    (f : BinaryFormat)
    (negative : Bool)
    (digits : Nat)
    (exponent : Int) : Binary f :=
  if digits = 0 then
    ofMagnitude f negative 0
  else if exponent > f.exponentSpan then
    ofMagnitude f negative f.infinity
  else if exponent < -(f.exponentSpan + digits.log2 : Nat) then
    ofMagnitude f negative 0
  else
    ofRatio f negative
      (digits * Nat.pow 10 exponent.toNat)
      (Nat.pow 10 (-exponent).toNat)

/-
  The number of format `g` nearest to `x`. Infinities stay
  infinite; a NaN keeps the leading bits of its fraction and
  becomes quiet.
-/
def convert
    (g : BinaryFormat)
    (x : Binary f) : Binary g :=
  if x.isNaN then
    let fraction := x.magnitude % f.fractionSpan
    let kept := fraction * g.fractionSpan / f.fractionSpan
    let quiet := g.fractionSpan / 2
    ofMagnitude g x.negative
      (g.infinity + (kept ||| quiet))
  else if x.isFinite then
    ofRatio g x.negative x.units f.unitsPerOne
  else
    ofMagnitude g x.negative g.infinity

end Binary

end DocumentMapper
