import DocumentMapper.Json.Basic
import DocumentMapper.Text.Decimal
import DocumentMapper.Text.Utf8

/-
  Reading JSON text.

  The reader is strict: no comments, no trailing commas, no
  leading zeros, no raw control characters in strings, no
  lone surrogates, no invalid UTF-8, and no number beyond the
  range of double precision. Only a byte order mark in front
  is skipped, and what stands behind a zero byte after the
  value is not read. A key that is repeated in an object
  keeps its first place and takes its last value.

  Each reader takes what it reads from the front of the text
  and hands back the rest.

  Key definitions include:
    * `Json.Numeral`, `Json.readNumeral?`
    * `Json.readString?`
    * `Json.readValue?`
    * `Json.parse?`
-/

namespace DocumentMapper

namespace Json

------------------------------------------------------------
-- Blanks
------------------------------------------------------------

/- Space, tab, line feed and carriage return. -/
def isBlank
    (b : UInt8) : Bool :=
  b = 0x20 ∨ b = 0x09 ∨ b = 0x0A ∨ b = 0x0D

/- The text behind leading blanks. -/
def skipBlanks
    (s : Text) : Text :=
  s.dropWhile isBlank

------------------------------------------------------------
-- Numbers
------------------------------------------------------------

/- The parts of a number as written; a part that is absent is `none`. -/
structure Numeral where
  negative : Bool
  whole : Text
  fraction? : Option Text
  exponent? : Option Int
  deriving DecidableEq, Repr

/- A run of at least one digit. -/
def readDigits?
    (s : Text) : Option (Text × Text) :=
  let digits := s.takeWhile Text.isDigit
  if digits = [] then
    none
  else
    some (digits, s.dropWhile Text.isDigit)

/- A minus sign, if there is one. -/
def readMinus
    (s : Text) : Bool × Text :=
  match s with
  | 0x2D :: rest => (true, rest)
  | rest => (false, rest)

/- A point and its digits, if there is a point. -/
def readFraction?
    (s : Text) : Option (Option Text × Text) :=
  match s with
  | 0x2E :: rest => do
      let (digits, rest) ← readDigits? rest
      return (some digits, rest)
  | rest => some (none, rest)

/- The signed digits of an exponent, if its mark stands there. -/
def readExponent?
    (s : Text) : Option (Option Int × Text) :=
  match s with
  | mark :: rest =>
      if mark = 0x65 ∨ mark = 0x45 then do
        let (negative, rest) :=
          match rest with
          | 0x2B :: rest => (false, rest)
          | rest => readMinus rest
        let (digits, rest) ← readDigits? rest
        let n : Int := Text.natOfDigits digits
        return (some (if negative then -n else n), rest)
      else
        some (none, s)
  | [] => some (none, [])

/- A number: its whole part has no leading zero. -/
def readNumeral?
    (s : Text) : Option (Numeral × Text) := do
  let (negative, s) := readMinus s
  let (whole, s) ← readDigits? s
  if whole.head? = some 0x30 ∧ whole.length > 1 then
    none
  else
    let (fraction?, s) ← readFraction? s
    let (exponent?, s) ← readExponent? s
    return (⟨negative, whole, fraction?, exponent?⟩, s)

/- The double-precision value of a number, which may be infinite. -/
def Numeral.toBinary64
    (n : Numeral) : Binary64 :=
  let fraction := n.fraction?.getD []
  Binary.ofScientific binary64 n.negative
    (Text.natOfDigits (n.whole ++ fraction))
    (n.exponent?.getD 0 - fraction.length)

/-
  The value of a number: whole if it has neither fraction nor
  exponent and fits 64 bits, else a finite double-precision
  number.
-/
def Numeral.toJson?
    (n : Numeral) : Option Json :=
  let magnitude := Text.natOfDigits n.whole
  let isWhole := n.fraction?.isNone && n.exponent?.isNone
  if isWhole && !n.negative && magnitude < UInt64.size then
    some (.unsigned magnitude.toUInt64)
  else if isWhole && n.negative &&
      Int64.minValue.toInt ≤ -magnitude then
    some (.signed (Int64.ofInt (-magnitude)))
  else
    let x := n.toBinary64
    if x.isFinite then some (.real x) else none

------------------------------------------------------------
-- Strings
------------------------------------------------------------

/- The value of a hexadecimal digit of either case. -/
def hexValue?
    (b : UInt8) : Option Nat :=
  if 0x30 ≤ b ∧ b ≤ 0x39 then some (b.toNat - 0x30)
  else if 0x41 ≤ b ∧ b ≤ 0x46 then some (b.toNat - 0x37)
  else if 0x61 ≤ b ∧ b ≤ 0x66 then some (b.toNat - 0x57)
  else none

/- Four hexadecimal digits. -/
def readHex?
    (s : Text) : Option (Nat × Text) :=
  match s with
  | a :: b :: c :: d :: rest => do
      let a ← hexValue? a
      let b ← hexValue? b
      let c ← hexValue? c
      let d ← hexValue? d
      return (((a * 16 + b) * 16 + c) * 16 + d, rest)
  | _ => none

/-
  The scalar value behind the `u` of an escape. A leading
  surrogate needs a trailing one in an escape right behind
  it; no other surrogate is accepted.
-/
def readScalar?
    (s : Text) : Option (Nat × Text) := do
  let (high, rest) ← readHex? s
  if 0xD800 ≤ high ∧ high ≤ 0xDBFF then
    match rest with
    | 0x5C :: 0x75 :: rest => do
        let (low, rest) ← readHex? rest
        if 0xDC00 ≤ low ∧ low ≤ 0xDFFF then
          let scalar :=
            0x10000 + (high - 0xD800) * 0x400 + (low - 0xDC00)
          return (scalar, rest)
        else
          none
    | _ => none
  else if 0xDC00 ≤ high ∧ high ≤ 0xDFFF then
    none
  else
    return (high, rest)

/- The character of an escape of one letter. -/
def simpleEscape?
    (b : UInt8) : Option UInt8 :=
  if b = 0x22 ∨ b = 0x5C ∨ b = 0x2F then some b
  else if b = 0x62 then some 0x08
  else if b = 0x66 then some 0x0C
  else if b = 0x6E then some 0x0A
  else if b = 0x72 then some 0x0D
  else if b = 0x74 then some 0x09
  else none

/-
  The characters of a string up to its closing quote. Every
  step takes at least one byte, so `fuel` need not exceed the
  length of the text.
-/
def readCharacters?
    (fuel : Nat)
    (s : Text) : Option (Text × Text) :=
  match fuel, s with
  | 0, _ => none
  | _, [] => none
  | fuel + 1, b :: rest =>
      if b = 0x22 then
        some ([], rest)
      else if b < 0x20 then
        none
      else if b = 0x5C then
        match rest with
        | [] => none
        | 0x75 :: rest => do
            let (scalar, rest) ← readScalar? rest
            let (chars, rest) ← readCharacters? fuel rest
            return (Text.ofScalar scalar ++ chars, rest)
        | mark :: rest => do
            let b ← simpleEscape? mark
            let (chars, rest) ← readCharacters? fuel rest
            return (b :: chars, rest)
      else do
        let (chars, rest) ← readCharacters? fuel rest
        return (b :: chars, rest)

/- A string behind its opening quote; its bytes have to be UTF-8. -/
def readString?
    (s : Text) : Option (Text × Text) := do
  let (chars, rest) ← readCharacters? s.length s
  if chars.isUtf8 then some (chars, rest) else none

------------------------------------------------------------
-- Values
------------------------------------------------------------

mutual

/- A value behind leading blanks. -/
def readValue?
    (fuel : Nat)
    (s : Text) : Option (Json × Text) :=
  match fuel with
  | 0 => none
  | fuel + 1 =>
      let s := skipBlanks s
      match s with
      | 0x22 :: rest => do
          let (chars, rest) ← readString? rest
          return (.string chars, rest)
      | 0x5B :: rest =>
          match skipBlanks rest with
          | 0x5D :: rest => some (.array [], rest)
          | rest => do
              let (items, rest) ← readItems? fuel rest
              return (.array items, rest)
      | 0x7B :: rest =>
          match skipBlanks rest with
          | 0x7D :: rest => some (.object [], rest)
          | rest => do
              let (members, rest) ← readMembers? fuel rest
              return (ofMembers members, rest)
      | _ =>
          match Text.stripPrefix? (Text.lit "null") s with
          | some rest => some (.null, rest)
          | none =>
          match Text.stripPrefix? (Text.lit "true") s with
          | some rest => some (.bool true, rest)
          | none =>
          match Text.stripPrefix? (Text.lit "false") s with
          | some rest => some (.bool false, rest)
          | none => do
              let (numeral, rest) ← readNumeral? s
              let value ← numeral.toJson?
              return (value, rest)

/- At least one item, up to the closing bracket. -/
def readItems?
    (fuel : Nat)
    (s : Text) : Option (List Json × Text) :=
  match fuel with
  | 0 => none
  | fuel + 1 => do
      let (item, rest) ← readValue? fuel s
      match skipBlanks rest with
      | 0x5D :: rest => return ([item], rest)
      | 0x2C :: rest => do
          let (items, rest) ← readItems? fuel rest
          return (item :: items, rest)
      | _ => none

/- At least one member, up to the closing brace. -/
def readMembers?
    (fuel : Nat)
    (s : Text) : Option (List (Text × Json) × Text) :=
  match fuel with
  | 0 => none
  | fuel + 1 =>
      match skipBlanks s with
      | 0x22 :: rest => do
          let (key, rest) ← readString? rest
          match skipBlanks rest with
          | 0x3A :: rest => do
              let (value, rest) ← readValue? fuel rest
              match skipBlanks rest with
              | 0x7D :: rest => return ([(key, value)], rest)
              | 0x2C :: rest => do
                  let (members, rest) ←
                    readMembers? fuel rest
                  return ((key, value) :: members, rest)
              | _ => none
          | _ => none
      | _ => none

end

/- The text behind a byte order mark. -/
def skipMark
    (s : Text) : Text :=
  match s with
  | 0xEF :: 0xBB :: 0xBF :: rest => rest
  | rest => rest

/-
  A text is at its end where only blanks are left, and where a
  zero byte follows them.
-/
def isAtEnd
    (s : Text) : Bool :=
  match skipBlanks s with
  | [] => true
  | b :: _ => b = 0

/-
  The value that a whole text denotes. A value of `n` bytes
  nests no more than `n` readers of either kind.
-/
def parse?
    (s : Text) : Option Json :=
  match readValue? (2 * s.length + 2) (skipMark s) with
  | some (value, rest) =>
      if isAtEnd rest then some value else none
  | none => none

end Json

end DocumentMapper
