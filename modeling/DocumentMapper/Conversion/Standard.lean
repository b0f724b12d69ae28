import DocumentMapper.Conversion.Basic

/-
  The conversions that are registered from the start: those
  of the scalars and of JSON values.

  Whole numbers are read from whole numbers only. Points in
  time are stored as milliseconds since the epoch, cut toward
  the epoch.

  Key definitions include:
    * `Conversion.string`, `Conversion.bool`
    * `Conversion.int32`, `Conversion.int64`, `Conversion.uint64`
    * `Conversion.double`, `Conversion.float`
    * `Conversion.time`, `Conversion.json`
    * `Conversions.standard`
-/

namespace DocumentMapper

------------------------------------------------------------
-- Whole Numbers as Words
------------------------------------------------------------

/-
  A whole number as an unsigned 64-bit word; negative numbers
  wrap around.
-/
def Json.asUInt64? : Json → Option UInt64
  | .unsigned n => some n
  | .signed n => some n.toUInt64
  | _ => none

namespace Conversion

/- A value of another kind than expected. -/
def mismatch
    {α : Type}
    (what : String)
    (value : Json) : Result α :=
  .error
    (ConversionFault.expected (Text.lit what) value.kind).toError

------------------------------------------------------------
-- Texts and Truth Values
------------------------------------------------------------

/- Texts are strings. -/
def string : Conversion .string where
  write s := .ok (.string s)
  read
    | .string s => .ok s
    | value => mismatch "string" value

/- Truth values are booleans. -/
def bool : Conversion .bool where
  write b := .ok (.bool b)
  read
    | .bool b => .ok b
    | value => mismatch "boolean" value

------------------------------------------------------------
-- Whole Numbers
------------------------------------------------------------

/- Short whole numbers; the range is checked on the 64-bit word. -/
def int32 : Conversion .int32 where
  write n := .ok (.signed n.toInt64)
  read value :=
    match value.asInt64? with
    | some n =>
        if n < Int32.minValue.toInt64 ∨
            Int32.maxValue.toInt64 < n then
          .error
            (ConversionFault.outOfRange
              (Text.lit "int")).toError
        else
          .ok n.toInt32
    | none => mismatch "integer" value

/- Signed whole numbers. -/
def int64 : Conversion .int64 where
  write n := .ok (.signed n)
  read
    | .signed n => .ok n
    | .unsigned n =>
        if Int64.maxValue.toUInt64 < n then
          .error
            (ConversionFault.outOfRange
              (Text.lit "int64")).toError
        else
          .ok n.toInt64
    | value => mismatch "integer" value

/- Unsigned whole numbers. -/
def uint64 : Conversion .uint64 where
  write n := .ok (.unsigned n)
  read
    | .unsigned n => .ok n
    | .signed n =>
        if n < 0 then
          .error ConversionFault.negative.toError
        else
          .ok n.toUInt64
    | value => mismatch "integer" value

------------------------------------------------------------
-- Fractions
------------------------------------------------------------

/-
  Double-precision numbers; a whole number is rounded to the
  nearest one.
-/
def double : Conversion .double where
  write x := .ok (.real x)
  read
    | .real x => .ok x
    | value =>
        match value.integer? with
        | some n => .ok (Binary.ofInt binary64 n)
        | none => mismatch "number" value

/- Single-precision numbers; every number is rounded once. -/
def float : Conversion .float where
  write x := .ok (.real (x.convert binary64))
  read
    | .real x => .ok (x.convert binary32)
    | value =>
        match value.integer? with
        | some n => .ok (Binary.ofInt binary32 n)
        | none => mismatch "number" value

------------------------------------------------------------
-- Time
------------------------------------------------------------

/- Points in time as milliseconds; the nanoseconds are a 64-bit word. -/
def time : Conversion .time where
  write t :=
    .ok (.signed
      (Int64.ofInt (t.nanoseconds.toInt.tdiv 1000000)))
  read value :=
    match value.asInt64? with
    | some n => .ok ⟨n * 1000000⟩
    | none => mismatch "integer timestamp" value

------------------------------------------------------------
-- JSON
------------------------------------------------------------

/- JSON values stand for themselves. -/
def json : Conversion .json where
  write value := .ok value
  read value := .ok value

end Conversion

/- The conversions registered from the start. -/
def Conversions.standard : Conversions :=
  Conversions.empty
    |>.add Conversion.string
    |>.add Conversion.bool
    |>.add Conversion.int32
    |>.add Conversion.int64
    |>.add Conversion.uint64
    |>.add Conversion.double
    |>.add Conversion.float
    |>.add Conversion.time
    |>.add Conversion.json

end DocumentMapper
