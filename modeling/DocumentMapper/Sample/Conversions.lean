import DocumentMapper.Conversion.Basic
import DocumentMapper.Json.Printer

/-
  Two record types of a sample application, and conversions
  that an application might register.

  Key definitions include:
    * `Sample.point`, `Sample.noDef`
    * `Sample.ConversionMode`
    * `Sample.ConversionMode.register`
-/

namespace DocumentMapper

namespace Sample

------------------------------------------------------------
-- Record Types
------------------------------------------------------------

/- A point with whole coordinates. -/
abbrev point : RecordType where
  name := Text.lit "Point"
  components := [Text.lit "x", Text.lit "y"]
  isConstructible := true

/- A number that cannot be made from nothing. -/
abbrev noDef : RecordType where
  name := Text.lit "NoDef"
  components := [Text.lit "value"]
  isConstructible := false

/- The point with two coordinates. -/
def Point.mk
    (x y : Int32) : Record point :=
  ⟨[x, y], rfl⟩

------------------------------------------------------------
-- Conversions
------------------------------------------------------------

/- A whole number as a 32-bit word; greater numbers wrap around. -/
def int32?
    (value : Json) : Option Int32 :=
  value.integer?.map Int32.ofInt

/-
  Any number as a 32-bit word. A fraction is cut toward zero,
  and beyond the range of the word it becomes the least one;
  truth values count as one and zero.
-/
def number32? : Json → Option Int32
  | .bool b => some (if b then 1 else 0)
  | .real x =>
      let n := x.wholePart
      if Int32.minValue.toInt ≤ n ∧ n ≤ Int32.maxValue.toInt then
        some (Int32.ofInt n)
      else
        some Int32.minValue
  | value => int32? value

/- The member of an object under a key. -/
def member?
    (value : Json)
    (key : String) : Option Json :=
  value.members?.bind (Association.lookup? (Text.lit key))

/- Points as objects with their coordinates. -/
def pointObject : Conversion (.record point) where
  write p :=
    .ok <| .object <|
      (point.components.zip p.values).map fun (key, n) =>
        (key, .signed n.toInt64)
  read value :=
    match (member? value "x").bind int32?,
        (member? value "y").bind int32? with
    | some x, some y => .ok (Point.mk x y)
    | _, _ => .error (.decode (Text.lit "bad point"))

/- A conversion of points that always fails. -/
def pointRefused : Conversion (.record point) where
  write _ :=
    .error (.invalidState (Text.lit "writer refused"))
  read _ :=
    .error (.invalidState (Text.lit "reader refused"))

/-
  Texts in upper case; any value is read as its own text
  between angle brackets.
-/
def upperText : Conversion .string where
  write s := .ok (.string s.upperAscii)
  read value :=
    .ok (Text.lit "<" ++ value.render ++ Text.lit ">")

/- The pieces of a text that are ended by a comma. -/
def endedByComma
    (s : Text) : List Text :=
  (Text.split 0x2C s).dropLast

/- Lists of texts as one text, with a comma behind every item. -/
def commaSeparated : Conversion (.list .string) where
  write items :=
    .ok (.string (items.flatMap fun s => s ++ Text.lit ","))
  read
    | .string s => .ok (endedByComma s)
    | _ => .error (.decode (Text.lit "bad csv"))

/- Optional numbers, with a word for the absent one. -/
def namedNone : Conversion (.option .int32) where
  write
    | some n => .ok (.signed n.toInt64)
    | none => .ok (Json.lit "none")
  read
    | .string _ => .ok none
    | value => .ok (number32? value)

/- The number that is not constructible, as a number. -/
def noDefNumber : Conversion (.record noDef) where
  write n := .ok (.signed (n.values.headD 0).toInt64)
  read value :=
    .ok ⟨[(int32? value).getD 0], rfl⟩

------------------------------------------------------------
-- Modes
------------------------------------------------------------

/- The conversions by name. -/
inductive ConversionMode where
  | point
  | pointFail
  | upper
  | csv
  | optint
  | nodef
  deriving DecidableEq, Repr

/- Register the conversion of a mode. -/
def ConversionMode.register
    (mode : ConversionMode)
    (s : Conversions) : Conversions :=
  match mode with
  | .point => s.add pointObject
  | .pointFail => s.add pointRefused
  | .upper => s.add upperText
  | .csv => s.add commaSeparated
  | .optint => s.add namedNone
  | .nodef => s.add noDefNumber

end Sample

end DocumentMapper
