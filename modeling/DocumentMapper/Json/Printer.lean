import DocumentMapper.Json.Basic
import DocumentMapper.Number.Shortest
import DocumentMapper.Text.Utf8

/-
  Writing JSON values as compact text.

  Bytes stand for themselves except for the quote, the
  backslash and control characters. A value whose keys or
  strings are not UTF-8 has no text.

  Key definitions include:
    * `Json.layout`
    * `Json.render`
    * `Json.printable`
    * `Json.print?`
-/

namespace DocumentMapper

namespace Json

------------------------------------------------------------
-- Strings
------------------------------------------------------------

/- The digit of a number below sixteen, in lower case. -/
def hexDigit
    (n : UInt8) : UInt8 :=
  if n < 10 then 0x30 + n else 0x57 + n

/-
  A byte inside a string: quotes, backslashes and control
  characters are escaped.
-/
def escapeByte
    (b : UInt8) : Text :=
  if b = 0x22 then Text.lit "\\\""
  else if b = 0x5C then Text.lit "\\\\"
  else if b = 0x08 then Text.lit "\\b"
  else if b = 0x0C then Text.lit "\\f"
  else if b = 0x0A then Text.lit "\\n"
  else if b = 0x0D then Text.lit "\\r"
  else if b = 0x09 then Text.lit "\\t"
  else if b < 0x20 then
    Text.lit "\\u00" ++ [hexDigit (b / 16), hexDigit (b % 16)]
  else [b]

/- A string between quotes. -/
def renderString
    (s : Text) : Text :=
  0x22 :: s.flatMap escapeByte ++ [0x22]

------------------------------------------------------------
-- Numbers
------------------------------------------------------------

/-
  Numbers of up to fifteen digits before the point, and
  fractions with up to three zeros behind it, are written
  positionally.
-/
def layout : DecimalLayout where
  leastPoint := -4
  greatestPoint := 15
  exponentDigits := 2

/-
  A double-precision number; one that is not finite is written
  as null.
-/
def renderReal
    (x : Binary64) : Text :=
  if x.isFinite then
    (if x.negative then Text.lit "-" else []) ++
      layout.render x.shortest
  else
    Text.lit "null"

------------------------------------------------------------
-- Values
------------------------------------------------------------

mutual

/- The compact text of a value. -/
def render : Json → Text
  | .null => Text.lit "null"
  | .bool true => Text.lit "true"
  | .bool false => Text.lit "false"
  | .unsigned n => Text.ofNat n.toNat
  | .signed n => Text.ofInt n.toInt
  | .real x => renderReal x
  | .string s => renderString s
  | .array items => 0x5B :: renderItems items ++ [0x5D]
  | .object members =>
      0x7B :: renderMembers members ++ [0x7D]

/- Items separated by commas. -/
def renderItems : List Json → Text
  | [] => []
  | [item] => render item
  | item :: rest => render item ++ 0x2C :: renderItems rest

/- Members separated by commas. -/
def renderMembers : List (Text × Json) → Text
  | [] => []
  | [(key, value)] =>
      renderString key ++ 0x3A :: render value
  | (key, value) :: rest =>
      renderString key ++ 0x3A :: render value ++
        0x2C :: renderMembers rest

end

------------------------------------------------------------
-- Printable Values
------------------------------------------------------------

mutual

/- All keys and strings of a value are UTF-8. -/
def printable : Json → Bool
  | .string s => s.isUtf8
  | .array items => itemsPrintable items
  | .object members => membersPrintable members
  | _ => true

/- All keys and strings of a list of items are UTF-8. -/
def itemsPrintable : List Json → Bool
  | [] => true
  | item :: rest => printable item && itemsPrintable rest

/- All keys and strings of a list of members are UTF-8. -/
def membersPrintable : List (Text × Json) → Bool
  | [] => true
  | (key, value) :: rest =>
      key.isUtf8 && printable value && membersPrintable rest

end

/- The compact text of a value, if all its keys and strings are UTF-8. -/
def print?
    (value : Json) : Option Text :=
  if value.printable then some value.render else none

end Json

end DocumentMapper
