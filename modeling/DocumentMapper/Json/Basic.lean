import DocumentMapper.Association
import DocumentMapper.Number.Binary
import DocumentMapper.Text.Basic

/-
  JSON values.

  Whole numbers keep the 64-bit form they were given in, and
  fractions are double-precision numbers. The members of an
  object stay in the order in which they were added.

  Key definitions include:
    * `Json`
    * `Json.kind`
    * `Json.integer?`
    * `Json.equal`
    * `Json.ofMembers`
    * `Json.KeysDistinct`
-/

namespace DocumentMapper

------------------------------------------------------------
-- Values
------------------------------------------------------------

/- A JSON value. Whole numbers come in an unsigned and a signed form. -/
inductive Json where
  | null
  | bool (b : Bool)
  | unsigned (n : UInt64)
  | signed (n : Int64)
  | real (x : Binary64)
  | string (s : Text)
  | array (items : List Json)
  | object (members : List (Text × Json))
  deriving Repr, Inhabited

namespace Json

/- A string written as a literal. -/
def lit
    (s : String) : Json :=
  .string (Text.lit s)

------------------------------------------------------------
-- Kinds
------------------------------------------------------------

/- The name of a value's kind, as messages show it. -/
def kind : Json → Text
  | .null => Text.lit "null"
  | .bool _ => Text.lit "boolean"
  | .unsigned _ => Text.lit "number"
  | .signed _ => Text.lit "number"
  | .real _ => Text.lit "number"
  | .string _ => Text.lit "string"
  | .array _ => Text.lit "array"
  | .object _ => Text.lit "object"

/- The value of a whole number of either form. -/
def integer? : Json → Option Int
  | .unsigned n => some n.toNat
  | .signed n => some n.toInt
  | _ => none

/- The value of a whole number that is not negative. -/
def natural? : Json → Option Nat
  | .unsigned n => some n.toNat
  | .signed n =>
      if 0 ≤ n.toInt then some n.toInt.toNat else none
  | _ => none

/-
  A whole number as a signed 64-bit word; greater numbers wrap
  around.
-/
def asInt64? : Json → Option Int64
  | .unsigned n => some n.toInt64
  | .signed n => some n
  | _ => none

/- The members of an object. -/
def members? : Json → Option (List (Text × Json))
  | .object members => some members
  | _ => none

------------------------------------------------------------
-- Objects
------------------------------------------------------------

/-
  The object that results from binding members one after the
  other: a repeated key keeps its first place and takes its
  last value.
-/
def ofMembers
    (members : List (Text × Json)) : Json :=
  .object (Association.merge [] members)

------------------------------------------------------------
-- Equality
------------------------------------------------------------

/-
  Two numbers are equal. Whole numbers are compared as signed
  64-bit words, and a whole number meets a fraction as the
  double-precision number nearest to it.
-/
def sameNumber
    (a b : Json) : Bool :=
  match a, b with
  | .real x, .real y => x.sameValue y
  | .real x, b =>
      b.integer?.any fun n =>
        x.sameValue (Binary.ofInt binary64 n)
  | a, .real y =>
      a.integer?.any fun n =>
        (Binary.ofInt binary64 n).sameValue y
  | a, b =>
      match a.asInt64?, b.asInt64? with
      | some m, some n => m == n
      | _, _ => false

mutual

/-
  Two values are equal: numbers as `sameNumber` says, arrays
  item by item, objects member by member in order.
-/
def equal
    (a b : Json) : Bool :=
  match a, b with
  | .null, .null => true
  | .bool a, .bool b => a == b
  | .string a, .string b => a == b
  | .array a, .array b => equalItems a b
  | .object a, .object b => equalMembers a b
  | a, b => sameNumber a b

/- Two lists of items are equal, item by item. -/
def equalItems
    (a b : List Json) : Bool :=
  match a, b with
  | [], [] => true
  | x :: a, y :: b => equal x y && equalItems a b
  | _, _ => false

/- Two lists of members are equal, in keys, values and order. -/
def equalMembers
    (a b : List (Text × Json)) : Bool :=
  match a, b with
  | [], [] => true
  | (k, x) :: a, (l, y) :: b =>
      k == l && equal x y && equalMembers a b
  | _, _ => false

end

------------------------------------------------------------
-- Distinct Keys
------------------------------------------------------------

mutual

/- No object inside a value has the same key twice. -/
def KeysDistinct : Json → Prop
  | .array items => ItemsDistinct items
  | .object members =>
      (Association.keys members).Nodup ∧ MembersDistinct members
  | _ => True

/- No object inside a list of items has the same key twice. -/
def ItemsDistinct : List Json → Prop
  | [] => True
  | item :: rest => KeysDistinct item ∧ ItemsDistinct rest

/- No object inside the values of members has the same key twice. -/
def MembersDistinct : List (Text × Json) → Prop
  | [] => True
  | (_, value) :: rest =>
      KeysDistinct value ∧ MembersDistinct rest

end

end Json

end DocumentMapper
