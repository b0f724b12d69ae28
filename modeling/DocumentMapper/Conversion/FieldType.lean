import DocumentMapper.Json.Basic
import DocumentMapper.Text.Decimal
import DocumentMapper.TextMap

/-
  The types of entity members and their values.

  Members are scalars, JSON values, records that an
  application brings along, and optional values, lists and
  text-keyed maps of members' types in any nesting.

  Key definitions include:
    * `RecordType`, `Record`
    * `Instant`
    * `FieldType`
    * `FieldType.Value`
    * `FieldType.isConstructible`
    * `FieldType.tag`
-/

namespace DocumentMapper

------------------------------------------------------------
-- Application Records
------------------------------------------------------------

/-
  A value type of the application: named 32-bit components.
  The library knows no conversion for it until one is
  registered. A type that is not constructible has no value
  to start from, so values of it cannot be read.
-/
structure RecordType where
  name : Text
  components : List Text
  isConstructible : Bool
  deriving DecidableEq, Repr

/- A value of a record type: one number for each component. -/
structure Record (r : RecordType) where
  values : List Int32
  length_eq : values.length = r.components.length
  deriving DecidableEq, Repr

/- The record whose components are all zero. -/
def Record.zero
    (r : RecordType) : Record r :=
  ⟨List.replicate r.components.length 0, by simp⟩

/- A point in time, in nanoseconds since the epoch. -/
structure Instant where
  nanoseconds : Int64
  deriving DecidableEq, Repr

------------------------------------------------------------
-- Types
------------------------------------------------------------

/- The type of an entity member. -/
inductive FieldType where
  | string
  | bool
  | int32
  | int64
  | uint64
  | double
  | float
  | time
  | json
  | record (r : RecordType)
  | option (t : FieldType)
  | list (t : FieldType)
  | map (t : FieldType)
  deriving DecidableEq, Repr

namespace FieldType

/- The values of a type. -/
abbrev Value : FieldType → Type
  | .string => Text
  | .bool => Bool
  | .int32 => Int32
  | .int64 => Int64
  | .uint64 => UInt64
  | .double => Binary64
  | .float => Binary32
  | .time => Instant
  | .json => Json
  | .record r => Record r
  | .option t => Option (Value t)
  | .list t => List (Value t)
  | .map t => TextMap (Value t)

/- Values of the type can be made from nothing. -/
def isConstructible : FieldType → Bool
  | .record r => r.isConstructible
  | _ => true

/- The value that a member has before anything is known of it. -/
def initial : (t : FieldType) → t.Value
  | .string => []
  | .bool => false
  | .int32 => 0
  | .int64 => 0
  | .uint64 => 0
  | .double => default
  | .float => default
  | .time => ⟨0⟩
  | .json => .null
  | .record r => .zero r
  | .option _ => none
  | .list _ => []
  | .map _ => .empty

/- A name as messages show it: its length and the name itself. -/
def tagOfName
    (name : Text) : Text :=
  Text.ofNat name.length ++ name

/- How messages name a type. -/
def tag : FieldType → Text
  | .string => Text.lit "string"
  | .bool => Text.lit "bool"
  | .int32 => Text.lit "int"
  | .int64 => Text.lit "int64"
  | .uint64 => Text.lit "uint64"
  | .double => Text.lit "double"
  | .float => Text.lit "float"
  | .time => Text.lit "time"
  | .json => Text.lit "json"
  | .record r => tagOfName r.name
  | .option t => Text.lit "optional<" ++ tag t ++ Text.lit ">"
  | .list t => Text.lit "vector<" ++ tag t ++ Text.lit ">"
  | .map t => Text.lit "map<" ++ tag t ++ Text.lit ">"

end FieldType

end DocumentMapper
