import DocumentMapper.Conversion.FieldType
import DocumentMapper.Result

/-
  Conversions between member values and JSON values.

  A conversion is registered for exactly one type. A type
  without a conversion of its own is converted through its
  structure: optional values, lists and maps wrap whatever
  their inner type is converted to.

  Key definitions include:
    * `Conversion`
    * `ConversionFault`, `ConversionFault.toError`
    * `Conversions`
    * `Conversions.add`
    * `Conversions.supports`
    * `Conversions.write`
    * `Conversions.read`
-/

namespace DocumentMapper

------------------------------------------------------------
-- Conversions
------------------------------------------------------------

/- How values of a type are written and read. -/
structure Conversion (t : FieldType) where
  write : t.Value → Result Json
  read : Json → Result t.Value

/- Why a value could not be converted. -/
inductive ConversionFault where
  | expected (what kind : Text)
  | outOfRange (typeName : Text)
  | negative
  | notObject
  | notArray
  | unsupported (t : FieldType)
  | notConstructible (t : FieldType)
  deriving DecidableEq, Repr

namespace ConversionFault

/- The wording of a fault. -/
def message : ConversionFault → Text
  | .expected what kind =>
      Text.lit "Expected " ++ what ++
        Text.lit " value, got " ++ kind
  | .outOfRange typeName =>
      Text.lit "Integer out of range for " ++ typeName
  | .negative =>
      Text.lit "Negative value for unsigned field"
  | .notObject => Text.lit "Expected object value"
  | .notArray => Text.lit "Expected array value"
  | .unsupported t =>
      Text.lit "No conversion registered for type " ++ t.tag
  | .notConstructible t =>
      Text.lit "Type is not default constructible: " ++ t.tag

/-
  A type that cannot be converted is a mapping error, a bad
  value a decode error.
-/
def toError
    (fault : ConversionFault) : Error :=
  match fault with
  | .unsupported _ | .notConstructible _ =>
      .mapping fault.message
  | _ => .decode fault.message

end ConversionFault

------------------------------------------------------------
-- The Registry
------------------------------------------------------------

/- The registered conversions. -/
structure Conversions where
  find? : (t : FieldType) → Option (Conversion t)

namespace Conversions

/- Nothing is registered. -/
def empty : Conversions :=
  ⟨fun _ => none⟩

/- Register a conversion, in place of an older one for the same type. -/
def add
    (s : Conversions)
    {t : FieldType}
    (c : Conversion t) : Conversions :=
  ⟨fun u => if h : t = u then some (h ▸ c) else s.find? u⟩

/- A type or a type inside its structure has a conversion. -/
def supports
    (s : Conversions) : FieldType → Bool
  | .option t =>
      (s.find? (.option t)).isSome || supports s t
  | .list t => (s.find? (.list t)).isSome || supports s t
  | .map t => (s.find? (.map t)).isSome || supports s t
  | t => (s.find? t).isSome

------------------------------------------------------------
-- Writing
------------------------------------------------------------

/- Write items one after the other, up to the first failure. -/
def writeItems
    {α : Type}
    (write : α → Result Json) : List α → Result (List Json)
  | [] => .ok []
  | item :: rest =>
      match write item with
      | .error e => .error e
      | .ok item =>
          match writeItems write rest with
          | .error e => .error e
          | .ok rest => .ok (item :: rest)

/-
  Write the values of entries one after the other, up to the
  first failure.
-/
def writeEntries
    {α : Type}
    (write : α → Result Json) :
    List (Text × α) → Result (List (Text × Json))
  | [] => .ok []
  | (key, value) :: rest =>
      match write value with
      | .error e => .error e
      | .ok value =>
          match writeEntries write rest with
          | .error e => .error e
          | .ok rest => .ok ((key, value) :: rest)

/-
  Write a value. An absent optional value is null, provided
  that its inner type can be converted at all.
-/
def write
    (s : Conversions)
    (t : FieldType)
    (value : t.Value) : Result Json :=
  match s.find? t with
  | some c => c.write value
  | none =>
      match t, value with
      | .option t, none =>
          if s.supports t then
            .ok .null
          else
            .error (ConversionFault.unsupported t).toError
      | .option t, some value => write s t value
      | .list t, items =>
          (writeItems (write s t) items).map .array
      | .map t, map =>
          (writeEntries (write s t) map.entries).map .object
      | t, _ => .error (ConversionFault.unsupported t).toError

------------------------------------------------------------
-- Reading
------------------------------------------------------------

/- Read items one after the other, up to the first failure. -/
def readItems
    {α : Type}
    (read : Json → Result α) : List Json → Result (List α)
  | [] => .ok []
  | item :: rest =>
      match read item with
      | .error e => .error e
      | .ok item =>
          match readItems read rest with
          | .error e => .error e
          | .ok rest => .ok (item :: rest)

/-
  Read members into a map one after the other, up to the first
  failure.
-/
def readMembers
    {α : Type}
    (read : Json → Result α)
    (found : TextMap α) :
    List (Text × Json) → Result (TextMap α)
  | [] => .ok found
  | (key, value) :: rest =>
      match read value with
      | .error e => .error e
      | .ok value =>
          readMembers read (found.insert key value) rest

/- Read a value. Null is an absent optional value. -/
def read
    (s : Conversions)
    (t : FieldType)
    (value : Json) : Result t.Value :=
  match s.find? t with
  | some c =>
      if t.isConstructible then
        c.read value
      else
        .error (ConversionFault.notConstructible t).toError
  | none =>
      match t with
      | .option t =>
          match value with
          | .null => .ok none
          | value => (read s t value).map some
      | .list t =>
          match value with
          | .array items => readItems (read s t) items
          | _ => .error ConversionFault.notArray.toError
      | .map t =>
          match value with
          | .object members =>
              readMembers (read s t) .empty members
          | _ => .error ConversionFault.notObject.toError
      | t => .error (ConversionFault.unsupported t).toError

end Conversions

end DocumentMapper
