import DocumentMapper.Conversion.Standard
import DocumentMapper.Entity.Descriptor

/-
  Mappings: the descriptors of all registered entity types
  and the conversions that they share.

  Registering a type again replaces its descriptor.

  Key definitions include:
    * `Mapping`
    * `Mapping.register`
    * `Mapping.descriptor`
    * `Mapping.displayName`
    * `Mapping.idOf`, `Mapping.tokenOf`, `Mapping.withToken`
-/

namespace DocumentMapper

/- A descriptor with the type it describes. -/
structure Registration (T : Type) [EntityTypes T] where
  type : T
  descriptor : Descriptor (EntityTypes.schema type)

/- Registered entity types and registered conversions. -/
structure Mapping (T : Type) [EntityTypes T] where
  conversions : Conversions
  registrations : List (Registration T)

namespace Mapping

variable {T : Type}
variable [EntityTypes T]

/- No types, and the standard conversions. -/
def empty : Mapping T :=
  ⟨.standard, []⟩

------------------------------------------------------------
-- Registration
------------------------------------------------------------

/- The descriptor in the first registration of a type. -/
def find?
    (t : T)
    (registrations : List (Registration T)) :
    Option (Descriptor (EntityTypes.schema t)) :=
  match registrations with
  | [] => none
  | r :: rest =>
      if h : r.type = t then
        some (h ▸ r.descriptor)
      else
        find? t rest

/- The descriptor of a type, if it is registered. -/
def descriptor?
    (m : Mapping T)
    (t : T) : Option (Descriptor (EntityTypes.schema t)) :=
  find? t m.registrations

/- Register a type, in place of an older registration. -/
def register
    (m : Mapping T)
    (t : T)
    (d : Descriptor (EntityTypes.schema t)) : Mapping T :=
  { m with
    registrations :=
      ⟨t, d⟩ ::
        m.registrations.filter fun r => r.type ≠ t }

/- The number of registered types. -/
def size
    (m : Mapping T) : Nat :=
  m.registrations.length

/- Change the conversions. -/
def mapConversions
    (m : Mapping T)
    (f : Conversions → Conversions) : Mapping T :=
  { m with conversions := f m.conversions }

------------------------------------------------------------
-- Names
------------------------------------------------------------

/- How messages name an entity type. -/
def typeTag
    (t : T) : Text :=
  FieldType.tagOfName (EntityTypes.schema t).name

/- An entity type has no descriptor. -/
def notRegistered
    (t : T) : Error :=
  .mapping
    (Text.lit "Entity type is not registered: " ++ typeTag t)

/-
  The descriptor of a type; it is an error to ask for one that
  is not registered.
-/
def descriptor
    (m : Mapping T)
    (t : T) : Result (Descriptor (EntityTypes.schema t)) :=
  match m.descriptor? t with
  | some d => .ok d
  | none => .error (notRegistered t)

/- The alias of a type, or else the name of the type. -/
def displayName
    (m : Mapping T)
    (t : T) : Text :=
  match m.descriptor? t with
  | some d =>
      if d.aliasName = [] then typeTag t else d.aliasName
  | none => typeTag t

------------------------------------------------------------
-- Fields That the Store Owns
------------------------------------------------------------

/-
  The identifier of an entity; a type that is not registered
  has none.
-/
def idOf
    (m : Mapping T)
    {t : T}
    (e : EntityOf t) : Option Text :=
  (m.descriptor? t).bind (·.idOf e)

/- The version token of an entity; zero means that there is none. -/
def tokenOf
    (m : Mapping T)
    {t : T}
    (e : EntityOf t) : Except Text UInt64 :=
  match m.descriptor? t with
  | some d => (d.tokenOf e).map (·.getD 0)
  | none => .ok 0

/- Give an entity a version token; a type without one ignores it. -/
def withToken
    (m : Mapping T)
    {t : T}
    (e : EntityOf t)
    (token : UInt64) : Result (EntityOf t) :=
  match m.descriptor? t with
  | some d => d.withToken e token
  | none => .ok e

end Mapping

end DocumentMapper
