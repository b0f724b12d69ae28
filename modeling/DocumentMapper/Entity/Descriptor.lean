import DocumentMapper.Entity.Binding

/-
  Descriptors: what an application declares of an entity type.

  Everything is optional. A field that is not declared reads
  as absent and ignores what is written to it.

  Key definitions include:
    * `VersionField`
    * `Descriptor`
    * `Descriptor.idOf`, `Descriptor.withId`
    * `Descriptor.tokenOf`, `Descriptor.withToken`
    * `Descriptor.keyOf`, `Descriptor.withKey`
-/

namespace DocumentMapper

/-
  The version token: the attribute that shows it, and where it
  is kept.
-/
structure VersionField (S : Schema) where
  name : Text
  binding : VersionBinding S

/-
  The declaration of an entity type. An empty alias writes no
  type metadata; an empty scope or collection leaves the
  choice to the settings.
-/
structure Descriptor (S : Schema) where
  aliasName : Text := []
  id? : Option (IdBinding S) := none
  version? : Option (VersionField S) := none
  key? : Option (KeyBinding S) := none
  fields : List (AttributeBinding S) := []
  scope : Text := []
  collection : Text := []
  expiry : Int64 := 0

namespace Descriptor

variable {S : Schema}

/- The identifier of an entity. -/
def idOf
    (d : Descriptor S)
    (e : Entity S) : Option Text :=
  d.id?.bind (·.get e)

/- Give an entity an identifier. -/
def withId
    (d : Descriptor S)
    (e : Entity S)
    (id : Text) : Entity S :=
  match d.id? with
  | some b => b.set e id
  | none => e

/- The version token of an entity, or the exception of its getter. -/
def tokenOf
    (d : Descriptor S)
    (e : Entity S) : Except Text (Option UInt64) :=
  match d.version? with
  | some field => field.binding.get e
  | none => .ok none

/- Give an entity a version token. -/
def withToken
    (d : Descriptor S)
    (e : Entity S)
    (token : UInt64) : Result (Entity S) :=
  match d.version? with
  | some field => field.binding.set field.name e token
  | none => .ok e

/- The transaction key of an entity. -/
def keyOf
    (d : Descriptor S)
    (e : Entity S) : Option Int64 :=
  d.key?.bind (·.get e)

/- Give an entity a transaction key. -/
def withKey
    (d : Descriptor S)
    (e : Entity S)
    (key : Int64) : Entity S :=
  match d.key? with
  | some b => b.set e key
  | none => e

/- The attribute that shows the version token. -/
def tokenName
    (d : Descriptor S) : Text :=
  (d.version?.map (·.name)).getD []

end Descriptor

end DocumentMapper
