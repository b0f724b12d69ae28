import DocumentMapper.Mapping
import DocumentMapper.Sample.Entities

/-
  What the sample application declares of its entity types.

  A declaration says how each field that the store owns is
  reached, and which members are attributes. Every type has a
  usual declaration, from which others differ in a few
  points.

  Key definitions include:
    * `Sample.IdMode`, `Sample.VersionMode`
    * `Sample.Attribute`
    * `Sample.Declaration`, `Sample.Declaration.usual`
    * `Sample.Declaration.descriptor`
-/

namespace DocumentMapper

namespace Sample

------------------------------------------------------------
-- Accessors
------------------------------------------------------------

/- How an identifier is reached. -/
inductive IdMode where
  | member
  | custom
  | getterOnly
  deriving DecidableEq, Repr

/-
  Accessors on the identifier member; they show an empty
  identifier as one that is there.
-/
def idBinding
    (t : EntityType)
    (mode : IdMode) : IdBinding (schema t) :=
  let m := idMember t
  match mode with
  | .member => .member m
  | .custom =>
      .custom
        (fun e => some (e.get m))
        (some fun e id => e.put m id)
  | .getterOnly => .custom (fun e => some (e.get m)) none

/- How a version token is reached. -/
inductive VersionMode where
  | member
  | custom
  | getterOnly
  deriving DecidableEq, Repr

/-
  The token in the text of an account; an account that has no
  token yet has no text. Other texts than digits and numbers
  beyond 64 bits are refused.
-/
def revision
    (e : Entity accountSchema) : Except Text (Option UInt64) :=
  let text := e.get revisionMember
  if text = [] then
    .ok none
  else
    match Text.readNat? text with
    | some n =>
        if n < UInt64.size then
          .ok (some n.toUInt64)
        else
          .error (Text.lit "stoull")
    | none => .error (Text.lit "bad revision")

/- An account with another token in its text. -/
def withRevision
    (e : Entity accountSchema)
    (token : UInt64) : Entity accountSchema :=
  e.put revisionMember (Text.ofNat token.toNat)

/- Where the version token of a type is, unless the type has none. -/
def versionBinding? :
    (t : EntityType) →
      VersionMode → Option (VersionBinding (schema t))
  | .account, .getterOnly => some (.custom revision none)
  | .account, _ =>
      some (.custom revision (some withRevision))
  | t, .getterOnly =>
      (versionMember? t).map fun v =>
        .custom
          (fun e => .ok (v.type.token (e.get v.member)))
          none
  | t, _ =>
      (versionMember? t).map fun v =>
        .member v.type v.member

------------------------------------------------------------
-- Declarations
------------------------------------------------------------

/- A member that is stored under a name of its own. -/
structure Attribute where
  name : Text
  member : Text
  isRequired : Bool := false
  deriving DecidableEq, Repr

/- What is said about an entity type. -/
structure Declaration where
  type : EntityType
  aliasName : Text := []
  id? : Option IdMode := some .member
  version? : Option (Text × VersionMode) := none
  hasKey : Bool := false
  attributes : List Attribute := []
  scope : Text := []
  collection : Text := []
  expiry : Int64 := 0
  deriving Repr

/- The members that are never attributes in a usual declaration. -/
def ownedMembers : List Text :=
  [Text.lit "id", Text.lit "version", Text.lit "cas",
   Text.lit "rev", Text.lit "txKey", Text.lit "key",
   Text.lit "revision"]

/-
  All other members, under their own names; only a user has to
  have a name.
-/
def usualAttributes
    (t : EntityType) : List Attribute :=
  ((schema t).members.filter fun m =>
    m.name ∉ ownedMembers).map fun m =>
      { name := m.name
        member := m.name
        isRequired := t = .user && m.name = Text.lit "name" }

/- The usual alias of a type. -/
def usualAlias : EntityType → Text
  | .user => Text.lit "user"
  | .note => Text.lit "note"
  | .wide => Text.lit "wide"
  | .ticket => Text.lit "ticket"
  | .person | .shape | .account | .loose => []

/- The usual version token of a type, with the name it is shown under. -/
def usualVersion? : EntityType → Option (Text × VersionMode)
  | .person => some (Text.lit "version", .member)
  | .user => some (Text.lit "cas", .member)
  | .wide => some (Text.lit "rev", .member)
  | .ticket => some (Text.lit "rev", .member)
  | .account => some (Text.lit "revision", .custom)
  | .loose => some (Text.lit "version", .member)
  | .note | .shape => none

/- The usual declaration of a type. -/
def Declaration.usual
    (t : EntityType) : Declaration where
  type := t
  aliasName := usualAlias t
  id? := some (if t = .account then .custom else .member)
  version? := usualVersion? t
  hasKey := (keyBinding? t).isSome
  attributes := usualAttributes t

------------------------------------------------------------
-- Descriptors
------------------------------------------------------------

/- The binding of an attribute, if the type has such a member. -/
def Attribute.binding?
    (a : Attribute)
    (S : Schema) : Option (AttributeBinding S) :=
  (S.index? a.member).map fun i => ⟨a.name, i, a.isRequired⟩

/- The descriptor that a declaration asks for. -/
def Declaration.descriptor
    (d : Declaration) : Descriptor (schema d.type) where
  aliasName := d.aliasName
  id? := d.id?.map (idBinding d.type)
  version? :=
    d.version?.bind fun (name, mode) =>
      (versionBinding? d.type mode).map fun binding =>
        ⟨name, binding⟩
  key? := if d.hasKey then keyBinding? d.type else none
  fields :=
    d.attributes.filterMap (·.binding? (schema d.type))
  scope := d.scope
  collection := d.collection
  expiry := d.expiry

/- Register the type of a declaration. -/
def Declaration.register
    (d : Declaration)
    (m : Mapping EntityType) : Mapping EntityType :=
  m.register d.type d.descriptor

end Sample

end DocumentMapper
