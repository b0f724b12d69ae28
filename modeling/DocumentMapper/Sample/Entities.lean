import DocumentMapper.Entity.Descriptor
import DocumentMapper.Sample.Conversions

/-
  The entity types of a sample application.

  Between them they have every type of member, every type
  that can hold a version token, and three of the types that
  can hold a transaction key.

  Key definitions include:
    * `Sample.EntityType`, `Sample.schema`
    * `Sample.idMember`
    * `Sample.VersionMember`, `Sample.versionMember?`
    * `Sample.keyBinding?`
-/

namespace DocumentMapper

namespace Sample

------------------------------------------------------------
-- Types
------------------------------------------------------------

/- The entity types of the application. -/
inductive EntityType where
  | person
  | user
  | note
  | shape
  | wide
  | ticket
  | account
  | loose
  deriving DecidableEq, Repr

/- A member that starts with the initial value of its type. -/
abbrev plain
    (name : String)
    (type : FieldType) : MemberSpec :=
  ⟨Text.lit name, type, type.initial⟩

/- Someone with a name. -/
abbrev personSchema : Schema where
  name := Text.lit "Person"
  members :=
    [plain "id" .string,
     plain "version" .uint64,
     plain "name" .string,
     plain "txKey" (.option .int64)]

/- A user account with scores per topic. -/
abbrev userSchema : Schema where
  name := Text.lit "User"
  members :=
    [plain "id" .string,
     ⟨Text.lit "cas", .int64, -1⟩,
     plain "name" .string,
     plain "age" .int32,
     plain "active" .bool,
     plain "tags" (.list .string),
     plain "email" (.option .string),
     plain "scores" (.map .double)]

/- A text that has no version token. -/
abbrev noteSchema : Schema where
  name := Text.lit "Note"
  members :=
    [plain "id" .string,
     plain "text" .string,
     plain "likes" .int64]

/- A record of the application as a member. -/
abbrev shapeSchema : Schema where
  name := Text.lit "Shape"
  members :=
    [plain "id" .string,
     plain "origin" (.record point)]

/- One member of every kind. -/
abbrev wideSchema : Schema where
  name := Text.lit "Wide"
  members :=
    [plain "id" .string,
     plain "rev" (.option .uint64),
     plain "txKey" .int32,
     ⟨Text.lit "i32", .int32, 7⟩,
     plain "i64" .int64,
     plain "u64" .uint64,
     plain "f64" .double,
     plain "f32" .float,
     plain "flag" .bool,
     ⟨Text.lit "s", .string, Text.lit "dflt"⟩,
     plain "at" .time,
     plain "js" .json,
     plain "opt" (.option .int32),
     plain "vec" (.list .int64),
     plain "map" (.map .uint64),
     plain "deep" (.map (.list (.option .string))),
     plain "optvec" (.option (.list .double))]

/- A title, with a signed token that may be absent. -/
abbrev ticketSchema : Schema where
  name := Text.lit "Ticket"
  members :=
    [plain "id" .string,
     plain "rev" (.option .int64),
     plain "txKey" .int64,
     plain "title" .string]

/- An account that keeps its token as text. -/
abbrev accountSchema : Schema where
  name := Text.lit "Account"
  members :=
    [plain "key" .string,
     plain "revision" .string,
     plain "owner" .string]

/- A type without attributes. -/
abbrev looseSchema : Schema where
  name := Text.lit "Loose"
  members :=
    [plain "id" .string,
     ⟨Text.lit "version", .uint64, 5⟩]

/- The schema of each type. -/
@[reducible]
def schema : EntityType → Schema
  | .person => personSchema
  | .user => userSchema
  | .note => noteSchema
  | .shape => shapeSchema
  | .wide => wideSchema
  | .ticket => ticketSchema
  | .account => accountSchema
  | .loose => looseSchema

instance : EntityTypes EntityType where
  decEq := inferInstance
  schema := schema

/- All types. -/
def entityTypes : List EntityType :=
  [.person, .user, .note, .shape, .wide, .ticket, .account,
   .loose]

------------------------------------------------------------
-- Fields That the Store Owns
------------------------------------------------------------

/- The member with the identifier, which always comes first. -/
def idMember :
    (t : EntityType) → Member (schema t) .string
  | .person => ⟨⟨0, by decide⟩, rfl⟩
  | .user => ⟨⟨0, by decide⟩, rfl⟩
  | .note => ⟨⟨0, by decide⟩, rfl⟩
  | .shape => ⟨⟨0, by decide⟩, rfl⟩
  | .wide => ⟨⟨0, by decide⟩, rfl⟩
  | .ticket => ⟨⟨0, by decide⟩, rfl⟩
  | .account => ⟨⟨0, by decide⟩, rfl⟩
  | .loose => ⟨⟨0, by decide⟩, rfl⟩

/- A member that holds a version token. -/
structure VersionMember (S : Schema) where
  type : TokenType
  member : Member S type.fieldType

/- The member with the version token, if it is kept as a number. -/
def versionMember? :
    (t : EntityType) → Option (VersionMember (schema t))
  | .person => some ⟨.uint64, ⟨⟨1, by decide⟩, rfl⟩⟩
  | .user => some ⟨.int64, ⟨⟨1, by decide⟩, rfl⟩⟩
  | .wide => some ⟨.optionalUInt64, ⟨⟨1, by decide⟩, rfl⟩⟩
  | .ticket => some ⟨.optionalInt64, ⟨⟨1, by decide⟩, rfl⟩⟩
  | .loose => some ⟨.uint64, ⟨⟨1, by decide⟩, rfl⟩⟩
  | .note | .shape | .account => none

/- The member with the transaction key. -/
def keyBinding? :
    (t : EntityType) → Option (KeyBinding (schema t))
  | .person => some ⟨.optionalInt64, ⟨⟨3, by decide⟩, rfl⟩⟩
  | .wide => some ⟨.int32, ⟨⟨2, by decide⟩, rfl⟩⟩
  | .ticket => some ⟨.int64, ⟨⟨2, by decide⟩, rfl⟩⟩
  | .user | .note | .shape | .account | .loose => none

/- The member in which an account keeps its token as text. -/
def revisionMember : Member accountSchema .string :=
  ⟨⟨1, by decide⟩, rfl⟩

end Sample

end DocumentMapper
