import DocumentMapper.Document.Payload
import DocumentMapper.Event.Hooks
import DocumentMapper.Mapping

/-
  Entities as documents and back.

  Only declared fields become attributes; the identifier and
  the expiry stand beside them, and an alias stands under the
  type key. The version token is shown under its attribute
  when a document is read, and is the one that came with the
  payload, not one inside of it.

  Key definitions include:
    * `Codec`
    * `CodecFault`, `CodecFault.toError`
    * `Codec.toDocument`
    * `Codec.encode`
    * `Codec.documentOf`
    * `Codec.entityOf`
    * `Codec.decode`
-/

namespace DocumentMapper

------------------------------------------------------------
-- Faults
------------------------------------------------------------

/- Why a document does not fit the type it is read as. -/
inductive CodecFault where
  | wrongType (id found expected : Text)
  | missingType (id typeKey : Text)
  | missingField (id field : Text)
  deriving DecidableEq, Repr

namespace CodecFault

/- The wording of a fault. -/
def message : CodecFault → Text
  | .wrongType id found expected =>
      Text.lit "Document " ++ Text.quoted id ++
        Text.lit " has type metadata " ++ found ++
        Text.lit ", expected \"" ++ expected ++
        Text.lit "\""
  | .missingType id typeKey =>
      Text.lit "Document " ++ Text.quoted id ++
        Text.lit " is missing type metadata " ++
        Text.quoted typeKey
  | .missingField id field =>
      Text.lit "Document " ++ Text.quoted id ++
        Text.lit " is missing required field " ++
        Text.quoted field

/- Every fault is a decode error. -/
def toError
    (fault : CodecFault) : Error :=
  .decode fault.message

end CodecFault

/- An error of one field, with its name and its document in front. -/
def inField
    (id field : Text)
    (e : Error) : Error :=
  { e with
    message :=
      Text.lit "Field " ++ Text.quoted field ++
        Text.lit " of document " ++ Text.quoted id ++
        Text.lit ": " ++ e.message }

------------------------------------------------------------
-- The Codec
------------------------------------------------------------

/-
  What a codec works with: the mapping, the attribute for
  type metadata, whether that is required, and whether there
  are callbacks and a bus. An empty type key disables type
  metadata.
-/
structure Codec (T : Type) [EntityTypes T] where
  mapping : Mapping T
  typeKey : Text := Text.lit "_class"
  requireTypeMetadata : Bool := false
  hasCallbacks : Bool := true
  hasBus : Bool := true

namespace Codec

variable {T : Type}
variable [EntityTypes T]
variable {K : Hooks T}
variable {t : T}

/-
  The attribute and the alias that mark documents of a type,
  if they are marked.
-/
def typeMark?
    {S : Schema}
    (c : Codec T)
    (d : Descriptor S) : Option (Text × Text) :=
  if c.typeKey = [] ∨ d.aliasName = [] then
    none
  else
    some (c.typeKey, d.aliasName)

------------------------------------------------------------
-- Encoding
------------------------------------------------------------

/-
  Write fields into a document one after the other, up to the
  first failure.
-/
def writeAttributes
    {S : Schema}
    (conversions : Conversions)
    (e : Entity S)
    (document : Document) :
    List (AttributeBinding S) → Result Document
  | [] => .ok document
  | field :: rest =>
      match field.write conversions e with
      | .ok value =>
          writeAttributes conversions e
            (document.put field.name value) rest
      | .error cause =>
          .error (inField document.id field.name cause)

/- The document of an entity, as its descriptor declares it. -/
def toDocument
    {S : Schema}
    (c : Codec T)
    (d : Descriptor S)
    (e : Entity S) : Result Document :=
  let document := Document.ofId ((d.idOf e).getD [])
  let document :=
    match c.typeMark? d with
    | some (key, mark) => document.put key (.string mark)
    | none => document
  (writeAttributes c.mapping.conversions e document d.fields).map
    (·.withExpiry d.expiry)

/-
  Encode an entity for a collection. Callbacks may replace
  the entity before it is converted; listeners and later
  callbacks see it as it was given.
-/
def encode
    (c : Codec T)
    (e : EntityOf t)
    (collection : Text) : Step T K Document := do
  let d ← Step.ofResult (c.mapping.descriptor t)
  publishIf c.hasBus
    ⟨.beforeConvert, t, e, none, collection⟩
  let converted ←
    if c.hasCallbacks then
      substitute e collection
    else
      pure e
  let document ← Step.ofResult (c.toDocument d converted)
  if c.hasCallbacks then
    inspect e document collection
  publishIf c.hasBus
    ⟨.beforeSave, t, e, some document, collection⟩
  return document

------------------------------------------------------------
-- Decoding
------------------------------------------------------------

/- Check the type metadata of a document. -/
def checkType
    {S : Schema}
    (c : Codec T)
    (d : Descriptor S)
    (id : Text)
    (document : Document) : Result Unit :=
  match c.typeMark? d with
  | none => .ok ()
  | some (key, expected) =>
      match document.get? key with
      | some (.string found) =>
          if found = expected then
            .ok ()
          else
            .error (CodecFault.wrongType id
              (Json.string found).render expected).toError
      | some value =>
          .error
            (CodecFault.wrongType id value.render expected).toError
      | none =>
          if c.requireTypeMetadata then
            .error (CodecFault.missingType id key).toError
          else
            .ok ()

/-
  The document of a payload, with its identifier and its
  token, and checked for its type.
-/
def documentOf
    (c : Codec T)
    (t : T)
    (id payload : Text)
    (cas : UInt64) : Result Document := do
  let d ← c.mapping.descriptor t
  let document ← (Document.ofId id).absorb payload
  let document :=
    match d.version? with
    | some field =>
        if cas = 0 then
          document
        else
          document.put field.name (.unsigned cas)
    | none => document
  c.checkType d id document
  return document

/-
  Read fields of a document one after the other, up to the
  first failure.
-/
def readAttributes
    {S : Schema}
    (conversions : Conversions)
    (document : Document)
    (e : Entity S) : List (AttributeBinding S) → Result (Entity S)
  | [] => .ok e
  | field :: rest =>
      match document.get? field.name with
      | none =>
          if field.isRequired then
            .error (CodecFault.missingField document.id
              field.name).toError
          else
            readAttributes conversions document e rest
      | some value =>
          match field.read conversions e value with
          | .ok e => readAttributes conversions document e rest
          | .error cause =>
              .error (inField document.id field.name cause)

/- Take over the token that a document shows, if it shows one. -/
def readVersion
    {S : Schema}
    (d : Descriptor S)
    (document : Document)
    (e : Entity S) : Result (Entity S) :=
  match d.version? with
  | none => .ok e
  | some field =>
      match (document.get? field.name).bind Json.natural? with
      | some token => d.withToken e token.toUInt64
      | none => .ok e

/- The entity of a document. -/
def entityOf
    (c : Codec T)
    (t : T)
    (document : Document) : Result (EntityOf t) := do
  let d ← c.mapping.descriptor t
  let e := Entity.initial (EntityTypes.schema t)
  let e :=
    if document.id = [] then e else d.withId e document.id
  let e ←
    readAttributes c.mapping.conversions document e d.fields
  readVersion d document e

/- The entity of a payload that came with a token. -/
def decode
    (c : Codec T)
    (t : T)
    (id payload : Text)
    (cas : UInt64) : Result (EntityOf t) := do
  let document ← c.documentOf t id payload cas
  let e ← c.entityOf t document
  let d ← c.mapping.descriptor t
  d.withToken e cas

end Codec

end DocumentMapper
