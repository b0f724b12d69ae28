import DocumentMapper.Sample.Declarations
import DocumentMapper.Session.Basic

/-
  The sample application at work: a session in which its types
  are registered, and people to write and find.

  Key definitions include:
    * `Sample.scene`, `Sample.sceneWith`
    * `Sample.someone`
    * `Sample.annStored`, `Sample.annSave`
    * `Sample.annWatched`, `Sample.annMasked`
    * `Sample.annInsert`, `Sample.inAttempt`
    * `Sample.auditedScene`, `Sample.brokenScene`
    * `Sample.bea`, `Sample.beaDocument`
    * `Sample.hiddenPerson`, `Sample.hiddenScene`
    * `Sample.namedPerson`, `Sample.namedScene`
    * `Sample.annDocument`
    * `Sample.unreadable`
-/

namespace DocumentMapper

namespace Sample

/- All types are registered as usual, and nothing is stored. -/
def scene : Session EntityType where
  mapping :=
    entityTypes.foldl
      (fun m t => (Declaration.usual t).register m) .empty

/- The scene with one document in the store. -/
def sceneWith
    (id payload : String)
    (cas : UInt64) : Session EntityType :=
  { scene with
    store.memory :=
      ({ nextCas := cas + 1 } : MemoryStore).seed
        (placeOf (Text.lit "_default._default") (Text.lit id))
        ⟨Text.lit payload, cas⟩ }

/- The member with the name of a person. -/
def nameMember : Member personSchema .string :=
  ⟨⟨2, by decide⟩, rfl⟩

/- A person with an identifier, a version token and a name. -/
def someone
    (id : String)
    (version : UInt64)
    (name : String) : EntityOf EntityType.person :=
  let version? : Member personSchema .uint64 :=
    ⟨⟨1, by decide⟩, rfl⟩
  (((Entity.initial personSchema).put (idMember .person)
    (Text.lit id)).put version? version).put nameMember
    (Text.lit name)

/- Ann is in the store, with the token 7. -/
abbrev annStored : Session EntityType :=
  sceneWith "p1" "\x7b\x7d" 7

/- Ann with this token. -/
abbrev ann : EntityOf EntityType.person :=
  someone "p1" 7 "Ann"

/- Ann is to be saved. -/
abbrev annSave : Operation EntityType :=
  .write .save .person ann

/-
  Ann is in the store, and watched: one listener is told of
  everything, another one of saved entities only, a callback
  writes her name in full, and another one sees her document.
-/
def annWatched : Session EntityType :=
  let watched :=
    ((annStored.subscribe none {}).2.subscribe
      (some .afterSave) {}).2
  { watched with
    before :=
      [⟨.person, { appends := [(nameMember, Text.lit " ")] }⟩]
    after := [⟨.person, {}⟩] }

/-
  Ann is watched as before, but another person with another
  identifier and token is put in her place.
-/
def annMasked : Session EntityType :=
  { annWatched with
    before :=
      [⟨.person,
        { sets :=
            [⟨⟨0, by decide⟩, Text.lit "other"⟩,
              ⟨⟨1, by decide⟩, (9 : UInt64)⟩,
              ⟨⟨2, by decide⟩, Text.lit "Eve"⟩] }⟩] }

/- Ann is to be inserted, without a token. -/
abbrev annInsert : Operation EntityType :=
  .write .insert .person (someone "p1" 0 "Ann")

/- What is called in an attempt. -/
abbrev inAttempt
    (attempt : String) : CallScope :=
  { attempt? := some (Text.lit attempt) }

/- A scene in which a listener objects to every saved entity. -/
def auditedScene : Session EntityType :=
  (scene.subscribe (some .afterSave)
    { ending :=
        .fails
          { code := .invalidState
            message := Text.lit "audit down" } }).2

/- Ann is in the store, followed by a document that is none. -/
def brokenScene : Session EntityType :=
  { annStored with
    store.memory :=
      annStored.store.memory.seed
        (placeOf (Text.lit "_default._default") (Text.lit "p2"))
        ⟨Text.lit "[]", 8⟩ }

/- Bea is a user with an age and two tags. -/
def bea : EntityOf EntityType.user :=
  let name : Member userSchema .string :=
    ⟨⟨2, by decide⟩, rfl⟩
  let age : Member userSchema .int32 :=
    ⟨⟨3, by decide⟩, rfl⟩
  let tags : Member userSchema (.list .string) :=
    ⟨⟨5, by decide⟩, rfl⟩
  ((((Entity.initial userSchema).put (idMember .user)
    (Text.lit "u1")).put name (Text.lit "Bea")).put age 41).put
      tags [Text.lit "math", Text.lit "logic"]

/- The document of Bea. -/
def beaDocument : Document where
  id := Text.lit "u1"
  content :=
    ⟨[(Text.lit "_class", .lit "user"),
      (Text.lit "name", .lit "Bea"),
      (Text.lit "age", .signed 41),
      (Text.lit "active", .bool false),
      (Text.lit "tags", .array [.lit "math", .lit "logic"]),
      (Text.lit "email", .null),
      (Text.lit "scores", .object [])], by decide⟩
  expiry := 0

/-
  People are declared with an alias, and their version token
  is shown under the attribute for type metadata.
-/
def hiddenPerson : Declaration :=
  { Declaration.usual .person with
    aliasName := Text.lit "person"
    version? := some (Text.lit "_class", .member) }

/- A scene in which tokens of people hide the mark of their type. -/
def hiddenScene : Session EntityType :=
  { scene with mapping := hiddenPerson.register scene.mapping }

/-
  People are declared with an alias, and their version token
  is shown under the attribute of their name.
-/
def namedPerson : Declaration :=
  { Declaration.usual .person with
    aliasName := Text.lit "person"
    version? := some (Text.lit "name", .member) }

/- A scene in which tokens of people cover their names. -/
def namedScene : Session EntityType :=
  { scene with mapping := namedPerson.register scene.mapping }

/- The document of Ann in either scene. -/
def annDocument : Document where
  id := Text.lit "p1"
  content :=
    ⟨[(Text.lit "_class", .lit "person"),
      (Text.lit "name", .lit "Ann")], by decide⟩
  expiry := 0

/- An account whose text is no version token. -/
def unreadable : EntityOf EntityType.account :=
  ((Entity.initial accountSchema).put (idMember .account)
    (Text.lit "a1")).put revisionMember (Text.lit "abc")

end Sample

end DocumentMapper
