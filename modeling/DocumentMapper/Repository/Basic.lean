import DocumentMapper.Codec
import DocumentMapper.Error.Reporting
import DocumentMapper.Repository.Policy
import DocumentMapper.Repository.Writeback

/-
  The repository: operations on entities, carried out by a
  resolver and two executors.

  An operation resolves its collection, hands one request to
  one executor, and turns the answer into an entity. It goes
  to the transactional executor exactly when an attempt is
  active. Errors of collaborators are reclassified for callers
  and get the context that they lack.

  Key definitions include:
    * `Wiring`, `Repository`
    * `Repository.resolve`, `Repository.submit`
    * `Repository.write`
    * `Repository.decodeKeeping`
    * `Repository.find`, `Repository.findAll`
    * `Repository.isStored`
    * `Repository.removeDocument`, `Repository.remove`
-/

namespace DocumentMapper

------------------------------------------------------------
-- Repositories
------------------------------------------------------------

/- Which collaborators are connected. -/
structure Wiring where
  resolver : Bool := true
  executor : Bool := true
  attemptExecutor : Bool := true
  provider : Bool := true
  bus : Bool := true
  callbacks : Bool := true
  deriving DecidableEq, Repr

/- The settings, the mapping and the connected collaborators. -/
structure Repository (T : Type) [EntityTypes T] where
  settings : Settings := {}
  mapping : Mapping T
  wiring : Wiring := {}

namespace Repository

variable {T : Type}
variable [EntityTypes T]
variable {K : Hooks T}

/- The codec of a repository. -/
def codec
    (repo : Repository T) : Codec T where
  mapping := repo.mapping
  typeKey := repo.settings.typeKey
  requireTypeMetadata := repo.settings.requireTypeMetadata
  hasCallbacks := repo.wiring.callbacks
  hasBus := repo.wiring.bus

/- How a repository takes answers over into entities. -/
def writeback
    (repo : Repository T) : Writeback T where
  mapping := repo.mapping
  hasBus := repo.wiring.bus

------------------------------------------------------------
-- Collaborators
------------------------------------------------------------

/-
  The active attempt: the one the call gives, or else the one
  the provider knows.
-/
def activeAttempt
    (repo : Repository T)
    (scope : CallScope) : Task T K (Option Attempt) :=
  match scope.attempt? with
  | some attempt => pure (some attempt)
  | none =>
      if repo.wiring.provider then
        Task.ask .currentAttempt
      else
        pure none

/- The collection that the resolver knows under a name. -/
def resolve
    (repo : Repository T)
    (name : CollectionName)
    (kind : RequestKind)
    (id : Text) : Task T K CollectionName :=
  let withContext (e : Error) : Error :=
    e.withContext kind.name id name.qualified
  if repo.wiring.resolver then do
    match ← Task.ask (.resolve name) with
    | .ok resolved => pure resolved
    | .failed e => Task.fail (withContext e.ofResolution)
    | .threw what =>
        Task.fail
          (withContext (Error.ofException what).ofResolution)
  else
    Task.fail
      (withContext
        (.invalidState
          (Text.lit "No collection resolver configured")))

/- The caller asked to stop. -/
def stopped
    (request : Request)
    (moment : String) : Error :=
  ({ code := .operationCancelled
     message :=
      Text.lit "Operation cancelled " ++ Text.lit moment
      : Error }).withContext
    request.kind.name request.id
    request.collection.qualified

/-
  Hand a request to the executor for it, and wait for the
  answer. An earlier result is shown inside an attempt only. A
  caller who asked to stop, before or meanwhile, gets no
  answer.
-/
def submit
    (repo : Repository T)
    (request : Request)
    (attempt? : Option Attempt) : Task T K StoreRecord := do
  let withContext (e : Error) : Error :=
    e.withContext request.kind.name request.id
      request.collection.qualified
  if ← Task.ask .stopRequested then
    Task.fail (stopped request "before dispatch")
  if attempt?.isSome && !repo.wiring.attemptExecutor then
    Task.fail
      (withContext
        (.invalidState
          (Text.lit "No transactional executor configured")))
  if attempt?.isNone && !repo.wiring.executor then
    Task.fail
      (withContext
        (.invalidState
          (Text.lit "No key-value executor configured")))
  let shown : Request :=
    { request with
      earlier? :=
        if attempt?.isSome then request.earlier? else none }
  let reply ← Task.ask (.submit attempt? shown)
  if ← Task.ask .stopRequested then
    Task.fail (stopped request "before completion")
  match reply with
  | .ok record => return record
  | .failed e => Task.fail (withContext e.ofExecution)
  | .threw what =>
      Task.fail (withContext (Error.ofException what).ofExecution)

/- The transaction result that belongs to the key of an entity. -/
def earlierResult
    {S : Schema}
    (descriptor : Descriptor S)
    (e : Entity S) : Task T K (Option GetResult) := do
  match descriptor.keyOf e with
  | some key =>
      if 0 < key then
        return (← Task.registry).find? key
      else
        return none
  | none => return none

/- An entity without an identifier cannot be written or removed. -/
def noIdentifier
    (kind : RequestKind) : Error :=
  { code := .invalidArgument
    message := Text.lit "Entity has no identifier"
    operation := kind.name }

------------------------------------------------------------
-- Writing
------------------------------------------------------------

/- Write an entity as intended, and return it as the store has it. -/
def write
    {t : T}
    (repo : Repository T)
    (intent : WriteIntent)
    (e : EntityOf t)
    (scope : CallScope) : Task T K (EntityOf t) := do
  let descriptor ← Task.ofResult (repo.mapping.descriptor t)
  let name := chosenCollection repo.settings descriptor scope
  let id? := repo.mapping.idOf e
  let token ← Task.ofAccessor (repo.mapping.tokenOf e)
  let attempt? ← repo.activeAttempt scope
  let kind ← Task.ofResult
    (requestKind intent token attempt?.isSome (id?.getD [])
      name.qualified)
  match id? with
  | none => Task.fail (noIdentifier kind)
  | some id =>
      let resolved ← repo.resolve name kind id
      let inContext {α : Type} (x : Task T K α) :=
        Task.inContext kind id resolved.qualified x
      let document ← inContext
        (Task.ofStep (repo.codec.encode e name.collection))
      let payload ← inContext
        (Task.ofResult document.toPayload)
      let earlier? ←
        if attempt?.isSome && kind = .replace then
          earlierResult descriptor e
        else
          pure none
      let record ← repo.submit
        { kind, id
          payload? := some payload
          cas := if kind = .replace then token else 0
          collection := resolved
          expiry :=
            writeExpiry repo.settings scope document.expiry
          durability := scope.durability
          earlier? } attempt?
      inContext
        (repo.writeback.apply e document
          (if record.id = [] then id else record.id)
          record.cas record.result?
          name.collection)

/- Save an entity: replace what has a token, else insert or upsert. -/
def save
    {t : T}
    (repo : Repository T)
    (e : EntityOf t)
    (scope : CallScope) : Task T K (EntityOf t) :=
  repo.write .save e scope

/- Insert an entity. -/
def insert
    {t : T}
    (repo : Repository T)
    (e : EntityOf t)
    (scope : CallScope) : Task T K (EntityOf t) :=
  repo.write .insert e scope

/- Insert or replace an entity, whatever its token. -/
def upsert
    {t : T}
    (repo : Repository T)
    (e : EntityOf t)
    (scope : CallScope) : Task T K (EntityOf t) :=
  repo.write .upsert e scope

/- Replace an entity that the store has. -/
def replace
    {t : T}
    (repo : Repository T)
    (e : EntityOf t)
    (scope : CallScope) : Task T K (EntityOf t) :=
  repo.write .replace e scope

------------------------------------------------------------
-- Finding
------------------------------------------------------------

/-
  The entity of a payload, with the key of a transaction
  result that came with it.
-/
def decodeKeeping
    (repo : Repository T)
    (t : T)
    (id payload : Text)
    (cas : UInt64)
    (result? : Option GetResult) : Task T K (EntityOf t) := do
  let e ← Task.ofResult (repo.codec.decode t id payload cas)
  let descriptor ← Task.ofResult (repo.mapping.descriptor t)
  Writeback.keep descriptor e result?

/- The entity of an answer to a get. -/
def entityOfRecord
    (repo : Repository T)
    (t : T)
    (id : Text)
    (record : StoreRecord) : Task T K (EntityOf t) :=
  match record.content? with
  | none =>
      Task.fail
        (.decode (Text.lit "Executor returned no content"))
  | some payload =>
      repo.decodeKeeping t id payload record.cas
        record.result?

/- Find an entity; a document that the store does not have is none. -/
def find
    (repo : Repository T)
    (t : T)
    (id : Text)
    (options : ReadOptions)
    (scope : CallScope) :
    Task T K (Option (EntityOf t)) := do
  let descriptor ← Task.ofResult (repo.mapping.descriptor t)
  let name := chosenCollection repo.settings descriptor scope
  let attempt? ← repo.activeAttempt scope
  let resolved ← repo.resolve name .get id
  let answer ← Task.result <| repo.submit
    { kind := .get
      id
      collection := resolved
      find := options } attempt?
  match answer with
  | .ok record =>
      let e ← Task.inContext .get id resolved.qualified
        (repo.entityOfRecord t id record)
      return some e
  | .error e =>
      if e.isStorageFault .documentNotFound then
        return none
      else
        Task.fail e

/-
  Find entities one after the other, up to the first failure;
  missing ones are left out.
-/
def findAll
    (repo : Repository T)
    (t : T)
    (options : ReadOptions)
    (scope : CallScope) :
    List Text → Task T K (List (EntityOf t))
  | [] => pure []
  | id :: rest => do
      let found ← repo.find t id options scope
      let others ← findAll repo t options scope rest
      return found.toList ++ others

/-
  Tell whether the store has a document; inside an attempt, by
  getting it.
-/
def isStored
    (repo : Repository T)
    (t : T)
    (id : Text)
    (scope : CallScope) : Task T K Bool := do
  let descriptor ← Task.ofResult (repo.mapping.descriptor t)
  let name := chosenCollection repo.settings descriptor scope
  let attempt? ← repo.activeAttempt scope
  let resolved ← repo.resolve name .exists id
  let answer ← Task.result <| repo.submit
    { kind := if attempt?.isSome then .get else .exists
      id
      collection := resolved } attempt?
  match answer with
  | .ok record =>
      return attempt?.isSome || record.isPresent
  | .error e =>
      if attempt?.isSome && e.isStorageFault .documentNotFound then
        return false
      else
        Task.fail e

------------------------------------------------------------
-- Removing
------------------------------------------------------------

/-
  Remove a document; a token other than zero has to be the
  stored one.
-/
def submitRemoval
    (repo : Repository T)
    (name : CollectionName)
    (id : Text)
    (cas : UInt64)
    (earlier? : Option GetResult)
    (scope : CallScope) : Task T K StoreRecord := do
  let resolved ← repo.resolve name .remove id
  let attempt? ← repo.activeAttempt scope
  repo.submit
    { kind := .remove
      id, cas
      collection := resolved
      durability := scope.durability
      earlier? } attempt?

/- Remove the document with an identifier. -/
def removeDocument
    (repo : Repository T)
    (t : T)
    (id : Text)
    (cas : UInt64)
    (scope : CallScope) : Task T K StoreRecord := do
  let descriptor ← Task.ofResult (repo.mapping.descriptor t)
  let name := chosenCollection repo.settings descriptor scope
  repo.submitRemoval name id cas none scope

/-
  Remove the document of an entity, provided that its token is
  the stored one.
-/
def remove
    {t : T}
    (repo : Repository T)
    (e : EntityOf t)
    (scope : CallScope) : Task T K StoreRecord := do
  let descriptor ← Task.ofResult (repo.mapping.descriptor t)
  match repo.mapping.idOf e with
  | none => Task.fail (noIdentifier .remove)
  | some id =>
      let name := chosenCollection repo.settings descriptor scope
      let earlier? ← earlierResult descriptor e
      let cas ← Task.ofAccessor (repo.mapping.tokenOf e)
      repo.submitRemoval name id cas earlier? scope

end Repository

end DocumentMapper
