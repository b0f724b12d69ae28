import DocumentMapper.Proofs.Repository.Submission
import DocumentMapper.Repository.Operation

/-
  Operations as a plan, a submission and an ending.

  Up to its request an operation only prepares. What it has
  settled by then is its plan; the one submission of the
  operation depends on nothing else.

  Key definitions include:
    * `Plan`, `WritePlan`
    * `Repository.planWrite`, `Repository.finishWrite`
    * `Repository.planFind`, `Repository.finishFind`
    * `Repository.planExists`, `Repository.finishExists`
    * `Repository.planRemoveDocument`, `Repository.planRemove`

  Main statements include:
    * `Repository.write_eq`
    * `Repository.find_eq`
    * `Repository.isStored_eq`
    * `Repository.removeDocument_eq`, `Repository.remove_eq`
-/

namespace DocumentMapper

variable {T : Type}
variable [EntityTypes T]
variable {K : Hooks T}

/- A request and the attempt that it belongs to. -/
structure Plan where
  request : Request
  attempt? : Option Attempt
  deriving DecidableEq, Repr

/- What the ending of a write needs besides. -/
structure WritePlan extends Plan where
  document : Document
  collection : Text

namespace Repository

------------------------------------------------------------
-- Writes
------------------------------------------------------------

/- The transaction result that a write shows, if it shows one. -/
def earlierShown
    {S : Schema}
    (descriptor : Descriptor S)
    (e : Entity S)
    (kind : RequestKind)
    (attempt? : Option Attempt) :
    Task T K (Option GetResult) :=
  if attempt?.isSome && kind = .replace then
    earlierResult descriptor e
  else
    pure none

/- Everything that a write does before its request. -/
def planWrite
    {t : T}
    (repo : Repository T)
    (intent : WriteIntent)
    (e : EntityOf t)
    (scope : CallScope) : Task T K WritePlan := do
  let descriptor ← Task.ofResult (repo.mapping.descriptor t)
  let name := chosenCollection repo.settings descriptor scope
  let token ← Task.ofAccessor (repo.mapping.tokenOf e)
  let attempt? ← repo.activeAttempt scope
  let kind ← Task.ofResult
    (requestKind intent token attempt?.isSome
      ((repo.mapping.idOf e).getD []) name.qualified)
  match repo.mapping.idOf e with
  | none => Task.fail (noIdentifier kind)
  | some id =>
      let resolved ← repo.resolve name kind id
      let document ← Task.inContext kind id resolved.qualified
        (Task.ofStep (repo.codec.encode e name.collection))
      let payload ← Task.inContext kind id resolved.qualified
        (Task.ofResult document.toPayload)
      let earlier? ← earlierShown descriptor e kind attempt?
      return {
        request :=
          { kind, id
            payload? := some payload
            cas := if kind = .replace then token else 0
            collection := resolved
            expiry :=
              writeExpiry repo.settings scope document.expiry
            durability := scope.durability
            earlier? }
        attempt?, document
        collection := name.collection }

/- What a write does with the answer. -/
def finishWrite
    {t : T}
    (repo : Repository T)
    (e : EntityOf t)
    (plan : WritePlan)
    (record : StoreRecord) : Task T K (EntityOf t) :=
  Task.inContext plan.request.kind plan.request.id
    plan.request.collection.qualified
    (repo.writeback.apply e plan.document
      (if record.id = [] then plan.request.id else record.id)
      record.cas record.result? plan.collection)

/- A write is its plan, its submission and its ending. -/
theorem write_eq
    {t : T}
    (repo : Repository T)
    (intent : WriteIntent)
    (e : EntityOf t)
    (scope : CallScope) :
    (repo.write intent e scope : Task T K (EntityOf t)) =
      (do
        let plan ← repo.planWrite intent e scope
        let record ← repo.submit plan.request plan.attempt?
        repo.finishWrite e plan record) := by
  unfold write planWrite
  simp only [bind_assoc]
  apply bind_congr
  intro descriptor
  apply bind_congr
  intro token
  apply bind_congr
  intro attempt?
  apply bind_congr
  intro kind
  cases repo.mapping.idOf e with
  | none => simp only [Task.fail_bind]
  | some id =>
      simp only [bind_assoc, pure_bind, earlierShown]
      apply bind_congr
      intro resolved
      apply bind_congr
      intro document
      apply bind_congr
      intro payload
      split
      · rfl
      · simp only [pure_bind]
        rfl

------------------------------------------------------------
-- Reads
------------------------------------------------------------

/- The attempt and the collection of a read. -/
def reach
    (repo : Repository T)
    (t : T)
    (kind : RequestKind)
    (id : Text)
    (scope : CallScope) :
    Task T K (Option Attempt × CollectionName) := do
  let descriptor ← Task.ofResult (repo.mapping.descriptor t)
  let name := chosenCollection repo.settings descriptor scope
  let attempt? ← repo.activeAttempt scope
  let resolved ← repo.resolve name kind id
  return (attempt?, resolved)

/- Everything that finding does before its request. -/
def planFind
    (repo : Repository T)
    (t : T)
    (id : Text)
    (options : ReadOptions)
    (scope : CallScope) : Task T K Plan := do
  let (attempt?, resolved) ← repo.reach t .get id scope
  return {
    request :=
      { kind := .get
        id
        collection := resolved
        find := options }
    attempt? }

/- What finding does with the answer. -/
def finishFind
    (repo : Repository T)
    (t : T)
    (plan : Plan) :
    Result StoreRecord → Task T K (Option (EntityOf t))
  | .ok record => do
      let e ← Task.inContext .get plan.request.id
        plan.request.collection.qualified
        (repo.entityOfRecord t plan.request.id record)
      return some e
  | .error e =>
      if e.isStorageFault .documentNotFound then
        return none
      else
        Task.fail e

/- Finding is its plan, its submission and its ending. -/
theorem find_eq
    (repo : Repository T)
    (t : T)
    (id : Text)
    (options : ReadOptions)
    (scope : CallScope) :
    (repo.find t id options scope :
        Task T K (Option (EntityOf t))) =
      (do
        let plan ← repo.planFind t id options scope
        let answer ← Task.result
          (repo.submit plan.request plan.attempt?)
        repo.finishFind t plan answer) := by
  unfold find planFind reach
  simp only [bind_assoc, pure_bind]
  apply bind_congr
  intro descriptor
  apply bind_congr
  intro attempt?
  apply bind_congr
  intro resolved
  apply bind_congr
  intro answer
  cases answer with
  | ok record => rfl
  | error e => rfl

/- Everything that a test for a document does before its request. -/
def planExists
    (repo : Repository T)
    (t : T)
    (id : Text)
    (scope : CallScope) : Task T K Plan := do
  let (attempt?, resolved) ← repo.reach t .exists id scope
  return {
    request :=
      { kind := if attempt?.isSome then .get else .exists
        id
        collection := resolved }
    attempt? }

/- What a test for a document does with the answer. -/
def finishExists
    (plan : Plan) : Result StoreRecord → Task T K Bool
  | .ok record =>
      return plan.attempt?.isSome || record.isPresent
  | .error e =>
      if plan.attempt?.isSome &&
          e.isStorageFault .documentNotFound then
        return false
      else
        Task.fail e

/- The test is its plan, its submission and its ending. -/
theorem isStored_eq
    (repo : Repository T)
    (t : T)
    (id : Text)
    (scope : CallScope) :
    (repo.isStored t id scope : Task T K Bool) =
      (do
        let plan ← repo.planExists t id scope
        let answer ← Task.result
          (repo.submit plan.request plan.attempt?)
        finishExists plan answer) := by
  unfold isStored planExists reach
  simp only [bind_assoc, pure_bind]
  apply bind_congr
  intro descriptor
  apply bind_congr
  intro attempt?
  apply bind_congr
  intro resolved
  apply bind_congr
  intro answer
  cases answer with
  | ok record => rfl
  | error e => rfl

------------------------------------------------------------
-- Removals
------------------------------------------------------------

/- Everything that a removal does before its request. -/
def planRemoval
    (repo : Repository T)
    (name : CollectionName)
    (id : Text)
    (cas : UInt64)
    (earlier? : Option GetResult)
    (scope : CallScope) : Task T K Plan := do
  let resolved ← repo.resolve name .remove id
  let attempt? ← repo.activeAttempt scope
  return {
    request :=
      { kind := .remove
        id, cas
        collection := resolved
        durability := scope.durability
        earlier? }
    attempt? }

/- Everything that removing a document does before its request. -/
def planRemoveDocument
    (repo : Repository T)
    (t : T)
    (id : Text)
    (cas : UInt64)
    (scope : CallScope) : Task T K Plan := do
  let descriptor ← Task.ofResult (repo.mapping.descriptor t)
  let name := chosenCollection repo.settings descriptor scope
  repo.planRemoval name id cas none scope

/- Everything that removing an entity does before its request. -/
def planRemove
    {t : T}
    (repo : Repository T)
    (e : EntityOf t)
    (scope : CallScope) : Task T K Plan := do
  let descriptor ← Task.ofResult (repo.mapping.descriptor t)
  match repo.mapping.idOf e with
  | none => Task.fail (noIdentifier .remove)
  | some id =>
      let name := chosenCollection repo.settings descriptor scope
      let earlier? ← earlierResult descriptor e
      let cas ← Task.ofAccessor (repo.mapping.tokenOf e)
      repo.planRemoval name id cas earlier? scope

/- A removal is its plan and its submission. -/
theorem submitRemoval_eq
    (repo : Repository T)
    (name : CollectionName)
    (id : Text)
    (cas : UInt64)
    (earlier? : Option GetResult)
    (scope : CallScope) :
    (repo.submitRemoval name id cas earlier? scope :
        Task T K StoreRecord) =
      (do
        let plan ← repo.planRemoval name id cas earlier? scope
        repo.submit plan.request plan.attempt?) := by
  unfold submitRemoval planRemoval
  simp only [bind_assoc, pure_bind]

/- Removing a document is its plan and its submission. -/
theorem removeDocument_eq
    (repo : Repository T)
    (t : T)
    (id : Text)
    (cas : UInt64)
    (scope : CallScope) :
    (repo.removeDocument t id cas scope :
        Task T K StoreRecord) =
      (do
        let plan ← repo.planRemoveDocument t id cas scope
        repo.submit plan.request plan.attempt?) := by
  unfold removeDocument planRemoveDocument
  simp only [bind_assoc, submitRemoval_eq]

/- Removing an entity is its plan and its submission. -/
theorem remove_eq
    {t : T}
    (repo : Repository T)
    (e : EntityOf t)
    (scope : CallScope) :
    (repo.remove e scope : Task T K StoreRecord) =
      (do
        let plan ← repo.planRemove e scope
        repo.submit plan.request plan.attempt?) := by
  unfold remove planRemove
  simp only [bind_assoc]
  apply bind_congr
  intro descriptor
  cases repo.mapping.idOf e with
  | none => simp only [Task.fail_bind]
  | some id => simp only [bind_assoc, submitRemoval_eq]

end Repository

end DocumentMapper
