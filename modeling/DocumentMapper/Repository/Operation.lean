import DocumentMapper.Repository.Basic

/-
  The operations of a repository as values.

  Key definitions include:
    * `Operation`, `Operation.Outcome`
    * `Repository.perform`
-/

namespace DocumentMapper

/- An operation on entities of an application. -/
inductive Operation (T : Type) [EntityTypes T] where
  | write (intent : WriteIntent) (type : T) (entity : EntityOf type)
  | find (type : T) (id : Text) (options : ReadOptions)
  | findAll (type : T) (ids : List Text) (options : ReadOptions)
  | exists (type : T) (id : Text)
  | removeDocument (type : T) (id : Text) (cas : UInt64)
  | remove (type : T) (entity : EntityOf type)

variable {T : Type}
variable [EntityTypes T]
variable {K : Hooks T}

/- What an operation yields when it succeeds. -/
abbrev Operation.Outcome : Operation T → Type
  | .write _ type _ => EntityOf type
  | .find type _ _ => Option (EntityOf type)
  | .findAll type _ _ => List (EntityOf type)
  | .exists _ _ => Bool
  | .removeDocument _ _ _ => StoreRecord
  | .remove _ _ => StoreRecord

/- Carry out an operation. -/
def Repository.perform
    (repo : Repository T)
    (scope : CallScope) :
    (op : Operation T) → Task T K op.Outcome
  | .write intent _ e => repo.write intent e scope
  | .find type id options => repo.find type id options scope
  | .findAll type ids options =>
      repo.findAll type options scope ids
  | .exists type id => repo.isStored type id scope
  | .removeDocument type id cas =>
      repo.removeDocument type id cas scope
  | .remove _ e => repo.remove e scope

end DocumentMapper
