import DocumentMapper.Error.Basic

/-
  From the errors of executors and resolvers to the errors
  that callers see.

  Codes that callers know pass through, the others are mapped
  to them, and a code that says nothing useful becomes a
  storage error of unknown kind. Messages and context are
  kept.

  Key definitions include:
    * `Error.ofExecution`
    * `Error.ofResolution`
    * `Error.ofException`
-/

namespace DocumentMapper

namespace Error

/- Turn an error into a storage error of a kind. -/
def toStorageFault
    (e : Error)
    (kind : StorageFault) : Error :=
  { e with code := .storageError, fault := kind }

/- What a caller sees of an error reported by an executor. -/
def ofExecution
    (e : Error) : Error :=
  match e.code with
  | .casMismatch => { e with code := .versionConflict }
  | .transactionConflict | .transactionFailed =>
      { e with code := .transactionConflict }
  | .documentExists => e.toStorageFault .documentExists
  | .notFound => e.toStorageFault .documentNotFound
  | .timeout => e.toStorageFault .timeout
  | .networkError => e.toStorageFault .network
  | .temporaryFailure => e.toStorageFault .temporaryFailure
  | .storageError =>
      if e.fault = .none then
        { e with fault := .unknown }
      else e
  | .mappingError | .decodeError | .versionConflict
  | .operationCancelled | .invalidArgument
  | .invalidState => e
  | .success | .internalError | .unknown =>
      e.toStorageFault .unknown

/-
  What a caller sees of an error reported by a resolver: not
  found means the collection.
-/
def ofResolution
    (e : Error) : Error :=
  if e.code = .notFound then
    e.toStorageFault .collectionNotFound
  else
    e.ofExecution

/- What a caller sees of an exception thrown by a collaborator. -/
def ofException
    (what : Text) : Error :=
  storage .unknown (Text.lit "Executor threw: " ++ what)

end Error

end DocumentMapper
