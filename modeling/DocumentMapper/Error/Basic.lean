import DocumentMapper.Text.Basic

/-
  Errors.

  An error carries a code, a message and, where known, the
  operation, the entity and the collection that it belongs
  to. Codes up to `invalidState` are the ones callers see;
  the later ones are spoken between the library and the
  executors behind it.

  Key definitions include:
    * `ErrorCode`, `ErrorCode.text`
    * `StorageFault`, `StorageFault.name`
    * `Error`
    * `Error.summary`
    * `Error.withContext`
-/

namespace DocumentMapper

------------------------------------------------------------
-- Codes
------------------------------------------------------------

/- What went wrong, as far as a caller can act on it. -/
inductive ErrorCode where
  | success
  | mappingError
  | decodeError
  | storageError
  | versionConflict
  | transactionConflict
  | operationCancelled
  | invalidArgument
  | invalidState
  | casMismatch
  | documentExists
  | notFound
  | timeout
  | networkError
  | temporaryFailure
  | transactionFailed
  | internalError
  | unknown
  deriving DecidableEq, Repr, Inhabited

/- The wording of a code. -/
def ErrorCode.text : ErrorCode → Text
  | .success => Text.lit "Success"
  | .mappingError => Text.lit "Mapping error"
  | .decodeError => Text.lit "Decode error"
  | .storageError => Text.lit "Storage error"
  | .versionConflict => Text.lit "Version conflict"
  | .transactionConflict => Text.lit "Transaction conflict"
  | .operationCancelled => Text.lit "Operation cancelled"
  | .invalidArgument => Text.lit "Invalid argument"
  | .invalidState => Text.lit "Invalid state"
  | .casMismatch => Text.lit "CAS mismatch"
  | .documentExists => Text.lit "Document exists"
  | .notFound => Text.lit "Not found"
  | .timeout => Text.lit "Operation timed out"
  | .networkError => Text.lit "Network error"
  | .temporaryFailure => Text.lit "Temporary failure"
  | .transactionFailed => Text.lit "Transaction failed"
  | .internalError => Text.lit "Internal error"
  | .unknown => Text.lit "Unknown error"

/-
  Which kind of storage error it is; `none` for errors of
  other codes.
-/
inductive StorageFault where
  | none
  | documentNotFound
  | documentExists
  | collectionNotFound
  | timeout
  | network
  | temporaryFailure
  | unknown
  deriving DecidableEq, Repr, Inhabited

/- The name of a storage error kind. -/
def StorageFault.name : StorageFault → Text
  | .none => Text.lit "none"
  | .documentNotFound => Text.lit "document_not_found"
  | .documentExists => Text.lit "document_exists"
  | .collectionNotFound => Text.lit "collection_not_found"
  | .timeout => Text.lit "timeout"
  | .network => Text.lit "network"
  | .temporaryFailure => Text.lit "temporary_failure"
  | .unknown => Text.lit "unknown"

------------------------------------------------------------
-- Errors
------------------------------------------------------------

/- An error; an empty context field is unknown. -/
structure Error where
  code : ErrorCode
  message : Text
  fault : StorageFault := .none
  operation : Text := []
  documentId : Text := []
  collection : Text := []
  deriving DecidableEq, Repr, Inhabited

namespace Error

/- An error that says no more than its code. -/
def ofCode
    (code : ErrorCode) : Error :=
  ⟨code, code.text, .none, [], [], []⟩

/- A storage error of a kind. -/
def storage
    (kind : StorageFault)
    (message : Text) : Error :=
  ⟨.storageError, message, kind, [], [], []⟩

/- A mapping error. -/
def mapping
    (message : Text) : Error :=
  ⟨.mappingError, message, .none, [], [], []⟩

/- A decode error. -/
def decode
    (message : Text) : Error :=
  ⟨.decodeError, message, .none, [], [], []⟩

/- An invalid argument. -/
def invalidArgument
    (message : Text) : Error :=
  ⟨.invalidArgument, message, .none, [], [], []⟩

/- An invalid state. -/
def invalidState
    (message : Text) : Error :=
  ⟨.invalidState, message, .none, [], [], []⟩

/- The error is a storage error of that kind. -/
def isStorageFault
    (e : Error)
    (kind : StorageFault) : Bool :=
  e.code = .storageError ∧ e.fault = kind

/- A part of a description that is left out if its text is empty. -/
def clause
    (before body after : Text) : Text :=
  if body = [] then [] else before ++ body ++ after

/- One line with everything that is known of the error. -/
def summary
    (e : Error) : Text :=
  e.code.text ++
    (if e.code = .storageError ∧ e.fault ≠ .none then
      Text.lit " (" ++ e.fault.name ++ Text.lit ")"
    else []) ++
    clause (Text.lit " in ") e.operation [] ++
    clause (Text.lit " id='") e.documentId (Text.lit "'") ++
    clause (Text.lit " collection='") e.collection
      (Text.lit "'") ++
    clause (Text.lit ": ") e.message []

/- Fill in the context that the error does not have yet. -/
def withContext
    (e : Error)
    (operation documentId collection : Text) : Error :=
  { e with
    operation :=
      if e.operation = [] then operation else e.operation
    documentId :=
      if e.documentId = [] then documentId else e.documentId
    collection :=
      if e.collection = [] then collection else e.collection }

end Error

end DocumentMapper
