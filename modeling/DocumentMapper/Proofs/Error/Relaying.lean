import DocumentMapper.Proofs.Error.Taxonomy
import DocumentMapper.Result

/-
  How callers are told of the failures of a collaborator.

  Each code has one code that callers are told instead, and
  one kind of storage error. The resolver and the executors
  differ in what they mean by not found. Besides, the message
  is passed on, and the context is filled in where the
  collaborator left it empty.

  Key definitions include:
    * `Collaborator`
    * `ErrorCode.told`, `Collaborator.toldFault`
    * `Error.SaysMissing`
    * `Error.Relays`
    * `Reply.cause?`

  Main statements include:
    * `Error.relays_ofExecution`
    * `Error.relays_ofResolution`
    * `Error.ofExecution_documentNotFound_iff`
    * `Error.text_of_ofException`
-/

namespace DocumentMapper

------------------------------------------------------------
-- The Table of Codes
------------------------------------------------------------

/- Who reports a failure. -/
inductive Collaborator where
  | resolver
  | executor
  deriving DecidableEq, Repr

/- The code that callers are told. -/
def ErrorCode.told : ErrorCode → ErrorCode
  | .casMismatch => .versionConflict
  | .versionConflict => .versionConflict
  | .transactionConflict => .transactionConflict
  | .transactionFailed => .transactionConflict
  | .mappingError => .mappingError
  | .decodeError => .decodeError
  | .operationCancelled => .operationCancelled
  | .invalidArgument => .invalidArgument
  | .invalidState => .invalidState
  | .storageError => .storageError
  | .documentExists => .storageError
  | .notFound => .storageError
  | .timeout => .storageError
  | .networkError => .storageError
  | .temporaryFailure => .storageError
  | .internalError => .storageError
  | .unknown => .storageError
  | .success => .storageError

/-
  The kind of storage error that callers are told. What an
  executor does not find is the document, what a resolver does
  not find is the collection.
-/
def Collaborator.toldFault
    (c : Collaborator)
    (e : Error) : StorageFault :=
  match e.code with
  | .documentExists => .documentExists
  | .notFound =>
      match c with
      | .resolver => .collectionNotFound
      | .executor => .documentNotFound
  | .timeout => .timeout
  | .networkError => .network
  | .temporaryFailure => .temporaryFailure
  | .success | .internalError | .unknown => .unknown
  | .storageError =>
      if e.fault = .none then .unknown else e.fault
  | _ => e.fault

namespace Error

variable {cause : Error}

/- The error of an executor says that there is no document. -/
def SaysMissing
    (e : Error) : Prop :=
  e.code = .notFound ∨
    e.code = .storageError ∧ e.fault = .documentNotFound

instance
    (e : Error) : Decidable e.SaysMissing :=
  inferInstanceAs (Decidable (_ ∨ _))

------------------------------------------------------------
-- Relaying
------------------------------------------------------------

/-
  A caller is told of a cause: with the code and the kind that
  the table says, with the message of the cause, and with its
  context where it has one.
-/
structure Relays
    (told : Error)
    (c : Collaborator)
    (operation documentId collection : Text)
    (cause : Error) : Prop where
  code : told.code = cause.code.told
  fault : told.fault = c.toldFault cause
  message : told.message = cause.message
  operation :
    told.operation =
      if cause.operation = [] then operation
      else cause.operation
  documentId :
    told.documentId =
      if cause.documentId = [] then documentId
      else cause.documentId
  collection :
    told.collection =
      if cause.collection = [] then collection
      else cause.collection

/- The errors of executors are reclassified as the table says. -/
theorem ofExecution_eq
    (cause : Error) :
    cause.ofExecution =
      { cause with
        code := cause.code.told
        fault := Collaborator.executor.toldFault cause } := by
  rcases cause with
    ⟨code, message, fault, operation, documentId, collection⟩
  cases code with
  | storageError =>
      by_cases hFault : fault = .none
      · simp [ofExecution, ErrorCode.told,
          Collaborator.toldFault, hFault]
      · simp [ofExecution, ErrorCode.told,
          Collaborator.toldFault, hFault]
  | _ => rfl

/- So are those of the resolver. -/
theorem ofResolution_eq
    (cause : Error) :
    cause.ofResolution =
      { cause with
        code := cause.code.told
        fault := Collaborator.resolver.toldFault cause } := by
  unfold ofResolution
  by_cases hCode : cause.code = .notFound
  · rw [if_pos hCode]
    simp [toStorageFault, hCode, ErrorCode.told,
      Collaborator.toldFault]
  · rw [if_neg hCode, ofExecution_eq]
    have hFault :
        Collaborator.executor.toldFault cause =
          Collaborator.resolver.toldFault cause := by
      unfold Collaborator.toldFault
      split <;> first | rfl | exact absurd ‹_› hCode
    rw [hFault]

/- The failure of an executor is relayed. -/
theorem relays_ofExecution
    (cause : Error)
    (operation documentId collection : Text) :
    (cause.ofExecution.withContext operation documentId
        collection).Relays
      .executor operation documentId collection cause := by
  rw [ofExecution_eq]
  exact ⟨rfl, rfl, rfl, rfl, rfl, rfl⟩

/- The failure of the resolver is relayed. -/
theorem relays_ofResolution
    (cause : Error)
    (operation documentId collection : Text) :
    (cause.ofResolution.withContext operation documentId
        collection).Relays
      .resolver operation documentId collection cause := by
  rw [ofResolution_eq]
  exact ⟨rfl, rfl, rfl, rfl, rfl, rfl⟩

/-
  Callers are told of a missing document where an executor
  says so, and nowhere else.
-/
theorem ofExecution_documentNotFound_iff
    (operation documentId collection : Text) :
    (cause.ofExecution.withContext operation documentId
        collection).isStorageFault .documentNotFound = true ↔
      cause.SaysMissing := by
  rw [ofExecution_eq]
  rcases cause with ⟨code, message, fault, _, _, _⟩
  cases code with
  | storageError =>
      by_cases hFault : fault = .none
      · simp [isStorageFault, withContext, ErrorCode.told,
          Collaborator.toldFault, SaysMissing, hFault]
      · simp [isStorageFault, withContext, ErrorCode.told,
          Collaborator.toldFault, SaysMissing, hFault]
  | _ =>
      simp [isStorageFault, withContext, ErrorCode.told,
        Collaborator.toldFault, SaysMissing]

/- The error of an exception quotes what was thrown. -/
theorem text_of_ofException
    (what : Text) :
    what <:+ (ofException what).message :=
  List.suffix_append _ _

end Error

------------------------------------------------------------
-- Failing Replies
------------------------------------------------------------

/-
  Why a collaborator failed, if it did: for an exception, the
  error that stands for it.
-/
def Reply.cause?
    {α : Type}
    (reply : Reply α) : Option Error :=
  match reply with
  | .ok _ => none
  | .failed e => some e
  | .threw what => some (.ofException what)

end DocumentMapper
