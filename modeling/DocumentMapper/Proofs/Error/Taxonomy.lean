import DocumentMapper.Error.Reporting

/-
  Which errors are for callers.

  Callers know the codes up to `invalidState`, and of storage
  errors they are told the kind. Whatever an executor or a
  resolver reports, its reclassified error is one for callers.

  Key definitions include:
    * `ErrorCode.isForCallers`
    * `Error.ForCallers`
    * `Error.SameKind`

  Main statements include:
    * `Error.ofExecution_forCallers`
    * `Error.ofResolution_forCallers`
-/

namespace DocumentMapper

/- Callers know what to make of the code. -/
def ErrorCode.isForCallers : ErrorCode → Bool
  | .mappingError => true
  | .decodeError => true
  | .storageError => true
  | .versionConflict => true
  | .transactionConflict => true
  | .operationCancelled => true
  | .invalidArgument => true
  | .invalidState => true
  | .success => false
  | .casMismatch => false
  | .documentExists => false
  | .notFound => false
  | .timeout => false
  | .networkError => false
  | .temporaryFailure => false
  | .transactionFailed => false
  | .internalError => false
  | .unknown => false

namespace Error

/- Callers know the code, and the kind of a storage error. -/
structure ForCallers (e : Error) : Prop where
  code : e.code.isForCallers
  fault : e.code = .storageError → e.fault ≠ .none

instance
    (e : Error) : Decidable e.ForCallers :=
  decidable_of_iff
    (e.code.isForCallers ∧
      (e.code = .storageError → e.fault ≠ .none))
    ⟨fun h => ⟨h.1, h.2⟩, fun h => ⟨h.code, h.fault⟩⟩

/- Two errors differ in their messages and contexts only. -/
structure SameKind (e cause : Error) : Prop where
  code : e.code = cause.code
  fault : e.fault = cause.fault

variable {e cause other : Error}

theorem SameKind.refl
    (e : Error) :
    e.SameKind e :=
  ⟨rfl, rfl⟩

theorem SameKind.trans
    (h : e.SameKind cause)
    (hOther : cause.SameKind other) :
    e.SameKind other :=
  ⟨h.code.trans hOther.code, h.fault.trans hOther.fault⟩

/- Whether callers know an error depends on its kind. -/
theorem SameKind.forCallers_iff
    (h : e.SameKind cause) :
    e.ForCallers ↔ cause.ForCallers := by
  have hSame :
      ∀ {x y : Error},
        x.SameKind y → y.ForCallers → x.ForCallers := by
    intro x y hKind hCallers
    refine ⟨?_, fun hStorage => ?_⟩
    · rw [hKind.code]
      exact hCallers.code
    · rw [hKind.fault]
      exact hCallers.fault (hKind.code ▸ hStorage)
  exact ⟨hSame ⟨h.code.symm, h.fault.symm⟩, hSame h⟩

/- Context does not change the kind. -/
theorem withContext_sameKind
    (e : Error)
    (operation documentId collection : Text) :
    (e.withContext operation documentId collection).SameKind e :=
  ⟨rfl, rfl⟩

------------------------------------------------------------
-- Reclassified Errors
------------------------------------------------------------

/- Storage errors of a kind are for callers. -/
theorem toStorageFault_forCallers
    (e : Error)
    {kind : StorageFault}
    (hKind : kind ≠ .none) :
    (e.toStorageFault kind).ForCallers :=
  ⟨rfl, fun _ => hKind⟩

/- Whatever an executor reports, callers know what they see. -/
theorem ofExecution_forCallers
    (e : Error) :
    e.ofExecution.ForCallers := by
  rcases e with
    ⟨code, message, fault, operation, documentId, collection⟩
  cases code with
  | storageError =>
      unfold ofExecution
      dsimp only
      split
      · exact ⟨rfl, nofun⟩
      · exact ⟨rfl, fun _ => ‹_›⟩
  | _ => exact ⟨rfl, nofun⟩

/- Whatever a resolver reports, callers know what they see. -/
theorem ofResolution_forCallers
    (e : Error) :
    e.ofResolution.ForCallers := by
  unfold ofResolution
  split
  · exact e.toStorageFault_forCallers nofun
  · exact e.ofExecution_forCallers

end Error

end DocumentMapper
