import DocumentMapper.Proofs.Dialogue.Course
import DocumentMapper.Proofs.Repository.Dispatch

/-
  Why a write fails before its request.

  A write that does not get as far as its plan has met with
  one setback: its type, its token, its kind, its identifier,
  its collection, its document or its payload is missing.

  Key definitions include:
    * `Repository.WriteSetback`

  Main statements include:
    * `Repository.ends_resolve_error`
    * `Repository.ends_planWrite_error`
    * `Repository.ends_write_cases`
-/

namespace DocumentMapper

variable {T : Type}
variable [EntityTypes T]
variable {K : Hooks T}
variable {t : T}

namespace Repository

variable {repo : Repository T}
variable {scope : CallScope}
variable {intent : WriteIntent}
variable {e : EntityOf t}
variable {before after : ResultRegistry}
variable {transcript : Transcript T K}

/-
  The setbacks of a write, with what was asked until then and
  how the write fails.
-/
inductive WriteSetback
    (repo : Repository T)
    (intent : WriteIntent)
    (e : EntityOf t)
    (scope : CallScope) :
    Transcript T K → Failure → Prop where
  | unregistered
      {cause : Error}
      (hDescriptor : repo.mapping.descriptor t = .error cause) :
      WriteSetback repo intent e scope [] (.error cause)
  | unreadable
      {what : Text}
      (hToken : repo.mapping.tokenOf e = .error what) :
      WriteSetback repo intent e scope [] (.thrown what)
  | refused
      {d : Descriptor (EntityTypes.schema t)}
      {token : UInt64}
      {asked : Transcript T K}
      {attempt? : Option Attempt}
      {cause : Error}
      (hToken : repo.mapping.tokenOf e = .ok token)
      (hProvider : OnlyProvider asked)
      (hActive : repo.IsActive scope asked attempt?)
      (hKind :
        requestKind intent token attempt?.isSome
            ((repo.mapping.idOf e).getD [])
            (chosenCollection repo.settings d scope).qualified =
          .error cause) :
      WriteSetback repo intent e scope asked (.error cause)
  | unidentified
      {asked : Transcript T K}
      {kind : RequestKind}
      (hProvider : OnlyProvider asked)
      (hId : repo.mapping.idOf e = none) :
      WriteSetback repo intent e scope asked
        (.error (noIdentifier kind))
  | unconnected
      {asked : Transcript T K}
      {error : Error}
      (hProvider : OnlyProvider asked)
      (hResolver : repo.wiring.resolver = false) :
      WriteSetback repo intent e scope asked (.error error)
  | unresolved
      {d : Descriptor (EntityTypes.schema t)}
      {asked : Transcript T K}
      {reply : Reply CollectionName}
      {error : Error}
      (hDescriptor : repo.mapping.descriptor t = .ok d)
      (hProvider : OnlyProvider asked)
      (hReply : reply.isOk = false) :
      WriteSetback repo intent e scope
        (asked ++
          [⟨.resolve (chosenCollection repo.settings d scope),
            reply⟩])
        (.error error)
  | unencoded
      {d : Descriptor (EntityTypes.schema t)}
      {asked hooks : Transcript T K}
      {resolved : CollectionName}
      {cause error : Error}
      (hDescriptor : repo.mapping.descriptor t = .ok d)
      (hProvider : OnlyProvider asked)
      (hEncode :
        (repo.codec.encode e
            (chosenCollection repo.settings d
              scope).collection).Ends
          hooks (.error cause)) :
      WriteSetback repo intent e scope
        (asked ++
          ⟨.resolve (chosenCollection repo.settings d scope),
            .ok resolved⟩ :: hooks)
        (.error error)
  | unprintable
      {d : Descriptor (EntityTypes.schema t)}
      {asked hooks : Transcript T K}
      {resolved : CollectionName}
      {document : Document}
      {cause error : Error}
      (hDescriptor : repo.mapping.descriptor t = .ok d)
      (hProvider : OnlyProvider asked)
      (hEncode :
        (repo.codec.encode e
            (chosenCollection repo.settings d
              scope).collection).Ends
          hooks (.ok document))
      (hPayload : document.toPayload = .error cause) :
      WriteSetback repo intent e scope
        (asked ++
          ⟨.resolve (chosenCollection repo.settings d scope),
            .ok resolved⟩ :: hooks)
        (.error error)

/- A name is not resolved if there is no resolver, or if it fails. -/
theorem ends_resolve_error
    {name : CollectionName}
    {kind : RequestKind}
    {id : Text}
    {failure : Failure}
    (h :
      (repo.resolve name kind id).Ends
        before transcript (.error failure) after) :
    ∃ error,
      failure = .error error ∧
        (repo.wiring.resolver = false ∧ transcript = [] ∨
          ∃ reply : Reply CollectionName,
            transcript = [⟨.resolve name, reply⟩] ∧
              reply.isOk = false) := by
  unfold resolve at h
  split at h
  · rcases Task.ends_ask_bind_iff.mp h with
      ⟨reply, rest, rfl, hReply⟩
    cases reply with
    | ok resolved =>
        rcases Task.ends_pure_iff.mp hReply with ⟨-, hOk, -⟩
        cases hOk
    | failed cause =>
        rcases Task.ends_fail_iff.mp hReply with ⟨rfl, hSame, -⟩
        cases hSame
        exact ⟨_, rfl, .inr ⟨.failed cause, rfl, rfl⟩⟩
    | threw what =>
        rcases Task.ends_fail_iff.mp hReply with ⟨rfl, hSame, -⟩
        cases hSame
        exact ⟨_, rfl, .inr ⟨.threw what, rfl, rfl⟩⟩
  · rename_i hResolver
    rcases Task.ends_fail_iff.mp h with ⟨rfl, hSame, -⟩
    cases hSame
    exact ⟨_, rfl, .inl ⟨Bool.not_eq_true _ ▸ hResolver, rfl⟩⟩

/- The result that a write shows is always found. -/
theorem earlierShown_isOk
    {S : Schema}
    {descriptor : Descriptor S}
    {given : Entity S}
    {kind : RequestKind}
    {attempt? : Option Attempt}
    {outcome : Except Failure (Option GetResult)}
    (h :
      (earlierShown descriptor given kind attempt? :
          Task T K (Option GetResult)).Ends
        before transcript outcome after) :
    ∃ earlier?, outcome = .ok earlier? := by
  unfold earlierShown at h
  split at h
  · exact ⟨_, (ends_earlierResult h).2.1⟩
  · exact ⟨_, (Task.ends_pure_iff.mp h).2.1⟩

/- Without its payload an entity was not encoded, or not printed. -/
theorem ends_encoding_error
    {α : Type}
    {d : Descriptor (EntityTypes.schema t)}
    {attempt? : Option Attempt}
    {kind : RequestKind}
    {id qualified collection : Text}
    {f : Document → Text → Option GetResult → α}
    {failure : Failure}
    (h :
      (do
        let document ← Task.inContext kind id qualified
          (Task.ofStep (repo.codec.encode e collection))
        let payload ← Task.inContext kind id qualified
          (Task.ofResult document.toPayload)
        let earlier? ← earlierShown d e kind attempt?
        return f document payload earlier? : Task T K α).Ends
        before transcript (.error failure) after) :
    ∃ error,
      failure = .error error ∧
        ((∃ cause,
            (repo.codec.encode e collection).Ends
              transcript (.error cause)) ∨
          ∃ document cause,
            (repo.codec.encode e collection).Ends
                transcript (.ok document) ∧
              document.toPayload = .error cause) := by
  rcases Task.ends_bind_iff.mp h with
    ⟨_, hEncode, hSame⟩ |
      ⟨hooks, document, _, rest, rfl, hEncode, h₁⟩
  · cases hSame
    rcases Task.ends_inContext_ofStep_error hEncode with
      ⟨cause, error, hStep, rfl⟩
    exact ⟨error, rfl, .inl ⟨cause, hStep⟩⟩
  rw [Task.ends_inContext_ok_iff,
    Task.ends_ofStep_ok_iff] at hEncode
  rcases Task.ends_bind_iff.mp h₁ with
    ⟨_, hPayload, hSame⟩ | ⟨_, payload, _, rest, rfl, -, h₂⟩
  · cases hSame
    rcases Task.ends_inContext_ofResult_error hPayload with
      ⟨rfl, cause, error, hPrint, rfl⟩
    rw [List.append_nil]
    exact ⟨error, rfl, .inr ⟨document, cause, hEncode.1, hPrint⟩⟩
  rcases Task.ends_bind_iff.mp h₂ with
    ⟨_, hEarlier, -⟩ | ⟨_, _, _, _, rfl, -, hPure⟩
  · rcases earlierShown_isOk hEarlier with ⟨_, hOk⟩
    cases hOk
  · cases (Task.ends_pure_iff.mp hPure).2.1

/- A plan that fails has met with a setback. -/
theorem ends_planWrite_error
    {failure : Failure}
    (h :
      (repo.planWrite intent e scope).Ends
        before transcript (.error failure) after) :
    WriteSetback repo intent e scope transcript failure := by
  unfold planWrite at h
  cases ends_decision h with
  | unregistered hDescriptor => exact .unregistered hDescriptor
  | unreadable _ hToken => exact .unreadable hToken
  | refused _ hToken hProvider hActive hKind =>
      exact .refused hToken hProvider hActive hKind
  | decided hDescriptor _ hProvider _ _ h₁ =>
      cases hId : repo.mapping.idOf e with
      | none =>
          rw [hId] at h₁
          rcases Task.ends_fail_iff.mp h₁ with ⟨rfl, hSame, -⟩
          cases hSame
          rw [List.append_nil]
          exact .unidentified hProvider hId
      | some id =>
          rw [hId] at h₁
          rcases Task.ends_bind_iff.mp h₁ with
            ⟨_, hResolve, hSame⟩ |
              ⟨_, resolved, _, rest, rfl, hResolve, h₂⟩
          · cases hSame
            rcases ends_resolve_error hResolve with
              ⟨error, rfl,
                ⟨hResolver, rfl⟩ | ⟨reply, rfl, hReply⟩⟩
            · rw [List.append_nil]
              exact .unconnected hProvider hResolver
            · exact .unresolved hDescriptor hProvider hReply
          · rcases ends_resolve_ok hResolve with ⟨-, rfl⟩
            rcases ends_encoding_error h₂ with
              ⟨error, rfl, ⟨cause, hEncode⟩ |
                ⟨document, cause, hEncode, hPayload⟩⟩
            · exact .unencoded hDescriptor hProvider hEncode
            · exact
                .unprintable hDescriptor hProvider hEncode hPayload

/-
  A write meets with a setback, or hands its request over and
  ends with what came of it.
-/
theorem ends_write_cases
    {outcome : Except Failure (EntityOf t)}
    (h :
      (repo.write intent e scope).Ends
        before transcript outcome after) :
    (∃ failure,
        WriteSetback repo intent e scope transcript failure ∧
          OnlyPreparation transcript ∧
          outcome = .error failure ∧ after = before) ∨
      ∃ (d : WriteDispatch K repo intent e scope)
        (submission closing : Transcript T K)
        (result : Result StoreRecord),
        transcript = d.opening ++ (submission ++ closing) ∧
          OnlyPreparation d.opening ∧
          Submission repo (d.plan before).request d.attempt?
            submission result ∧
          (Task.ofResult result >>=
              repo.finishWrite e (d.plan before)).Ends
            before closing outcome after := by
  rw [write_eq] at h
  rcases (planWrite_prepares _ _ _ _).ends_bind h with
    ⟨failure, hPlan, hOnly, rfl, rfl⟩ |
      ⟨opening, plan, rest, rfl, hOnly, hPlan, hRest⟩
  · exact
      .inl ⟨failure, ends_planWrite_error hPlan, hOnly, rfl, rfl⟩
  · rcases ends_planWrite hPlan with ⟨d, rfl, rfl⟩
    rcases ends_submit_bind hRest with
      ⟨submission, closing, result, rfl, hSubmission, hClosing⟩
    exact
      .inr ⟨d, submission, closing, result, rfl, hOnly,
        hSubmission, hClosing⟩

end Repository

end DocumentMapper
