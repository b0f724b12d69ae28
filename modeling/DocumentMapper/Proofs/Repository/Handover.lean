import DocumentMapper.Proofs.Repository.Discipline
import DocumentMapper.Proofs.Repository.Ending
import DocumentMapper.Proofs.Repository.Setback

/-
  Operations around the one request they hand over.

  An operation on one document is prevented before its request
  by an obstacle that can be named, or it hands the request
  over. What is refused then ends the operation at once.

  Key definitions include:
    * `Repository.Unreached`, `Repository.Obstructed`
    * `Repository.Prevented`
    * `Repository.Handover`

  Main statements include:
    * `Repository.prevented_or_handover`
    * `Repository.perform_handover`
-/

namespace DocumentMapper

variable {T : Type}
variable [EntityTypes T]
variable {K : Hooks T}
variable {t : T}
variable {α β : Type}

namespace Repository

variable {repo : Repository T}
variable {scope : CallScope}
variable {before after : ResultRegistry}
variable {transcript : Transcript T K}

------------------------------------------------------------
-- Obstacles
------------------------------------------------------------

/- The collection of a type is not reached. -/
inductive Unreached
    (repo : Repository T)
    (t : T)
    (transcript : Transcript T K) : Prop where
  | unregistered
      {cause : Error}
      (hDescriptor : repo.mapping.descriptor t = .error cause)
  | unconnected
      (hResolver : repo.wiring.resolver = false)
  | unresolved
      {name : CollectionName}
      {reply : Reply CollectionName}
      (hMem : ⟨.resolve name, reply⟩ ∈ transcript)
      (hReply : reply.isOk = false)

/-
  A step before the request does not succeed: the look-up of
  the type, the resolution of the collection, the look-up of
  identifier or token, the check of the mode, the encoding, or
  the printing of the document.
-/
inductive Obstructed
    (repo : Repository T)
    (scope : CallScope)
    (op : Operation T)
    (transcript : Transcript T K) : Prop where
  | unreached
      (hUnreached : repo.Unreached op.type transcript)
  | unidentified
      {t : T}
      {e : EntityOf t}
      (hConcerns : op.Concerns e)
      (hId : repo.mapping.idOf e = none)
  | unreadable
      {t : T}
      {e : EntityOf t}
      {what : Text}
      (hConcerns : op.Concerns e)
      (hToken : repo.mapping.tokenOf e = .error what)
  | refused
      {t : T}
      {e : EntityOf t}
      {attempt : Attempt}
      (hUpsert : op = .write .upsert t e)
      (hActive : repo.IsActive scope transcript (some attempt))
  | unencoded
      {t : T}
      {e : EntityOf t}
      {intent : WriteIntent}
      {d : Descriptor (EntityTypes.schema t)}
      {hooks : Transcript T K}
      {cause : Error}
      (hWrite : op = .write intent t e)
      (hDescriptor : repo.mapping.descriptor t = .ok d)
      (hHooks : hooks <:+: transcript)
      (hEncode :
        (repo.codec.encode e
            (chosenCollection repo.settings d
              scope).collection).Ends
          hooks (.error cause))
  | unprintable
      {t : T}
      {e : EntityOf t}
      {intent : WriteIntent}
      {d : Descriptor (EntityTypes.schema t)}
      {hooks : Transcript T K}
      {document : Document}
      {cause : Error}
      (hWrite : op = .write intent t e)
      (hDescriptor : repo.mapping.descriptor t = .ok d)
      (hHooks : hooks <:+: transcript)
      (hEncode :
        (repo.codec.encode e
            (chosenCollection repo.settings d
              scope).collection).Ends
          hooks (.ok document))
      (hPayload : document.toPayload = .error cause)

/- What was asked before does not matter. -/
theorem Unreached.prepend
    {asked : Transcript T K}
    (h : repo.Unreached t transcript) :
    repo.Unreached t (asked ++ transcript) := by
  cases h with
  | unregistered hDescriptor => exact .unregistered hDescriptor
  | unconnected hResolver => exact .unconnected hResolver
  | unresolved hMem hReply =>
      exact .unresolved (List.mem_append_right _ hMem) hReply

/- A name that is not resolved is an obstacle. -/
theorem unreached_of_resolve
    {name : CollectionName}
    {kind : RequestKind}
    {id : Text}
    {failure : Failure}
    (h :
      (repo.resolve name kind id).Ends
        before transcript (.error failure) after) :
    repo.Unreached t transcript := by
  rcases ends_resolve_error h with
    ⟨-, -, ⟨hResolver, -⟩ | ⟨reply, rfl, hReply⟩⟩
  · exact .unconnected hResolver
  · exact .unresolved (List.mem_singleton_self _) hReply

/- Every setback of a write is an obstacle. -/
theorem WriteSetback.obstructed
    {intent : WriteIntent}
    {e : EntityOf t}
    {failure : Failure}
    (h : WriteSetback repo intent e scope transcript failure) :
    repo.Obstructed scope (.write intent t e) transcript := by
  cases h with
  | unregistered hDescriptor =>
      exact .unreached (.unregistered hDescriptor)
  | unreadable hToken =>
      exact .unreadable (.inl ⟨intent, rfl⟩) hToken
  | @refused d token _ attempt? cause hToken hProvider hActive
      hKind =>
      rcases requestKind_error_iff.mp hKind with
        ⟨rfl, hSome, -⟩
      rcases Option.isSome_iff_exists.mp hSome with ⟨attempt, rfl⟩
      exact .refused rfl hActive
  | unidentified hProvider hId =>
      exact .unidentified (.inl ⟨intent, rfl⟩) hId
  | unconnected hProvider hResolver =>
      exact .unreached (.unconnected hResolver)
  | unresolved hDescriptor hProvider hReply =>
      exact
        .unreached
          (.unresolved
            (List.mem_append_right _ (List.mem_singleton_self _))
            hReply)
  | @unencoded d asked hooks resolved cause error hDescriptor
      hProvider hEncode =>
      refine .unencoded rfl hDescriptor ?_ hEncode
      exact
        ((List.suffix_cons _ hooks).trans
          (List.suffix_append asked _)).isInfix
  | @unprintable d asked hooks resolved document cause error
      hDescriptor hProvider hEncode hPayload =>
      refine .unprintable rfl hDescriptor ?_ hEncode hPayload
      exact
        ((List.suffix_cons _ hooks).trans
          (List.suffix_append asked _)).isInfix

/- A read that fails before its request has not got there. -/
theorem unreached_of_reach
    {kind : RequestKind}
    {id : Text}
    {failure : Failure}
    (h :
      (repo.reach t kind id scope).Ends
        before transcript (.error failure) after) :
    repo.Unreached t transcript := by
  unfold reach at h
  rcases Task.ends_ofResult_bind_iff.mp h with
    ⟨cause, hDescriptor, -⟩ | ⟨d, -, h₁⟩
  · exact .unregistered hDescriptor
  rcases Task.ends_bind_iff.mp h₁ with
    ⟨_, hAttempt, -⟩ | ⟨asked, _, _, rest, rfl, -, h₂⟩
  · rcases ends_activeAttempt hAttempt with ⟨-, -, -, _, hOk, -⟩
    cases hOk
  refine .prepend ?_
  rcases Task.ends_bind_iff.mp h₂ with
    ⟨_, hResolve, -⟩ | ⟨_, _, _, _, rfl, -, hPure⟩
  · exact unreached_of_resolve hResolve
  · cases (Task.ends_pure_iff.mp hPure).2.1

/- A removal is prevented where its name is not resolved. -/
theorem unreached_of_planRemoval
    {name : CollectionName}
    {id : Text}
    {cas : UInt64}
    {earlier? : Option GetResult}
    {failure : Failure}
    (h :
      (repo.planRemoval name id cas earlier? scope).Ends
        before transcript (.error failure) after) :
    repo.Unreached t transcript := by
  unfold planRemoval at h
  rcases Task.ends_bind_iff.mp h with
    ⟨_, hResolve, -⟩ | ⟨_, _, _, _, rfl, -, h₁⟩
  · exact unreached_of_resolve hResolve
  rcases Task.ends_bind_iff.mp h₁ with
    ⟨_, hAttempt, -⟩ | ⟨_, _, _, _, rfl, -, hPure⟩
  · rcases ends_activeAttempt hAttempt with ⟨-, -, -, _, hOk, -⟩
    cases hOk
  · cases (Task.ends_pure_iff.mp hPure).2.1

/- An obstacle prevents the removal of an entity. -/
theorem obstructed_of_planRemove
    {e : EntityOf t}
    {failure : Failure}
    (h :
      (repo.planRemove e scope).Ends
        before transcript (.error failure) after) :
    repo.Obstructed scope (.remove t e) transcript := by
  unfold planRemove at h
  rcases Task.ends_ofResult_bind_iff.mp h with
    ⟨cause, hDescriptor, -⟩ | ⟨d, -, h₁⟩
  · exact .unreached (.unregistered hDescriptor)
  cases hId : repo.mapping.idOf e with
  | none => exact .unidentified (.inr rfl) hId
  | some id =>
      rw [hId] at h₁
      rcases Task.ends_bind_iff.mp h₁ with
        ⟨_, hEarlier, -⟩ | ⟨asked, _, _, rest, rfl, -, h₂⟩
      · cases (ends_earlierResult hEarlier).2.1
      rcases Task.ends_ofAccessor_bind_iff.mp h₂ with
        ⟨what, hToken, -⟩ | ⟨token, -, h₃⟩
      · exact .unreadable (.inr rfl) hToken
      · exact
          .unreached (unreached_of_planRemoval h₃).prepend

------------------------------------------------------------
-- Handing Over
------------------------------------------------------------

/-
  The operation is prevented: it meets with an obstacle, and
  fails without having asked for more than it had to.
-/
structure Prevented
    (repo : Repository T)
    (scope : CallScope)
    (op : Operation T)
    (before after : ResultRegistry)
    (transcript : Transcript T K)
    (outcome : Except Failure α) : Prop where
  obstructed : repo.Obstructed scope op transcript
  only : OnlyPreparation transcript
  fails : ∃ failure, outcome = .error failure
  kept : after = before

/-
  One request is handed over, after what may precede it. What
  is refused ends the whole, unless it says that there is no
  document.
-/
inductive Handover
    (repo : Repository T)
    (before after : ResultRegistry) :
    Transcript T K → Except Failure α → Prop where
  | intro
      {opening submission closing : Transcript T K}
      {request : Request}
      {attempt? : Option Attempt}
      {result : Result StoreRecord}
      {outcome : Except Failure α}
      (hOpening : OnlyPreparation opening)
      (hSubmission :
        Submission repo request attempt? submission result)
      (hRefused :
        ∀ e,
          result = .error e →
            closing = [] ∧ after = before ∧
              (e.isStorageFault .documentNotFound = false →
                outcome = .error (.error e))) :
      Handover repo before after
        (opening ++ (submission ++ closing)) outcome

variable {outcome : Except Failure α}

/- More may be asked in preparation. -/
theorem Handover.prepend
    {asked : Transcript T K}
    (hAsked : OnlyPreparation asked)
    (h : Handover repo before after transcript outcome) :
    Handover repo before after (asked ++ transcript) outcome := by
  cases h with
  | intro hOpening hSubmission hRefused =>
      rw [← List.append_assoc]
      exact
        .intro (List.forall_mem_append.mpr ⟨hAsked, hOpening⟩)
          hSubmission hRefused

/- What follows a record is a handover. -/
theorem handover_of_submit_bind
    {request : Request}
    {attempt? : Option Attempt}
    {f : StoreRecord → Task T K α}
    (h :
      (repo.submit request attempt? >>= f).Ends
        before transcript outcome after) :
    Handover repo before after transcript outcome := by
  rcases ends_submit_bind h with
    ⟨submission, closing, result, rfl, hSubmission, hClosing⟩
  refine .intro .nil hSubmission ?_
  rintro e rfl
  rcases Task.ends_fail_iff.mp hClosing with ⟨rfl, rfl, rfl⟩
  exact ⟨rfl, rfl, fun _ => rfl⟩

/- A submission alone is a handover. -/
theorem handover_of_submit
    {request : Request}
    {attempt? : Option Attempt}
    {outcome : Except Failure StoreRecord}
    (h :
      (repo.submit request attempt?).Ends
        before transcript outcome after) :
    Handover repo before after transcript outcome := by
  rw [← bind_pure (repo.submit request attempt?)] at h
  exact handover_of_submit_bind h

/- What follows an answer is a handover if it ends errors. -/
theorem handover_of_answer_bind
    {request : Request}
    {attempt? : Option Attempt}
    {f : Result StoreRecord → Task T K α}
    (hRefused :
      ∀ {e closing},
        (f (.error e)).Ends before closing outcome after →
          closing = [] ∧ after = before ∧
            (e.isStorageFault .documentNotFound = false →
              outcome = .error (.error e)))
    (h :
      (Task.result (repo.submit request attempt?) >>= f).Ends
        before transcript outcome after) :
    Handover repo before after transcript outcome := by
  rcases ends_answer_bind h with
    ⟨submission, closing, result, rfl, hSubmission, hClosing⟩
  refine .intro .nil hSubmission ?_
  rintro e rfl
  exact hRefused hClosing

/-
  A plan that meets with an obstacle prevents the whole; else
  what follows it is a handover.
-/
theorem prevented_or_handover
    {op : Operation T}
    {plan : Task T K β}
    {f : β → Task T K α}
    (hPrepares : plan.Prepares)
    (hObstructed :
      ∀ {failure},
        plan.Ends before transcript (.error failure) before →
          repo.Obstructed scope op transcript)
    (hHandover :
      ∀ {value rest},
        (f value).Ends before rest outcome after →
          Handover repo before after rest outcome)
    (h : (plan >>= f).Ends before transcript outcome after) :
    repo.Prevented scope op before after transcript outcome ∨
      Handover repo before after transcript outcome := by
  rcases hPrepares.ends_bind h with
    ⟨failure, hPlan, hOnly, rfl, rfl⟩ |
      ⟨opening, value, rest, rfl, hOnly, -, hRest⟩
  · exact .inl ⟨hObstructed hPlan, hOnly, ⟨failure, rfl⟩, rfl⟩
  · exact .inr ((hHandover hRest).prepend hOnly)

------------------------------------------------------------
-- Operations
------------------------------------------------------------

/- A target that is not reached prevents what reads it. -/
theorem obstructed_of_reach_bind
    {op : Operation T}
    {kind : RequestKind}
    {id : Text}
    {plan : Option Attempt × CollectionName → Plan}
    {failure : Failure}
    (hType : op.type = t)
    (h :
      (do
        let reached ← repo.reach t kind id scope
        return plan reached : Task T K Plan).Ends
        before transcript (.error failure) after) :
    repo.Obstructed scope op transcript := by
  rcases Task.ends_bind_iff.mp h with
    ⟨_, hReach, -⟩ | ⟨_, _, _, _, rfl, -, hPure⟩
  · exact .unreached (hType ▸ unreached_of_reach hReach)
  · cases (Task.ends_pure_iff.mp hPure).2.1

theorem write_handover
    {intent : WriteIntent}
    {e : EntityOf t}
    {outcome : Except Failure (EntityOf t)}
    (h :
      (repo.write intent e scope).Ends
        before transcript outcome after) :
    repo.Prevented scope (.write intent t e)
        before after transcript outcome ∨
      Handover repo before after transcript outcome := by
  rw [write_eq] at h
  exact
    prevented_or_handover (planWrite_prepares _ _ _ _)
      (fun hPlan => (ends_planWrite_error hPlan).obstructed)
      handover_of_submit_bind h

theorem find_handover
    {id : Text}
    {options : ReadOptions}
    {outcome : Except Failure (Option (EntityOf t))}
    (h :
      (repo.find t id options scope).Ends
        before transcript outcome after) :
    repo.Prevented scope (.find t id options)
        before after transcript outcome ∨
      Handover repo before after transcript outcome := by
  rw [find_eq] at h
  refine
    prevented_or_handover (planFind_prepares _ _ _ _ _)
      (obstructed_of_reach_bind rfl)
      (handover_of_answer_bind ?_) h
  intro e closing hClosing
  rcases ends_finishFind_error hClosing with ⟨rfl, rfl, rfl⟩
  exact ⟨rfl, rfl, fun hOther => by rw [hOther]; rfl⟩

theorem isStored_handover
    {id : Text}
    {outcome : Except Failure Bool}
    (h :
      (repo.isStored t id scope).Ends
        before transcript outcome after) :
    repo.Prevented scope (.exists t id)
        before after transcript outcome ∨
      Handover repo before after transcript outcome := by
  rw [isStored_eq] at h
  refine
    prevented_or_handover
      (.bind (reach_prepares _ _ _ _ _) fun _ => .pure _)
      (obstructed_of_reach_bind rfl)
      (handover_of_answer_bind ?_) h
  intro e closing hClosing
  rcases ends_finishExists_error hClosing with
    ⟨rfl, rfl, hOutcome⟩
  refine ⟨rfl, rfl, fun hOther => ?_⟩
  rw [hOutcome, hOther, Bool.and_false]
  rfl

theorem removeDocument_handover
    {id : Text}
    {cas : UInt64}
    {outcome : Except Failure StoreRecord}
    (h :
      (repo.removeDocument t id cas scope).Ends
        before transcript outcome after) :
    repo.Prevented scope (.removeDocument t id cas)
        before after transcript outcome ∨
      Handover repo before after transcript outcome := by
  rw [removeDocument_eq] at h
  refine
    prevented_or_handover
      (.bind (.ofResult _) fun _ =>
        planRemoval_prepares _ _ _ _ _ _)
      (fun hPlan => ?_) handover_of_submit h
  rcases Task.ends_ofResult_bind_iff.mp hPlan with
    ⟨cause, hDescriptor, -⟩ | ⟨d, -, hRemoval⟩
  · exact .unreached (.unregistered hDescriptor)
  · exact .unreached (unreached_of_planRemoval hRemoval)

theorem remove_handover
    {e : EntityOf t}
    {outcome : Except Failure StoreRecord}
    (h :
      (repo.remove e scope).Ends
        before transcript outcome after) :
    repo.Prevented scope (.remove t e)
        before after transcript outcome ∨
      Handover repo before after transcript outcome := by
  rw [remove_eq] at h
  exact
    prevented_or_handover (planRemove_prepares _ _ _)
      obstructed_of_planRemove handover_of_submit h

/-
  An operation on one document is prevented by an obstacle, or
  hands its request over.
-/
theorem perform_handover
    {op : Operation T}
    {outcome : Except Failure op.Outcome}
    (hSingle : op.IsSingle)
    (h :
      (repo.perform scope op).Ends
        before transcript outcome after) :
    repo.Prevented scope op before after transcript outcome ∨
      Handover repo before after transcript outcome := by
  cases op with
  | write intent t e => exact write_handover h
  | find t id options => exact find_handover h
  | findAll t ids options => exact hSingle.elim
  | «exists» t id => exact isStored_handover h
  | removeDocument t id cas => exact removeDocument_handover h
  | remove t e => exact remove_handover h

end Repository

end DocumentMapper
