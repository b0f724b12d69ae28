import DocumentMapper.Proofs.Error.Relaying
import DocumentMapper.Proofs.Repository.Discipline
import Mathlib.Data.List.Basic

/-
  Operations whose collaborators fail.

  A failure of the resolver or of the chosen executor ends the
  operation at once: nobody else is asked for anything, the
  registry stays as it is, and the caller is told of the
  failure. Only a document that an executor does not have is
  an answer to those who look for it.

  Key definitions include:
    * `Task.Unresolving`
    * `Operation.ofMissing?`
    * `Repository.Announces`
    * `Repository.Tells`
    * `Repository.RelaysFailures`

  Main statements include:
    * `Repository.resolver_relayed`
    * `Repository.executor_relayed`
    * `Repository.failures_relayed`
-/

namespace DocumentMapper

variable {T : Type}
variable [EntityTypes T]
variable {K : Hooks T}
variable {t : T}
variable {α β : Type}

------------------------------------------------------------
-- Relayed Failures
------------------------------------------------------------

/-
  What it amounts to that an executor has no such document, for
  operations that look for one. A test does so inside an
  attempt only.
-/
def Operation.ofMissing?
    (inAttempt : Bool) :
    (op : Operation T) → Option op.Outcome
  | .write _ _ _ => none
  | .find _ _ _ => some none
  | .findAll _ _ _ => none
  | .exists _ _ => if inAttempt then some false else none
  | .removeDocument _ _ _ => none
  | .remove _ _ => none

/-
  What becomes of an operation whose request is refused with
  an error.
-/
def Operation.refused
    (op : Operation T)
    (inAttempt : Bool)
    (told : Error) : Except Failure op.Outcome :=
  match op.ofMissing? inAttempt with
  | some value =>
      if told.isStorageFault .documentNotFound then
        .ok value
      else
        .error (.error told)
  | none => .error (.error told)

/- A test outside of any attempt does not look for a document. -/
theorem Operation.refused_exists
    (t : T)
    (id : Text)
    (inAttempt : Bool)
    (told : Error) :
    (Operation.exists t id).refused inAttempt told =
      if inAttempt && told.isStorageFault .documentNotFound then
        .ok false
      else
        .error (.error told) := by
  cases inAttempt with
  | false => rfl
  | true => rw [Bool.true_and]; rfl

namespace Repository

/-
  The request for which the collection is resolved. A test for
  a document is announced as one, even inside an attempt.
-/
def Announces
    (repo : Repository T)
    (scope : CallScope)
    (transcript : Transcript T K)
    (kind : RequestKind)
    (id : Text) : Operation T → Prop
  | .write intent t e =>
      repo.mapping.idOf e = some id ∧
        ∃ attempt?,
          repo.IsActive scope transcript attempt? ∧
            repo.KindFor attempt? kind (.write intent t e)
  | .find _ given _ => kind = .get ∧ id = given
  | .findAll _ ids _ => kind = .get ∧ id ∈ ids
  | .exists _ given => kind = .exists ∧ id = given
  | .removeDocument _ given _ => kind = .remove ∧ id = given
  | .remove _ e =>
      kind = .remove ∧ repo.mapping.idOf e = some id

/-
  The operation fails, and the caller is told of the cause;
  what an exception says is quoted.
-/
def Tells
    (c : Collaborator)
    (kind : RequestKind)
    (id : Text)
    (collection : CollectionName)
    (cause : Error)
    (outcome : Except Failure α) : Prop :=
  ∃ told : Error,
    outcome = .error (.error told) ∧
      told.Relays c kind.name id collection.qualified cause ∧
      ∀ what,
        cause = .ofException what → what <:+ told.message

/- What is relayed, is told. -/
theorem tells_of_relays
    {c : Collaborator}
    {kind : RequestKind}
    {id : Text}
    {collection : CollectionName}
    {cause told : Error}
    (hRelays :
      told.Relays c kind.name id collection.qualified cause) :
    Tells c kind id collection cause
      (.error (.error told) : Except Failure α) := by
  refine ⟨told, rfl, hRelays, ?_⟩
  intro what hCause
  rw [hRelays.message, hCause]
  exact Error.text_of_ofException what

/-
  A failure of the resolver is the last thing that happens and
  is told; so is one of an executor, after which the caller is
  asked once more whether to stop. A missing document is told
  unless the operation looks for it.
-/
structure RelaysFailures
    (repo : Repository T)
    (scope : CallScope)
    (op : Operation T)
    (before after : ResultRegistry)
    (transcript : Transcript T K)
    (outcome : Except Failure op.Outcome) : Prop where
  resolver :
    ∀ {front rest : Transcript T K} {name reply cause},
      transcript = front ++ ⟨.resolve name, reply⟩ :: rest →
        reply.cause? = some cause →
          rest = [] ∧ after = before ∧
            ∃ kind id,
              repo.Announces scope transcript kind id op ∧
                Tells .resolver kind id name cause outcome
  executor :
    ∀ {front rest : Transcript T K}
        {attempt? request reply cause},
      transcript =
          front ++ ⟨.submit attempt? request, reply⟩ :: rest →
        reply.cause? = some cause →
          Unstopped transcript →
            rest = [⟨.stopRequested, false⟩] ∧
              after = before ∧
              (∀ value,
                op.ofMissing? attempt?.isSome = some value →
                  cause.SaysMissing →
                    outcome = .ok value) ∧
              (¬ (cause.SaysMissing ∧
                  (op.ofMissing? attempt?.isSome).isSome) →
                Tells .executor request.kind request.id
                  request.collection cause outcome)

end Repository

------------------------------------------------------------
-- Tasks That Do Not Ask the Resolver
------------------------------------------------------------

namespace Task

/- Whatever it is answered, the task does not ask the resolver. -/
def Unresolving
    (x : Task T K α) : Prop :=
  ∀ before transcript outcome after,
    x.Ends before transcript outcome after →
      resolutions transcript = []

theorem Hooked.unresolving
    {x : Task T K α}
    (hHooked : x.Hooked) :
    Unresolving x := by
  intro before transcript outcome after h
  exact (hHooked _ _ _ _ h).resolutions_eq_nil

theorem Unresolving.bind
    {x : Task T K α}
    {f : α → Task T K β}
    (hFirst : Unresolving x)
    (hSecond : ∀ value, Unresolving (f value)) :
    Unresolving (x >>= f) := by
  intro before transcript outcome after h
  rcases ends_bind_iff.mp h with
    ⟨failure, hEnds, -⟩ | ⟨_, value, _, _, hSplit, h₁, h₂⟩
  · exact hFirst _ _ _ _ hEnds
  · rw [hSplit, resolutions_append, hFirst _ _ _ _ h₁,
      hSecond value _ _ _ _ h₂, List.append_nil]

theorem Unresolving.result
    {x : Task T K α}
    (hUnresolving : Unresolving x) :
    Unresolving (result x) := by
  intro before transcript outcome after h
  rcases ends_result_iff.mp h with ⟨inner, hInner, -⟩
  exact hUnresolving _ _ _ _ hInner

/- The resolver is not found among those who were asked. -/
theorem Unresolving.not_mem
    {x : Task T K α}
    {before after : ResultRegistry}
    {transcript : Transcript T K}
    {name : CollectionName}
    {reply : Reply CollectionName}
    {outcome : Except Failure α}
    (hUnresolving : Unresolving x)
    (h : x.Ends before transcript outcome after) :
    ⟨.resolve name, reply⟩ ∉ transcript := by
  intro hMem
  have hNone := hUnresolving _ _ _ _ h
  rw [resolutions, List.filterMap_eq_nil_iff] at hNone
  cases hNone _ hMem

/- What does not ask the resolver is over when it is asked. -/
theorem Unresolving.ends_bind
    {x : Task T K α}
    {f : α → Task T K β}
    {before after : ResultRegistry}
    {front rest : Transcript T K}
    {name : CollectionName}
    {reply : Reply CollectionName}
    {outcome : Except Failure β}
    (hUnresolving : Unresolving x)
    (h :
      (x >>= f).Ends before
        (front ++ ⟨.resolve name, reply⟩ :: rest)
        outcome after) :
    ∃ first value between later,
      front = first ++ later ∧
        x.Ends before first (.ok value) between ∧
        (f value).Ends between
          (later ++ ⟨.resolve name, reply⟩ :: rest)
          outcome after := by
  rcases ends_bind_iff.mp h with
    ⟨failure, hEnds, -⟩ | ⟨first, value, between, second, hSplit,
      h₁, h₂⟩
  · exact
      absurd (List.mem_append_right _ List.mem_cons_self)
        (hUnresolving.not_mem hEnds)
  · have hNotIn :
        ⟨.resolve name, reply⟩ ∉ first :=
      hUnresolving.not_mem h₁
    rcases List.append_eq_append_iff.mp hSplit.symm with
      ⟨later, hFront, hSecond⟩ | ⟨later, hFirst, hRest⟩
    · rw [hSecond] at h₂
      exact ⟨first, value, between, later, hFront, h₁, h₂⟩
    · cases later with
      | nil =>
          rw [List.nil_append] at hRest
          rw [List.append_nil] at hFirst
          rw [← hRest] at h₂
          exact
            ⟨first, value, between, [], by simp [hFirst], h₁,
              h₂⟩
      | cons x later =>
          rcases List.cons_eq_cons.mp hRest with ⟨hSame, -⟩
          refine absurd ?_ hNotIn
          rw [hFirst, hSame]
          simp

end Task

namespace Repository

variable {repo : Repository T}
variable {scope : CallScope}
variable {before after : ResultRegistry}
variable {transcript front rest : Transcript T K}

/- A submission concerns the caller and an executor. -/
theorem submit_unresolving
    (request : Request)
    (attempt? : Option Attempt) :
    Task.Unresolving (K := K) (repo.submit request attempt?) := by
  intro before transcript outcome after h
  rcases ends_submit h with ⟨-, result, -, hSubmission⟩
  exact hSubmission.resolutions_eq_nil

theorem activeAttempt_unresolving :
    Task.Unresolving (K := K) (repo.activeAttempt scope) := by
  intro before transcript outcome after h
  exact (ends_activeAttempt h).2.1

theorem earlierResult_hooked
    {S : Schema}
    (d : Descriptor S)
    (e : Entity S) :
    Task.Hooked
      (earlierResult d e : Task T K (Option GetResult)) := by
  intro before transcript outcome after h
  rw [(ends_earlierResult h).1]
  exact .nil

theorem earlierShown_hooked
    {S : Schema}
    (d : Descriptor S)
    (e : Entity S)
    (kind : RequestKind)
    (attempt? : Option Attempt) :
    Task.Hooked
      (earlierShown d e kind attempt? :
        Task T K (Option GetResult)) := by
  unfold earlierShown
  split
  · exact earlierResult_hooked _ _
  · exact .pure _

------------------------------------------------------------
-- The Resolver
------------------------------------------------------------

section Resolver

variable {name : CollectionName}
variable {reply : Reply CollectionName}
variable {cause : Error}

/- The resolver is asked once at most, and its failure is told. -/
theorem ends_resolve_cases
    {kind : RequestKind}
    {id : Text}
    {outcome : Except Failure CollectionName}
    (h :
      (repo.resolve name kind id).Ends
        before transcript outcome after) :
    transcript = [] ∨
      ∃ reply,
        transcript = [⟨.resolve name, reply⟩] ∧
          ∀ cause,
            reply.cause? = some cause →
              Tells .resolver kind id name cause outcome := by
  have hRelays :=
    fun e =>
      Error.relays_ofResolution e kind.name id name.qualified
  unfold resolve at h
  split at h
  · rcases Task.ends_ask_bind_iff.mp h with
      ⟨reply, later, hSplit, hReply⟩
    refine .inr ⟨reply, ?_⟩
    cases reply with
    | ok resolved =>
        rcases Task.ends_pure_iff.mp hReply with ⟨rfl, -⟩
        exact ⟨hSplit, nofun⟩
    | failed e =>
        rcases Task.ends_fail_iff.mp hReply with ⟨rfl, rfl, -⟩
        refine ⟨hSplit, ?_⟩
        intro cause hCause
        cases hCause
        exact tells_of_relays (hRelays e)
    | threw what =>
        rcases Task.ends_fail_iff.mp hReply with ⟨rfl, rfl, -⟩
        refine ⟨hSplit, ?_⟩
        intro cause hCause
        cases hCause
        exact tells_of_relays (hRelays _)
  · exact .inl (Task.ends_fail_iff.mp h).1

/- A failure of the resolver ends what was to follow. -/
theorem ends_resolve_bind_of_cause
    {asked : CollectionName}
    {kind : RequestKind}
    {id : Text}
    {f : CollectionName → Task T K α}
    {outcome : Except Failure α}
    (hCause : reply.cause? = some cause)
    (hUnresolving : ∀ resolved, (f resolved).Unresolving)
    (h :
      (repo.resolve asked kind id >>= f).Ends before
        (front ++ ⟨.resolve name, reply⟩ :: rest)
        outcome after) :
    front = [] ∧ rest = [] ∧ after = before ∧
      Tells .resolver kind id name cause outcome := by
  rcases (resolve_prepares _ _ _ _).ends_bind h with
    ⟨failure, hResolve, -, rfl, rfl⟩ |
      ⟨first, resolved, second, hSplit, -, hResolve, hSecond⟩
  · rcases ends_resolve_cases hResolve with
      hNil | ⟨given, hOne, hTells⟩
    · simp at hNil
    · rcases List.append_eq_singleton_iff.mp hOne with
        ⟨rfl, hSame⟩ | ⟨-, hSame⟩
      · rcases List.cons_eq_cons.mp hSame with ⟨hReply, rfl⟩
        cases hReply
        rcases hTells cause hCause with
          ⟨told, hOutcome, hRelays, -⟩
        cases hOutcome
        exact ⟨rfl, rfl, rfl, tells_of_relays hRelays⟩
      · cases hSame
  · -- the failure is neither before nor after this answer
    have hIn :
        ⟨.resolve name, reply⟩ ∈ first ++ second := by
      rw [← hSplit]
      exact List.mem_append_right _ List.mem_cons_self
    rcases List.mem_append.mp hIn with hFirst | hLater
    · rcases ends_resolve_cases hResolve with
        rfl | ⟨given, rfl, hTells⟩
      · cases hFirst
      · cases List.mem_singleton.mp hFirst
        rcases hTells cause hCause with ⟨_, hOutcome, -⟩
        cases hOutcome
    · exact absurd hLater ((hUnresolving resolved).not_mem hSecond)

/- A write is over when the resolver fails. -/
theorem write_relays_resolver
    {intent : WriteIntent}
    {e : EntityOf t}
    {outcome : Except Failure (EntityOf t)}
    (hCause : reply.cause? = some cause)
    (h :
      (repo.write intent e scope).Ends before
        (front ++ ⟨.resolve name, reply⟩ :: rest)
        outcome after) :
    rest = [] ∧ after = before ∧
      ∃ kind id,
        repo.Announces scope
            (front ++ ⟨.resolve name, reply⟩ :: rest) kind id
            (.write intent t e) ∧
          Tells .resolver kind id name cause outcome := by
  rw [write_eq] at h
  unfold planWrite at h
  simp only [bind_assoc] at h
  rcases Task.ends_ofResult_bind_iff.mp h with
    ⟨_, -, hNil, -⟩ | ⟨d, -, h₁⟩
  · simp at hNil
  rcases Task.ends_ofAccessor_bind_iff.mp h₁ with
    ⟨what, -, hNil, -⟩ | ⟨token, hToken, h₂⟩
  · simp at hNil
  rcases activeAttempt_unresolving.ends_bind h₂ with
    ⟨asked, attempt?, between, later, rfl, hAttempt, h₃⟩
  rcases ends_activeAttempt hAttempt with
    ⟨-, -, hKept, _, hSame, hActive⟩
  cases hSame
  rw [hKept] at h₃
  rcases Task.ends_ofResult_bind_iff.mp h₃ with
    ⟨_, -, hNil, -⟩ | ⟨kind, hKind, h₄⟩
  · simp at hNil
  cases hId : repo.mapping.idOf e with
  | none =>
      rw [hId, Task.fail_bind] at h₄
      rcases Task.ends_fail_iff.mp h₄ with ⟨hNil, -⟩
      simp at hNil
  | some id =>
      rw [hId] at h₄
      simp only [bind_assoc, pure_bind] at h₄
      have hTold :
          later = [] ∧ rest = [] ∧ after = before ∧
            Tells .resolver kind id name cause outcome := by
        refine
          ends_resolve_bind_of_cause hCause (fun resolved => ?_)
            h₄
        refine .bind
          (Task.Hooked.inContext
            (.ofStep (Codec.encode_hooked _ _ _)) _ _
            _).unresolving
          fun document => ?_
        refine .bind
          (Task.Hooked.inContext (.ofResult _) _ _ _).unresolving
          fun payload => ?_
        refine .bind (earlierShown_hooked _ _ _ _).unresolving
          fun earlier? => ?_
        refine .bind (submit_unresolving _ _) fun record => ?_
        exact (finishWrite_hooked _ _ _ _).unresolving
      rcases hTold with ⟨rfl, rfl, rfl, hTells⟩
      refine ⟨rfl, rfl, kind, id, ⟨hId, attempt?, ?_, ?_⟩, hTells⟩
      · apply hActive.of_eq
        simp [providedAttempts, providedAttempt?]
      · exact (kindFor_write hToken hKind).1

/- So is what looks for a document. -/
theorem reach_relays_resolver
    {kind : RequestKind}
    {id : Text}
    {f : Option Attempt × CollectionName → Task T K α}
    {outcome : Except Failure α}
    (hCause : reply.cause? = some cause)
    (hUnresolving : ∀ reached, (f reached).Unresolving)
    (h :
      (repo.reach t kind id scope >>= f).Ends before
        (front ++ ⟨.resolve name, reply⟩ :: rest)
        outcome after) :
    rest = [] ∧ after = before ∧
      Tells .resolver kind id name cause outcome := by
  unfold reach at h
  simp only [bind_assoc, pure_bind] at h
  rcases Task.ends_ofResult_bind_iff.mp h with
    ⟨_, -, hNil, -⟩ | ⟨d, -, h₁⟩
  · simp at hNil
  rcases activeAttempt_unresolving.ends_bind h₁ with
    ⟨asked, attempt?, between, later, -, hAttempt, h₂⟩
  rw [(ends_activeAttempt hAttempt).2.2.1] at h₂
  exact
    (ends_resolve_bind_of_cause hCause
      (fun resolved => hUnresolving _) h₂).2

theorem find_relays_resolver
    {id : Text}
    {options : ReadOptions}
    {outcome : Except Failure (Option (EntityOf t))}
    (hCause : reply.cause? = some cause)
    (h :
      (repo.find t id options scope).Ends before
        (front ++ ⟨.resolve name, reply⟩ :: rest)
        outcome after) :
    rest = [] ∧ after = before ∧
      Tells .resolver .get id name cause outcome := by
  rw [find_eq] at h
  unfold planFind at h
  simp only [bind_assoc, pure_bind] at h
  apply reach_relays_resolver hCause _ h
  intro reached
  refine .bind (submit_unresolving _ _).result fun answer => ?_
  exact (finishFind_hooked _ _ _ _).unresolving

theorem isStored_relays_resolver
    {id : Text}
    {outcome : Except Failure Bool}
    (hCause : reply.cause? = some cause)
    (h :
      (repo.isStored t id scope).Ends before
        (front ++ ⟨.resolve name, reply⟩ :: rest)
        outcome after) :
    rest = [] ∧ after = before ∧
      Tells .resolver .exists id name cause outcome := by
  rw [isStored_eq] at h
  unfold planExists at h
  simp only [bind_assoc, pure_bind] at h
  apply reach_relays_resolver hCause _ h
  intro reached
  refine .bind (submit_unresolving _ _).result fun answer => ?_
  exact (finishExists_hooked _ _).unresolving

/- A removal is over, too. -/
theorem submitRemoval_relays_resolver
    {asked : CollectionName}
    {id : Text}
    {cas : UInt64}
    {earlier? : Option GetResult}
    {outcome : Except Failure StoreRecord}
    (hCause : reply.cause? = some cause)
    (h :
      (repo.submitRemoval asked id cas earlier? scope).Ends before
        (front ++ ⟨.resolve name, reply⟩ :: rest)
        outcome after) :
    rest = [] ∧ after = before ∧
      Tells .resolver .remove id name cause outcome := by
  unfold submitRemoval at h
  have hUnresolving :
      ∀ resolved : CollectionName,
        Task.Unresolving (K := K) (do
          let attempt? ← repo.activeAttempt scope
          repo.submit
            { kind := .remove
              id, cas
              collection := resolved
              durability := scope.durability
              earlier? } attempt?) := by
    intro resolved
    refine .bind activeAttempt_unresolving fun attempt? => ?_
    exact submit_unresolving _ _
  exact (ends_resolve_bind_of_cause hCause hUnresolving h).2

theorem removeDocument_relays_resolver
    {id : Text}
    {cas : UInt64}
    {outcome : Except Failure StoreRecord}
    (hCause : reply.cause? = some cause)
    (h :
      (repo.removeDocument t id cas scope).Ends before
        (front ++ ⟨.resolve name, reply⟩ :: rest)
        outcome after) :
    rest = [] ∧ after = before ∧
      Tells .resolver .remove id name cause outcome := by
  rcases Task.ends_ofResult_bind_iff.mp h with
    ⟨_, -, hNil, -⟩ | ⟨d, -, hRemoval⟩
  · simp at hNil
  · exact submitRemoval_relays_resolver hCause hRemoval

theorem remove_relays_resolver
    {e : EntityOf t}
    {outcome : Except Failure StoreRecord}
    (hCause : reply.cause? = some cause)
    (h :
      (repo.remove e scope).Ends before
        (front ++ ⟨.resolve name, reply⟩ :: rest)
        outcome after) :
    rest = [] ∧ after = before ∧
      ∃ id,
        repo.mapping.idOf e = some id ∧
          Tells .resolver .remove id name cause outcome := by
  rcases Task.ends_ofResult_bind_iff.mp h with
    ⟨_, -, hNil, -⟩ | ⟨d, -, h₁⟩
  · simp at hNil
  cases hId : repo.mapping.idOf e with
  | none =>
      rw [hId] at h₁
      rcases Task.ends_fail_iff.mp h₁ with ⟨hNil, -⟩
      simp at hNil
  | some id =>
      rw [hId] at h₁
      rcases (earlierResult_hooked d e).unresolving.ends_bind h₁ with
        ⟨asked, earlier?, between, later, -, hEarlier, h₂⟩
      rw [(ends_earlierResult hEarlier).2.2] at h₂
      rcases Task.ends_ofAccessor_bind_iff.mp h₂ with
        ⟨what, -, hNil, -⟩ | ⟨cas, -, hRemoval⟩
      · simp at hNil
      rcases submitRemoval_relays_resolver hCause hRemoval with
        ⟨hRest, hAfter, hTells⟩
      exact ⟨hRest, hAfter, id, rfl, hTells⟩

/- Every operation is over when the resolver fails. -/
theorem resolver_relayed
    {op : Operation T}
    {outcome : Except Failure op.Outcome}
    (hSingle : op.IsSingle)
    (hCause : reply.cause? = some cause)
    (h :
      (repo.perform scope op).Ends before
        (front ++ ⟨.resolve name, reply⟩ :: rest)
        outcome after) :
    rest = [] ∧ after = before ∧
      ∃ kind id,
        repo.Announces scope
            (front ++ ⟨.resolve name, reply⟩ :: rest) kind id
            op ∧
          Tells .resolver kind id name cause outcome := by
  cases op with
  | write intent t e => exact write_relays_resolver hCause h
  | find t id options =>
      rcases find_relays_resolver hCause h with
        ⟨hRest, hAfter, hTells⟩
      exact ⟨hRest, hAfter, .get, id, ⟨rfl, rfl⟩, hTells⟩
  | findAll t ids options => exact hSingle.elim
  | «exists» t id =>
      rcases isStored_relays_resolver hCause h with
        ⟨hRest, hAfter, hTells⟩
      exact ⟨hRest, hAfter, .exists, id, ⟨rfl, rfl⟩, hTells⟩
  | removeDocument t id cas =>
      rcases removeDocument_relays_resolver hCause h with
        ⟨hRest, hAfter, hTells⟩
      exact ⟨hRest, hAfter, .remove, id, ⟨rfl, rfl⟩, hTells⟩
  | remove t e =>
      rcases remove_relays_resolver hCause h with
        ⟨hRest, hAfter, id, hId, hTells⟩
      exact ⟨hRest, hAfter, .remove, id, ⟨rfl, hId⟩, hTells⟩

end Resolver

------------------------------------------------------------
-- The Executors
------------------------------------------------------------

section Executor

variable {given? : Option Attempt}
variable {given : Request}
variable {reply : Reply StoreRecord}
variable {cause : Error}

/-
  An executor that fails is asked nothing else, and unless the
  caller has asked to stop, its failure is the answer.
-/
theorem Submission.of_cause
    {opening submission closing : Transcript T K}
    {request : Request}
    {attempt? : Option Attempt}
    {result : Result StoreRecord}
    (hSubmission :
      Submission repo request attempt? submission result)
    (hOpening : submissions opening = [])
    (hClosing : submissions closing = [])
    (hSplit :
      opening ++ submission ++ closing =
        front ++ ⟨.submit given? given, reply⟩ :: rest)
    (hCause : reply.cause? = some cause)
    (hUnstopped : Unstopped (opening ++ submission ++ closing)) :
    given? = attempt? ∧ rest = ⟨.stopRequested, false⟩ :: closing ∧
      ∃ told : Error,
        result = .error told ∧
          told.Relays .executor given.kind.name given.id
            given.collection.qualified cause ∧
          (told.isStorageFault .documentNotFound = true ↔
            cause.SaysMissing) := by
  have hNotIn :
      ∀ {asked : Transcript T K},
        submissions asked = [] →
          ⟨.submit given? given, reply⟩ ∉ asked := by
    intro asked hNone hMem
    have hIn := mem_submissions_iff.mpr ⟨reply, hMem⟩
    rw [hNone] at hIn
    cases hIn
  have hMem : ⟨.submit given? given, reply⟩ ∈ submission := by
    have hIn :
        ⟨.submit given? given, reply⟩ ∈
          opening ++ submission ++ closing := by
      rw [hSplit]
      exact List.mem_append_right _ List.mem_cons_self
    simpa [hNotIn hOpening, hNotIn hClosing] using hIn
  cases hSubmission with
  | stopped => simp at hMem
  | unconnected hConnects => simp at hMem
  | answered hConnects own stop =>
      have hStop : stop = false := hUnstopped stop (by simp)
      subst hStop
      have hAround :
          (opening ++ [⟨.stopRequested, false⟩]) ++
              ⟨.submit attempt? (request.shownTo attempt?),
                own⟩ :: (⟨.stopRequested, false⟩ :: closing) =
            front ++ ⟨.submit given? given, reply⟩ :: rest := by
        rw [← hSplit]
        simp
      rw [List.append_cons_inj_of_notMem
        (by simp [hNotIn hOpening])
        (by simp [hNotIn hClosing])] at hAround
      rcases hAround with ⟨-, hSame, hRest⟩
      cases hSame
      refine ⟨rfl, hRest.symm, ?_⟩
      have hMissing :=
        fun e : Error =>
          e.ofExecution_documentNotFound_iff
            request.kind.name request.id
            request.collection.qualified
      cases reply with
      | ok record => cases hCause
      | failed e =>
          cases hCause
          exact
            ⟨_, rfl, Error.relays_ofExecution _ _ _ _,
              hMissing _⟩
      | threw what =>
          cases hCause
          exact
            ⟨_, rfl, Error.relays_ofExecution _ _ _ _,
              hMissing _⟩

/-
  An operation fails before its request, or hands it over
  once. A request that is refused is the end of it.
-/
theorem ends_perform
    {op : Operation T}
    {outcome : Except Failure op.Outcome}
    (hSingle : op.IsSingle)
    (h :
      (repo.perform scope op).Ends
        before transcript outcome after) :
    Task.FailsQuietly before transcript outcome after ∨
      ∃ (opening submission closing : Transcript T K)
        (request : Request) (attempt? : Option Attempt)
        (result : Result StoreRecord),
        transcript = opening ++ submission ++ closing ∧
          submissions opening = [] ∧
          submissions closing = [] ∧
          Submission repo request attempt? submission result ∧
          ∀ told,
            result = .error told →
              closing = [] ∧ after = before ∧
                outcome = op.refused attempt?.isSome told := by
  cases op with
  | write intent t e =>
      rcases ends_write h with
        hFails | ⟨d, submission, closing, result, hSplit,
          hSubmission, hClosing⟩
      · exact .inl hFails
      have hHooks :=
        Task.Hooked.bind (.ofResult result)
          (fun _ => finishWrite_hooked _ _ _ _) _ _ _ _ hClosing
      refine
        .inr ⟨_, submission, closing, _, _, result, hSplit,
          d.settled.submissions_eq, hHooks.submissions_eq_nil,
          hSubmission, ?_⟩
      intro told hTold
      subst hTold
      rcases Task.ends_fail_iff.mp hClosing with
        ⟨hNil, hError, hKept⟩
      exact ⟨hNil, hKept, hError⟩
  | find t id options =>
      rcases ends_find h with
        hFails | ⟨target, opening, submission, closing, answer,
          hSplit, hSettled, hSubmission, hClosing⟩
      · exact .inl hFails
      have hHooks := finishFind_hooked _ _ _ _ _ _ _ _ hClosing
      refine
        .inr ⟨opening, submission, closing, _, _, answer, hSplit,
          hSettled.submissions_eq, hHooks.submissions_eq_nil,
          hSubmission, ?_⟩
      intro told hTold
      subst hTold
      exact ends_finishFind_error hClosing
  | findAll t ids options => exact hSingle.elim
  | «exists» t id =>
      rcases ends_isStored h with
        hFails | ⟨target, opening, submission, closing, answer,
          hSplit, hSettled, hSubmission, hClosing⟩
      · exact .inl hFails
      have hHooks := finishExists_hooked _ _ _ _ _ _ hClosing
      refine
        .inr ⟨opening, submission, closing, _, _, answer, hSplit,
          hSettled.submissions_eq, hHooks.submissions_eq_nil,
          hSubmission, ?_⟩
      intro told hTold
      subst hTold
      rcases ends_finishExists_error hClosing with
        ⟨hNil, hKept, hOutcome⟩
      exact
        ⟨hNil, hKept,
          hOutcome.trans (Operation.refused_exists _ _ _ _).symm⟩
  | removeDocument t id cas =>
      rcases ends_removeDocument h with
        hFails | ⟨target, opening, submission, result, hSplit,
          hSettled, hSubmission, hOutcome, hKept⟩
      · exact .inl hFails
      refine
        .inr ⟨opening, submission, [], _, _, result, ?_,
          hSettled.submissions_eq, rfl, hSubmission, ?_⟩
      · rw [hSplit, List.append_nil]
      · intro told hTold
        subst hTold
        exact ⟨rfl, hKept, hOutcome⟩
  | remove t e =>
      rcases ends_remove h with
        hFails | ⟨target, id, token, opening, submission, result,
          hSplit, hSettled, -, -, hSubmission, hOutcome, hKept⟩
      · exact .inl hFails
      refine
        .inr ⟨opening, submission, [], _, _, result, ?_,
          hSettled.submissions_eq, rfl, hSubmission, ?_⟩
      · rw [hSplit, List.append_nil]
      · intro told hTold
        subst hTold
        exact ⟨rfl, hKept, hOutcome⟩

/- Every operation is over when its executor fails. -/
theorem executor_relayed
    {op : Operation T}
    {outcome : Except Failure op.Outcome}
    (hSingle : op.IsSingle)
    (hCause : reply.cause? = some cause)
    (hUnstopped :
      Unstopped (front ++ ⟨.submit given? given, reply⟩ :: rest))
    (h :
      (repo.perform scope op).Ends before
        (front ++ ⟨.submit given? given, reply⟩ :: rest)
        outcome after) :
    rest = [⟨.stopRequested, false⟩] ∧ after = before ∧
      (∀ value,
        op.ofMissing? given?.isSome = some value →
          cause.SaysMissing → outcome = .ok value) ∧
      (¬ (cause.SaysMissing ∧
          (op.ofMissing? given?.isSome).isSome) →
        Tells .executor given.kind given.id given.collection
          cause outcome) := by
  rcases ends_perform hSingle h with
    ⟨hNone, -⟩ | ⟨opening, submission, closing, request,
      attempt?, result, hSplit, hOpening, hClosing, hSubmission,
      hRefused⟩
  · simp [submissions, submission?] at hNone
  rw [hSplit] at hUnstopped
  rcases hSubmission.of_cause hOpening hClosing hSplit.symm
      hCause hUnstopped with
    ⟨rfl, hRest, told, hTold, hRelays, hMissing⟩
  rcases hRefused told hTold with ⟨hNil, hKept, hOutcome⟩
  rw [hNil] at hRest
  refine ⟨hRest, hKept, ?_, ?_⟩
  · intro value hValue hSays
    rw [hOutcome, Operation.refused, hValue]
    exact if_pos (hMissing.mpr hSays)
  · intro hNot
    have hError : outcome = .error (.error told) := by
      rw [hOutcome, Operation.refused]
      cases hValue : op.ofMissing? given?.isSome with
      | none => rfl
      | some value =>
          have hSays : ¬ cause.SaysMissing := by
            intro hSays
            exact hNot ⟨hSays, by rw [hValue]; rfl⟩
          exact if_neg (mt hMissing.mp hSays)
    rw [hError]
    exact tells_of_relays hRelays

end Executor

------------------------------------------------------------
-- All Operations
------------------------------------------------------------

/- An operation on one document relays every failure. -/
theorem relaysFailures_of_single
    {op : Operation T}
    {outcome : Except Failure op.Outcome}
    (hSingle : op.IsSingle)
    (h :
      (repo.perform scope op).Ends
        before transcript outcome after) :
    repo.RelaysFailures scope op before after transcript
      outcome where
  resolver := by
    intro front rest name reply cause hSplit hCause
    subst hSplit
    exact resolver_relayed hSingle hCause h
  executor := by
    intro front rest attempt? request reply cause hSplit hCause
      hUnstopped
    subst hSplit
    exact executor_relayed hSingle hCause hUnstopped h

/-
  Whatever the resolver or the chosen executor fails with, an
  operation on one document relays it. Finding a list is
  finding one document after the other: each run relays the
  failures of its own, a document that is missing is left out,
  and the first run that fails is the end of the whole, with
  its error.
-/
theorem failures_relayed :
    (∀ {op : Operation T} {before after}
        {transcript : Transcript T K} {outcome},
      op.IsSingle →
        (repo.perform scope op).Ends
            before transcript outcome after →
          repo.RelaysFailures scope op before after transcript
            outcome) ∧
      ∀ {t : T} {ids options before after}
          {transcript : Transcript T K} {outcome},
        (repo.perform scope (.findAll t ids options)).Ends
            before transcript outcome after →
          ∃ runs : List (FindRun K repo t options scope),
            transcript = (runs.map (·.transcript)).flatten ∧
              FindsAll before ids runs outcome after ∧
              (∀ entities,
                outcome = .ok entities →
                  runs.map (·.id) = ids ∧
                    entities = runs.flatMap (·.found)) ∧
              (∀ done (run : FindRun K repo t options scope) rest
                  failure,
                runs = done ++ run :: rest →
                  run.outcome = .error failure →
                    rest = [] ∧ outcome = .error failure ∧
                      after = run.after) ∧
              ∀ run ∈ runs,
                repo.RelaysFailures scope
                  (.find t run.id options) run.before run.after
                  run.transcript run.outcome := by
  refine ⟨relaysFailures_of_single, ?_⟩
  intro t ids options before after transcript outcome h
  rcases ends_findAll_findsAll h with ⟨runs, hSplit, hRuns⟩
  refine ⟨runs, hSplit, hRuns, ?_, ?_, ?_⟩
  · intro entities hOutcome
    subst hOutcome
    exact hRuns.of_ok
  · intro done run rest failure hDone hFailed
    subst hDone
    exact hRuns.of_failed hFailed
  · intro run hMem
    have hSingle : (Operation.find t run.id options).IsSingle :=
      trivial
    exact relaysFailures_of_single hSingle run.ends

/-
  Ann is not found where her collection is unknown, she is not
  saved where the executor throws, and a list of people whom
  nobody knows is empty.
-/
theorem failures_relayed_of_ann :
    let unknown : Session Sample.EntityType :=
      { Sample.annStored with
        store.resolver :=
          .fails
            { code := .notFound, message := Text.lit "gone" } }
    let broken : Session Sample.EntityType :=
      { Sample.annStored with
        store.throws? := some (Text.lit "boom") }
    let find : Task _ (scriptedHooks _) _ :=
      unknown.repository.perform {}
        (.find .person (Text.lit "p1") {})
    let save : Task _ (scriptedHooks _) _ :=
      broken.repository.perform {} Sample.annSave
    let findAll : Task _ (scriptedHooks _) _ :=
      Sample.scene.repository.perform {}
        (.findAll .person [Text.lit "p1", Text.lit "p2"] {})
    (∃ told : Error,
      (unknown.work find).1 = .error (.error told) ∧
        told.code = .storageError ∧
        told.fault = .collectionNotFound ∧
        told.message = Text.lit "gone") ∧
      (∃ told : Error,
        (broken.work save).1 = .error (.error told) ∧
          Text.lit "boom" <:+ told.message) ∧
      ∃ runs :
          List
            (FindRun (scriptedHooks Sample.EntityType)
              Sample.scene.repository .person {} {}),
        runs.map (·.id) = [Text.lit "p1", Text.lit "p2"] ∧
          runs.flatMap (·.found) = [] ∧
          (Sample.scene.work findAll).1 = .ok [] := by
  intro unknown broken find save findAll
  have hFind :
      (Operation.find Sample.EntityType.person (Text.lit "p1")
        {}).IsSingle :=
    trivial
  have hSave : Sample.annSave.IsSingle := trivial
  refine ⟨?_, ?_, ?_⟩
  · have hRelays :=
      failures_relayed.1 hFind (Session.ends_work unknown find)
    have hSplit :
        unknown.transcriptOf find =
          [⟨.currentAttempt, none⟩] ++
            ⟨.resolve
              ⟨Text.lit "_default", Text.lit "_default"⟩,
              .failed
                { code := .notFound
                  message := Text.lit "gone" }⟩ :: [] :=
      rfl
    rcases hRelays.resolver hSplit rfl with
      ⟨-, -, _, _, -, told, hTold, hTells, -⟩
    exact
      ⟨told, hTold, hTells.code, hTells.fault, hTells.message⟩
  · have hRelays :=
      failures_relayed.1 hSave (Session.ends_work broken save)
    obtain ⟨request, hThrown⟩ :
        ∃ request,
          (broken.transcriptOf save)[7]? =
            some
              ⟨.submit none request, .threw (Text.lit "boom")⟩ :=
      ⟨_, rfl⟩
    rcases List.append_of_mem (List.mem_of_getElem? hThrown) with
      ⟨front, rest, hSplit⟩
    have hUnstopped : Unstopped (broken.transcriptOf save) := by
      rw [unstopped_iff]
      decide +kernel
    rcases (hRelays.executor hSplit rfl hUnstopped).2.2.2
        (fun h => absurd h.2 nofun) with
      ⟨told, hTold, -, hQuotes⟩
    exact ⟨told, hTold, hQuotes _ rfl⟩
  · rcases failures_relayed.2
        (Session.ends_work Sample.scene findAll) with
      ⟨runs, -, -, hFound, -⟩
    have hNone : (Sample.scene.work findAll).1 = .ok [] := rfl
    rcases hFound [] hNone with ⟨hIds, hEmpty⟩
    exact ⟨runs, hIds, hEmpty.symm, hNone⟩

end Repository

end DocumentMapper
