import DocumentMapper.Proofs.Dialogue.Quiet
import DocumentMapper.Repository.Basic

/-
  Handing over a request.

  Key definitions include:
    * `Repository.IsActive`, `Repository.OnlyProvider`
    * `Repository.Connects`
    * `Request.shownTo`
    * `Repository.answered`
    * `Repository.Submission`

  Main statements include:
    * `Repository.ends_activeAttempt`
    * `Repository.ends_resolve`, `Repository.ends_resolve_ok`
    * `Repository.ends_submit`
    * `Repository.Submission.submissions_eq`
-/

namespace DocumentMapper

variable {T : Type}
variable [EntityTypes T]
variable {K : Hooks T}

/- The request as an executor sees it. -/
def Request.shownTo
    (request : Request)
    (attempt? : Option Attempt) : Request :=
  { request with
    earlier? :=
      if attempt?.isSome then request.earlier? else none }

namespace Repository

variable {repo : Repository T}
variable {scope : CallScope}
variable {before after : ResultRegistry}
variable {transcript : Transcript T K}

------------------------------------------------------------
-- Preparations
------------------------------------------------------------

/-
  The attempt is the active one: that of the call, or else
  the one answer of the provider, if there is a provider.
-/
def IsActive
    (repo : Repository T)
    (scope : CallScope)
    (transcript : Transcript T K)
    (attempt? : Option Attempt) : Prop :=
  match scope.attempt? with
  | some attempt => attempt? = some attempt
  | none =>
      if repo.wiring.provider then
        providedAttempts transcript = [attempt?]
      else
        attempt? = none

/- Only answers of the provider matter. -/
theorem IsActive.of_eq
    {attempt? : Option Attempt}
    {longer : Transcript T K}
    (h : repo.IsActive scope transcript attempt?)
    (hEq :
      providedAttempts longer = providedAttempts transcript) :
    repo.IsActive scope longer attempt? := by
  unfold IsActive at h ⊢
  rwa [hEq]

/- There is one active attempt, or none. -/
theorem IsActive.unique
    {first second : Option Attempt}
    (hFirst : repo.IsActive scope transcript first)
    (hSecond : repo.IsActive scope transcript second) :
    first = second := by
  unfold IsActive at hFirst hSecond
  cases hScope : scope.attempt? with
  | some attempt =>
      rw [hScope] at hFirst hSecond
      exact hFirst.trans hSecond.symm
  | none =>
      rw [hScope] at hFirst hSecond
      dsimp only at hFirst hSecond
      split at hFirst
      · rw [if_pos ‹_›] at hSecond
        exact List.singleton_inj.mp (hFirst.symm.trans hSecond)
      · rw [if_neg ‹_›] at hSecond
        exact hFirst.trans hSecond.symm

/- Asking for the active attempt ends with it. -/
theorem ends_activeAttempt
    {outcome : Except Failure (Option Attempt)}
    (h :
      (repo.activeAttempt scope).Ends
        before transcript outcome after) :
    submissions transcript = [] ∧
      resolutions transcript = [] ∧ after = before ∧
      ∃ attempt?,
        outcome = .ok attempt? ∧
          repo.IsActive scope transcript attempt? := by
  unfold activeAttempt at h
  unfold IsActive
  cases hScope : scope.attempt? with
  | some attempt =>
      rw [hScope] at h
      rcases Task.ends_pure_iff.mp h with ⟨rfl, rfl, rfl⟩
      exact ⟨rfl, rfl, rfl, some attempt, rfl, rfl⟩
  | none =>
      rw [hScope] at h
      dsimp only at h ⊢
      split at h
      · rcases Task.ends_ask_iff.mp h with ⟨attempt?, rfl, rfl, rfl⟩
        refine ⟨rfl, rfl, rfl, attempt?, rfl, ?_⟩
        rw [if_pos ‹_›]
        rfl
      · rcases Task.ends_pure_iff.mp h with ⟨rfl, rfl, rfl⟩
        refine ⟨rfl, rfl, rfl, none, rfl, ?_⟩
        rw [if_neg ‹_›]

/- Nobody but the provider of attempts is asked, and once at most. -/
def OnlyProvider
    (transcript : Transcript T K) : Prop :=
  transcript = [] ∨
    ∃ attempt?, transcript = [⟨.currentAttempt, attempt?⟩]

theorem OnlyProvider.onlyPreparation
    (h : OnlyProvider transcript) :
    OnlyPreparation transcript := by
  rcases h with rfl | ⟨attempt?, rfl⟩
  · exact .nil
  · exact List.forall_mem_singleton.mpr trivial

theorem OnlyProvider.submissions_eq
    (h : OnlyProvider transcript) :
    submissions transcript = [] := by
  rcases h with rfl | ⟨attempt?, rfl⟩ <;> rfl

theorem OnlyProvider.resolutions_eq
    (h : OnlyProvider transcript) :
    resolutions transcript = [] := by
  rcases h with rfl | ⟨attempt?, rfl⟩ <;> rfl

/- Asking for the active attempt concerns the provider only. -/
theorem activeAttempt_onlyProvider
    {outcome : Except Failure (Option Attempt)}
    (h :
      (repo.activeAttempt scope).Ends
        before transcript outcome after) :
    OnlyProvider transcript := by
  unfold activeAttempt at h
  split at h
  · exact .inl (Task.ends_pure_iff.mp h).1
  · split at h
    · rcases Task.ends_ask_iff.mp h with ⟨attempt?, rfl, -⟩
      exact .inr ⟨attempt?, rfl⟩
    · exact .inl (Task.ends_pure_iff.mp h).1

/- Asking for it neither hands over nor keeps anything. -/
theorem activeAttempt_prepares
    (repo : Repository T)
    (scope : CallScope) :
    Task.Prepares (K := K) (repo.activeAttempt scope) := by
  intro before transcript outcome after h
  rcases ends_activeAttempt h with ⟨-, -, rfl, -⟩
  exact ⟨(activeAttempt_onlyProvider h).onlyPreparation, rfl⟩

/- Resolving neither hands over nor keeps anything. -/
theorem resolve_prepares
    (repo : Repository T)
    (name : CollectionName)
    (kind : RequestKind)
    (id : Text) :
    Task.Prepares (K := K) (repo.resolve name kind id) := by
  unfold resolve
  split
  · refine .bind (.ask ?_) fun reply => ?_
    · exact trivial
    cases reply with
    | ok resolved => exact .pure resolved
    | failed e => exact .fail _
    | threw what => exact .fail _
  · exact .fail _

/- A connected resolver is asked once, and its answer decides. -/
theorem ends_resolve
    {name : CollectionName}
    {kind : RequestKind}
    {id : Text}
    {outcome : Except Failure CollectionName}
    (hResolver : repo.wiring.resolver = true)
    (h :
      (repo.resolve name kind id).Ends
        before transcript outcome after) :
    ∃ reply,
      transcript = [⟨.resolve name, reply⟩] ∧
        ∀ resolved,
          outcome = .ok resolved ↔ reply = .ok resolved := by
  unfold resolve at h
  rw [if_pos hResolver] at h
  rcases Task.ends_ask_bind_iff.mp h with ⟨reply, rest, rfl, hReply⟩
  refine ⟨reply, ?_⟩
  cases reply with
  | ok name =>
      rcases Task.ends_pure_iff.mp hReply with ⟨rfl, rfl, -⟩
      exact ⟨rfl, fun resolved => by simp⟩
  | failed e =>
      rcases Task.ends_fail_iff.mp hReply with ⟨rfl, rfl, -⟩
      exact ⟨rfl, fun resolved => by simp⟩
  | threw what =>
      rcases Task.ends_fail_iff.mp hReply with ⟨rfl, rfl, -⟩
      exact ⟨rfl, fun resolved => by simp⟩

/- A name is resolved to what the resolver answered. -/
theorem ends_resolve_ok
    {name resolved : CollectionName}
    {kind : RequestKind}
    {id : Text}
    (h :
      (repo.resolve name kind id).Ends
        before transcript (.ok resolved) after) :
    repo.wiring.resolver = true ∧
      transcript = [⟨.resolve name, .ok resolved⟩] := by
  by_cases hResolver : repo.wiring.resolver = true
  · rcases ends_resolve hResolver h with ⟨reply, rfl, hReply⟩
    rcases (hReply resolved).mp rfl with rfl
    exact ⟨hResolver, rfl⟩
  · unfold resolve at h
    rw [if_neg hResolver] at h
    rcases Task.ends_fail_iff.mp h with ⟨-, hError, -⟩
    cases hError

------------------------------------------------------------
-- Submission
------------------------------------------------------------

/- There is an executor for requests of the attempt, or of none. -/
def Connects
    (repo : Repository T)
    (attempt? : Option Attempt) : Bool :=
  if attempt?.isSome then
    repo.wiring.attemptExecutor
  else
    repo.wiring.executor

/- The error of a request for which there is no executor. -/
def unconnected
    (request : Request)
    (attempt? : Option Attempt) : Error :=
  (Error.invalidState
    (Text.lit
      (if attempt?.isSome then
        "No transactional executor configured"
      else
        "No key-value executor configured"))).withContext
    request.kind.name request.id
    request.collection.qualified

/- What comes of an answer, if the caller has not asked to stop. -/
def answered
    (request : Request)
    (reply : Reply StoreRecord)
    (stop : Bool) : Result StoreRecord :=
  if stop then
    .error (stopped request "before completion")
  else
    match reply with
    | .ok record => .ok record
    | .failed e =>
        .error
          (e.ofExecution.withContext request.kind.name
            request.id request.collection.qualified)
    | .threw what =>
        .error
          ((Error.ofException what).ofExecution.withContext
            request.kind.name request.id
            request.collection.qualified)

/- A record is what the executor answered, and nobody stopped it. -/
theorem answered_eq_ok_iff
    {request : Request}
    {reply : Reply StoreRecord}
    {stop : Bool}
    {record : StoreRecord} :
    answered request reply stop = .ok record ↔
      stop = false ∧ reply = .ok record := by
  cases stop with
  | true => simp [answered]
  | false => cases reply <;> simp [answered]

/-
  The ways in which handing over a request can end: the
  caller asked to stop, there is no executor, or the executor
  was asked once.
-/
inductive Submission
    (repo : Repository T)
    (request : Request)
    (attempt? : Option Attempt) :
    Transcript T K → Result StoreRecord → Prop where
  | stopped :
      Submission repo request attempt?
        [⟨.stopRequested, true⟩]
        (.error
          (Repository.stopped request "before dispatch"))
  | unconnected
      (hConnects : repo.Connects attempt? = false) :
      Submission repo request attempt?
        [⟨.stopRequested, false⟩]
        (.error (Repository.unconnected request attempt?))
  | answered
      (hConnects : repo.Connects attempt? = true)
      (reply : Reply StoreRecord)
      (stop : Bool) :
      Submission repo request attempt?
        [⟨.stopRequested, false⟩,
          ⟨.submit attempt? (request.shownTo attempt?), reply⟩,
          ⟨.stopRequested, stop⟩]
        (Repository.answered request reply stop)

/-
  At most one request is handed over, it is the given one, and
  there is an executor for it.
-/
theorem Submission.submissions_eq
    {request : Request}
    {attempt? : Option Attempt}
    {result : Result StoreRecord}
    (h : Submission repo request attempt? transcript result) :
    submissions transcript = [] ∨
      submissions transcript =
          [(attempt?, request.shownTo attempt?)] ∧
        repo.Connects attempt? = true := by
  cases h with
  | stopped => exact .inl rfl
  | unconnected hConnects => exact .inl rfl
  | answered hConnects reply stop => exact .inr ⟨rfl, hConnects⟩

/- The provider of attempts is not asked. -/
theorem Submission.providedAttempts_eq_nil
    {request : Request}
    {attempt? : Option Attempt}
    {result : Result StoreRecord}
    (h : Submission repo request attempt? transcript result) :
    providedAttempts transcript = [] := by
  cases h with
  | stopped => rfl
  | unconnected hConnects => rfl
  | answered hConnects reply stop => rfl

/- The resolver is not asked. -/
theorem Submission.resolutions_eq_nil
    {request : Request}
    {attempt? : Option Attempt}
    {result : Result StoreRecord}
    (h : Submission repo request attempt? transcript result) :
    resolutions transcript = [] := by
  cases h with
  | stopped => rfl
  | unconnected hConnects => rfl
  | answered hConnects reply stop => rfl

/- A record comes from the executor. -/
theorem Submission.of_ok
    {request : Request}
    {attempt? : Option Attempt}
    {record : StoreRecord}
    (h :
      Submission repo request attempt? transcript
        (.ok record)) :
    transcript =
      [⟨.stopRequested, false⟩,
        ⟨.submit attempt? (request.shownTo attempt?),
          .ok record⟩,
        ⟨.stopRequested, false⟩] := by
  generalize hResult : Except.ok record = result at h
  cases h with
  | stopped => cases hResult
  | unconnected hConnects => cases hResult
  | answered hConnects reply stop =>
      rcases answered_eq_ok_iff.mp hResult.symm with ⟨rfl, rfl⟩
      rfl

/- The record answers the request. -/
theorem Submission.mem_of_ok
    {request : Request}
    {attempt? : Option Attempt}
    {record : StoreRecord}
    (h :
      Submission repo request attempt? transcript
        (.ok record)) :
    ⟨.submit attempt? (request.shownTo attempt?),
      .ok record⟩ ∈ transcript := by
  rw [h.of_ok]
  simp

/- A record comes from an executor that is there. -/
theorem Submission.connects_of_ok
    {request : Request}
    {attempt? : Option Attempt}
    {record : StoreRecord}
    (h :
      Submission repo request attempt? transcript
        (.ok record)) :
    repo.Connects attempt? = true := by
  rcases h.submissions_eq with hNone | ⟨-, hConnects⟩
  · rw [h.of_ok] at hNone
    cases hNone
  · exact hConnects

/-
  A record that the executor answered with is the result,
  unless the caller asked to stop meanwhile.
-/
theorem Submission.records_cases
    {request : Request}
    {attempt? : Option Attempt}
    {result : Result StoreRecord}
    (h : Submission repo request attempt? transcript result) :
    (records transcript = [] ∧ result.isOk = false) ∨
      ∃ record,
        records transcript = [record] ∧
          (result = .ok record ∨
            result =
              .error
                (Repository.stopped request
                  "before completion")) := by
  cases h with
  | stopped => exact .inl ⟨rfl, rfl⟩
  | unconnected hConnects => exact .inl ⟨rfl, rfl⟩
  | answered hConnects reply stop =>
      cases reply with
      | ok record =>
          refine .inr ⟨record, rfl, ?_⟩
          cases stop with
          | true => exact .inr rfl
          | false => exact .inl rfl
      | failed e => cases stop <;> exact .inl ⟨rfl, rfl⟩
      | threw what => cases stop <;> exact .inl ⟨rfl, rfl⟩

/- One record was handed out if there is one in the end. -/
theorem Submission.records_of_ok
    {request : Request}
    {attempt? : Option Attempt}
    {record : StoreRecord}
    (h :
      Submission repo request attempt? transcript
        (.ok record)) :
    records transcript = [record] := by
  rw [h.of_ok]
  rfl

/- A document that is missing has no record. -/
theorem Submission.records_of_missing
    {request : Request}
    {attempt? : Option Attempt}
    {cause : Error}
    (h :
      Submission repo request attempt? transcript
        (.error cause))
    (hMissing : cause.isStorageFault .documentNotFound = true) :
    records transcript = [] := by
  rcases h.records_cases with
    ⟨hNone, -⟩ | ⟨record, -, hOk | hStopped⟩
  · exact hNone
  · cases hOk
  · cases hStopped
    cases hMissing

/- The executor answers the request, and the answer decides. -/
theorem Submission.of_mem
    {request given : Request}
    {attempt? given? : Option Attempt}
    {reply : Reply StoreRecord}
    {result : Result StoreRecord}
    (h : Submission repo request attempt? transcript result)
    (hMem : ⟨.submit given? given, reply⟩ ∈ transcript) :
    given? = attempt? ∧ given = request.shownTo attempt? ∧
      ∃ stop,
        ⟨.stopRequested, stop⟩ ∈ transcript ∧
          result = Repository.answered request reply stop := by
  cases h with
  | stopped => simp at hMem
  | unconnected hConnects => simp at hMem
  | answered hConnects own stop =>
      have hSame :
          (given? = attempt? ∧
              given = request.shownTo attempt?) ∧
            reply = own := by
        simpa using hMem
      rcases hSame with ⟨⟨rfl, rfl⟩, rfl⟩
      exact ⟨rfl, rfl, stop, by simp, rfl⟩

/- Handing over a request ends as a submission. -/
theorem ends_submit
    {request : Request}
    {attempt? : Option Attempt}
    {outcome : Except Failure StoreRecord}
    (h :
      (repo.submit request attempt?).Ends
        before transcript outcome after) :
    after = before ∧
      ∃ result,
        outcome = Failure.ofResult result ∧
          Submission repo request attempt? transcript
            result := by
  unfold submit at h
  rcases Task.ends_ask_bind_iff.mp h with ⟨early, rest, rfl, hEarly⟩
  cases early with
  | true =>
      rcases Task.ends_fail_iff.mp hEarly with ⟨rfl, rfl, rfl⟩
      exact ⟨rfl, _, rfl, .stopped⟩
  | false =>
      by_cases hConnects : repo.Connects attempt? = true
      · have hNoGuard :
            ¬ (attempt?.isSome &&
                !repo.wiring.attemptExecutor) = true ∧
              ¬ (attempt?.isNone &&
                !repo.wiring.executor) = true := by
          unfold Connects at hConnects
          cases attempt? <;> simp_all
        simp only [Bool.false_eq_true, if_false, hNoGuard.1,
          hNoGuard.2] at hEarly
        rcases Task.ends_ask_bind_iff.mp hEarly with
          ⟨reply, rest, rfl, hReply⟩
        rcases Task.ends_ask_bind_iff.mp hReply with
          ⟨late, rest, rfl, hLate⟩
        have hEnd :
            rest = [] ∧
              outcome =
                Failure.ofResult
                  (Repository.answered request reply late) ∧
              after = before := by
          cases late with
          | true => exact Task.ends_fail_iff.mp hLate
          | false =>
              simp only [Bool.false_eq_true, if_false] at hLate
              cases reply with
              | ok record => exact Task.ends_pure_iff.mp hLate
              | failed e => exact Task.ends_fail_iff.mp hLate
              | threw what => exact Task.ends_fail_iff.mp hLate
        rcases hEnd with ⟨rfl, rfl, rfl⟩
        exact ⟨rfl, _, rfl, .answered hConnects reply late⟩
      · have hMissing :
            (Task.fail (unconnected request attempt?) :
              Task T K StoreRecord).Ends
                before rest outcome after := by
          unfold Connects at hConnects
          cases attempt? with
          | none => simp_all [unconnected]
          | some attempt => simp_all [unconnected]
        rcases Task.ends_fail_iff.mp hMissing with ⟨rfl, rfl, rfl⟩
        exact
          ⟨rfl, _, rfl,
            .unconnected (Bool.not_eq_true _ ▸ hConnects)⟩

/- What follows a submission is reached with a record only. -/
theorem ends_submit_bind
    {α : Type}
    {request : Request}
    {attempt? : Option Attempt}
    {f : StoreRecord → Task T K α}
    {outcome : Except Failure α}
    (h :
      (repo.submit request attempt? >>= f).Ends
        before transcript outcome after) :
    ∃ submission closing result,
      transcript = submission ++ closing ∧
        Submission repo request attempt? submission result ∧
        (Task.ofResult result >>= f).Ends
          before closing outcome after := by
  rcases Task.ends_bind_iff.mp h with
    ⟨failure, hSubmit, rfl⟩ |
      ⟨submission, record, between, closing, rfl, hSubmit,
        hClosing⟩
  · rcases ends_submit hSubmit with
      ⟨rfl, result, hResult, hSubmission⟩
    cases result with
    | ok record => cases hResult
    | error e =>
        cases hResult
        refine
          ⟨transcript, [], _, by simp, hSubmission, ?_⟩
        exact Task.ends_fail_iff.mpr ⟨rfl, rfl, rfl⟩
  · rcases ends_submit hSubmit with
      ⟨rfl, result, hResult, hSubmission⟩
    cases result with
    | error e => cases hResult
    | ok given =>
        cases hResult
        exact
          ⟨submission, closing, _, rfl, hSubmission, hClosing⟩

/- What follows an answer may look at its error, too. -/
theorem ends_answer_bind
    {α : Type}
    {request : Request}
    {attempt? : Option Attempt}
    {f : Result StoreRecord → Task T K α}
    {outcome : Except Failure α}
    (h :
      (Task.result (repo.submit request attempt?) >>= f).Ends
        before transcript outcome after) :
    ∃ submission closing result,
      transcript = submission ++ closing ∧
        Submission repo request attempt? submission result ∧
        (f result).Ends before closing outcome after := by
  rcases Task.ends_bind_iff.mp h with
    ⟨failure, hAnswer, -⟩ |
      ⟨submission, answer, between, closing, rfl, hAnswer,
        hClosing⟩
  all_goals
    rcases Task.ends_result_iff.mp hAnswer with
      ⟨inner, hSubmit, hInner⟩
    rcases ends_submit hSubmit with ⟨rfl, result, rfl, hSubmission⟩
  · cases result <;> cases hInner
  · cases result <;> cases hInner <;>
      exact
        ⟨submission, closing, _, rfl, hSubmission, hClosing⟩

end Repository

end DocumentMapper
