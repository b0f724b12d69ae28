import DocumentMapper.Proofs.Codec.Failing
import DocumentMapper.Proofs.Dialogue.Account
import DocumentMapper.Proofs.Repository.Discipline

/-
  Which errors callers see.

  Whatever resolver, executors and callbacks do, an operation
  fails with an error for callers. Two sources are not
  reclassified: conversions that the application registers,
  and listeners, whose own errors pass as they are.

  Key definitions include:
    * `Repository.Reports`
    * `Operation.Throws`

  Main statements include:
    * `Repository.submit_reports`
    * `Repository.write_reports`
    * `Repository.find_reports`, `Repository.isStored_reports`
    * `Repository.remove_reports`
    * `Repository.perform_reports`
    * `Repository.errors_of_perform`
-/

namespace DocumentMapper

variable {T : Type}
variable [EntityTypes T]
variable {K : Hooks T}
variable {t : T}
variable {α : Type}

------------------------------------------------------------
-- Encoding
------------------------------------------------------------

/- Encoding fails for a reason that conversions explain. -/
theorem Codec.encode_accounts
    (c : Codec T)
    (e : EntityOf t)
    (collection : Text) :
    (c.encode e collection : Step T K Document).Accounts
      c.mapping.conversions.Explains := by
  have hThrew :
      ∀ stage what,
        c.mapping.conversions.Explains
          (listenerThrew stage what) :=
    fun _ _ => .of_forCallers ⟨rfl, nofun⟩
  have hFailed :
      ∀ moment message,
        c.mapping.conversions.Explains
          (callbackFailed moment message) :=
    fun _ _ => .of_forCallers ⟨rfl, nofun⟩
  have hEnd :
      ∀ document : Document,
        Step.Accounts c.mapping.conversions.Explains (do
          publishIf c.hasBus
            ⟨.beforeSave, t, e, some document, collection⟩
          return document : Step T K Document) :=
    fun document =>
      .bind (.publishIf (hThrew _) _) fun _ => .pure document
  unfold encode
  refine .bind (.ofResult (Mapping.descriptor_explained _ _ _)) fun d => ?_
  refine .bind (.publishIf (hThrew _) _) fun _ => ?_
  refine
    .ite (.bind (.substitute (hFailed _) _ _) ?_)
      (.bind (.pure _) ?_) <;>
  · intro converted
    refine .bind (.ofResult (c.toDocument_explained _ _))
      fun document => ?_
    exact
      .ite
        (.bind (.inspect (hFailed _) _ _ _) fun _ => hEnd _)
        (hEnd _)

namespace Repository

variable {repo : Repository T}
variable {scope : CallScope}
variable {before after : ResultRegistry}
variable {transcript : Transcript T K}

------------------------------------------------------------
-- Collaborators
------------------------------------------------------------

/-
  The errors of a task are for callers, except for those of
  registered conversions and of listeners.
-/
abbrev Reports
    (repo : Repository T)
    (Thrown : Text → Prop)
    (x : Task T K α) : Prop :=
  x.Accounts repo.mapping.conversions.Explains Thrown

variable {Thrown : Text → Prop}

/- An error for callers stays one in its context. -/
theorem fail_reports
    {e : Error}
    (hCallers : e.ForCallers) :
    repo.Reports Thrown (Task.fail e : Task T K α) :=
  .fail (.of_forCallers hCallers)

/- Asking for a descriptor fails with an error for callers. -/
theorem descriptor_reports :
    repo.Reports Thrown
      (Task.ofResult (repo.mapping.descriptor t) :
        Task T K (Descriptor (EntityTypes.schema t))) :=
  .ofResult (Mapping.descriptor_explained _ _ _)

theorem activeAttempt_reports :
    repo.Reports (K := K) Thrown (repo.activeAttempt scope) := by
  unfold activeAttempt
  split
  · exact .pure _
  · exact .ite (.ask fun _ => rfl) (.pure _)

/- Whatever a resolver does, callers know the error. -/
theorem resolve_reports
    {name : CollectionName}
    {kind : RequestKind}
    {id : Text} :
    repo.Reports (K := K) Thrown
      (repo.resolve name kind id) := by
  have hContext :
      ∀ e : Error,
        (e.ofResolution.withContext kind.name id
          name.qualified).ForCallers :=
    fun e =>
      (Error.withContext_sameKind _ _ _ _).forCallers_iff.mpr
        e.ofResolution_forCallers
  unfold resolve
  refine .ite (.bind (.ask fun _ => rfl) fun reply => ?_)
    (fail_reports ⟨rfl, nofun⟩)
  cases reply with
  | ok resolved => exact .pure resolved
  | failed e => exact fail_reports (hContext e)
  | threw what => exact fail_reports (hContext _)

/- Whatever an executor does, callers know the error. -/
theorem Submission.failsOnly_forCallers
    {request : Request}
    {attempt? : Option Attempt}
    {result : Result StoreRecord}
    (h : Submission repo request attempt? transcript result) :
    result.FailsOnly Error.ForCallers := by
  have hContext :
      ∀ e : Error,
        (e.ofExecution.withContext request.kind.name request.id
          request.collection.qualified).ForCallers :=
    fun e =>
      (Error.withContext_sameKind _ _ _ _).forCallers_iff.mpr
        e.ofExecution_forCallers
  cases h with
  | stopped => exact .error ⟨rfl, nofun⟩
  | unconnected hConnects => exact .error ⟨rfl, nofun⟩
  | answered hConnects reply stop =>
      cases stop with
      | true => exact .error ⟨rfl, nofun⟩
      | false =>
          cases reply with
          | ok record => exact .ok record
          | failed e => exact .error (hContext e)
          | threw what => exact .error (hContext _)

/- No listener is told of a submission. -/
theorem Submission.listenerErrors_eq_nil
    {request : Request}
    {attempt? : Option Attempt}
    {result : Result StoreRecord}
    (h : Submission repo request attempt? transcript result) :
    listenerErrors transcript = [] := by
  cases h with
  | stopped => rfl
  | unconnected hConnects => rfl
  | answered hConnects reply stop => rfl

theorem submit_reports
    {request : Request}
    {attempt? : Option Attempt} :
    repo.Reports (K := K) Thrown
      (repo.submit request attempt?) := by
  intro before transcript outcome after h
  rcases ends_submit h with ⟨-, result, rfl, hSubmission⟩
  rw [hSubmission.listenerErrors_eq_nil]
  exact
    .of_result fun e hError =>
      .of_forCallers (hSubmission.failsOnly_forCallers e hError)

/- What follows an answer may look at an error for callers. -/
theorem answer_reports
    {request : Request}
    {attempt? : Option Attempt}
    {f : Result StoreRecord → Task T K α}
    (hAnswer :
      ∀ result : Result StoreRecord,
        result.FailsOnly Error.ForCallers →
          repo.Reports Thrown (f result)) :
    repo.Reports Thrown
      (Task.result (repo.submit request attempt?) >>= f) := by
  intro before transcript outcome after h
  rcases ends_answer_bind h with
    ⟨submission, closing, result, rfl, hSubmission, hClosing⟩
  rw [listenerErrors_append, hSubmission.listenerErrors_eq_nil]
  exact
    hAnswer result hSubmission.failsOnly_forCallers _ _ _ _
      hClosing

/- Filling in context changes no source of an error. -/
theorem inContext_reports
    {x : Task T K α}
    (hReports : repo.Reports Thrown x)
    (kind : RequestKind)
    (id collection : Text) :
    repo.Reports Thrown (Task.inContext kind id collection x) :=
  .inContext (fun hCause hKind => hCause.of_sameKind hKind)
    hReports kind id collection

theorem keep_reports
    {S : Schema}
    {d : Descriptor S}
    {e : Entity S}
    {result? : Option GetResult} :
    repo.Reports (K := K) Thrown
      (Writeback.keep d e result?) := by
  cases result? with
  | none => exact .pure e
  | some result => exact .bind (.saveResult _) fun _ => .pure _

theorem earlierResult_reports
    {S : Schema}
    {d : Descriptor S}
    {e : Entity S} :
    repo.Reports (K := K) Thrown (earlierResult d e) := by
  unfold earlierResult
  split
  · exact .ite (.bind .registry fun _ => .pure _) (.pure _)
  · exact .pure _

------------------------------------------------------------
-- Writing
------------------------------------------------------------

/- Upserts inside an attempt are refused with a known error. -/
theorem requestKind_failsOnly
    (intent : WriteIntent)
    (token : UInt64)
    (inAttempt : Bool)
    (id collection : Text) :
    (requestKind intent token inAttempt id
      collection).FailsOnly Error.ForCallers := by
  unfold requestKind
  split
  · split
    · exact .ok _
    · split
      · exact .ok _
      · exact .ok _
  · exact .ok _
  · exact .ok _
  · split
    · exact .error ⟨rfl, nofun⟩
    · exact .ok _

/- Before its request a write may throw as its version getter. -/
theorem planWrite_reports
    {intent : WriteIntent}
    {e : EntityOf t}
    (hThrown :
      ∀ what, repo.mapping.tokenOf e = .error what → Thrown what) :
    repo.Reports (K := K) Thrown
      (repo.planWrite intent e scope) := by
  unfold planWrite
  refine .bind descriptor_reports fun d => ?_
  refine .bind (.ofAccessor hThrown) fun token => ?_
  refine .bind activeAttempt_reports fun attempt? => ?_
  refine .bind
    (.ofResult fun e hError =>
      .of_forCallers (requestKind_failsOnly _ _ _ _ _ e hError))
    fun kind => ?_
  split
  · exact fail_reports ⟨rfl, nofun⟩
  · refine .bind resolve_reports fun resolved => ?_
    refine .bind
      (inContext_reports (.ofStep (Codec.encode_accounts _ _ _))
        _ _ _)
      fun document => ?_
    refine .bind
      (inContext_reports
        (.ofResult (Document.toPayload_explained _ _)) _ _ _)
      fun payload => ?_
    refine .bind (.ite earlierResult_reports (.pure _))
      fun earlier? => ?_
    exact .pure _

/- Writing back fails as its listeners, or for want of room. -/
theorem finishWrite_reports
    {e : EntityOf t}
    {plan : WritePlan}
    {record : StoreRecord} :
    repo.Reports (K := K) Thrown
      (repo.finishWrite e plan record) := by
  refine inContext_reports ?_ _ _ _
  refine .bind descriptor_reports fun d => ?_
  refine .bind (.ofResult (d.withToken_explained _ _ _))
    fun written => ?_
  refine .bind keep_reports fun kept => ?_
  refine .bind (.ofStep (.publishIf (fun _ => ?_) _)) fun _ => .pure _
  exact .of_forCallers ⟨rfl, nofun⟩

theorem write_reports
    {intent : WriteIntent}
    {e : EntityOf t}
    (hThrown :
      ∀ what, repo.mapping.tokenOf e = .error what → Thrown what) :
    repo.Reports (K := K) Thrown (repo.write intent e scope) := by
  rw [write_eq]
  refine .bind (planWrite_reports hThrown) fun plan => ?_
  exact .bind submit_reports fun record => finishWrite_reports

------------------------------------------------------------
-- Reading
------------------------------------------------------------

theorem reach_reports
    {kind : RequestKind}
    {id : Text} :
    repo.Reports (K := K) Thrown
      (repo.reach t kind id scope) := by
  refine .bind descriptor_reports fun d => ?_
  refine .bind activeAttempt_reports fun attempt? => ?_
  exact .bind resolve_reports fun resolved => .pure _

/- A record is read, or refused by the codec. -/
theorem finishFind_reports
    {plan : Plan}
    {answer : Result StoreRecord}
    (hAnswer : answer.FailsOnly Error.ForCallers) :
    repo.Reports (K := K) Thrown
      (repo.finishFind t plan answer) := by
  cases answer with
  | error e =>
      exact .ite (.pure _) (fail_reports (hAnswer e rfl))
  | ok record =>
      refine .bind (inContext_reports ?_ _ _ _) fun e => .pure _
      unfold entityOfRecord
      split
      · exact fail_reports ⟨rfl, nofun⟩
      · refine .bind (.ofResult (Codec.decode_explained _ _ _ _ _))
          fun e => ?_
        exact .bind descriptor_reports fun d => keep_reports

theorem find_reports
    {id : Text}
    {options : ReadOptions} :
    repo.Reports (K := K) Thrown
      (repo.find t id options scope) := by
  rw [find_eq]
  refine .bind (.bind reach_reports fun _ => .pure _) fun plan => ?_
  exact answer_reports fun answer => finishFind_reports

theorem findAll_reports
    {options : ReadOptions}
    (ids : List Text) :
    repo.Reports (K := K) Thrown
      (repo.findAll t options scope ids) := by
  induction ids with
  | nil => exact .pure _
  | cons id rest ih =>
      refine .bind find_reports fun found => ?_
      exact .bind ih fun others => .pure _

theorem isStored_reports
    {id : Text} :
    repo.Reports (K := K) Thrown
      (repo.isStored t id scope) := by
  rw [isStored_eq]
  refine .bind (.bind reach_reports fun _ => .pure _) fun plan => ?_
  refine answer_reports fun answer hAnswer => ?_
  cases answer with
  | ok record => exact .pure _
  | error e =>
      exact .ite (.pure _) (fail_reports (hAnswer e rfl))

------------------------------------------------------------
-- Removing
------------------------------------------------------------

theorem submitRemoval_reports
    {name : CollectionName}
    {id : Text}
    {cas : UInt64}
    {earlier? : Option GetResult} :
    repo.Reports (K := K) Thrown
      (repo.submitRemoval name id cas earlier? scope) := by
  refine .bind resolve_reports fun resolved => ?_
  exact .bind activeAttempt_reports fun attempt? => submit_reports

theorem removeDocument_reports
    {id : Text}
    {cas : UInt64} :
    repo.Reports (K := K) Thrown
      (repo.removeDocument t id cas scope) :=
  .bind descriptor_reports fun _ => submitRemoval_reports

theorem remove_reports
    {e : EntityOf t}
    (hThrown :
      ∀ what, repo.mapping.tokenOf e = .error what → Thrown what) :
    repo.Reports (K := K) Thrown (repo.remove e scope) := by
  unfold remove
  refine .bind descriptor_reports fun d => ?_
  split
  · exact fail_reports ⟨rfl, nofun⟩
  · refine .bind earlierResult_reports fun earlier? => ?_
    exact .bind (.ofAccessor hThrown) fun cas =>
      submitRemoval_reports

end Repository

------------------------------------------------------------
-- Operations
------------------------------------------------------------

/-
  The operation needs the token of an entity, and its getter
  throws.
-/
def Operation.Throws
    (repo : Repository T)
    (op : Operation T)
    (what : Text) : Prop :=
  ∃ (t : T) (e : EntityOf t),
    op.Concerns e ∧ repo.mapping.tokenOf e = .error what

namespace Repository

variable {repo : Repository T}
variable {scope : CallScope}
variable {before after : ResultRegistry}
variable {transcript : Transcript T K}

/- Every operation accounts for its failures. -/
theorem perform_reports
    (repo : Repository T)
    (scope : CallScope)
    (op : Operation T) :
    repo.Reports (K := K) (op.Throws repo)
      (repo.perform scope op) := by
  cases op with
  | write intent t e =>
      exact
        write_reports fun what hError =>
          ⟨t, e, .inl ⟨intent, rfl⟩, hError⟩
  | find t id options => exact find_reports
  | findAll t ids options => exact findAll_reports ids
  | «exists» t id => exact isStored_reports
  | removeDocument t id cas => exact removeDocument_reports
  | remove t e =>
      exact
        remove_reports fun what hError =>
          ⟨t, e, .inr rfl, hError⟩

/-
  Whatever the world does, an operation fails with an error
  for callers, or with one of the kind of an error that a
  listener or a registered conversion has of its own. An error
  of a listener always passes, with its code and its message.
  If conversions fail with errors for callers, these are the
  only ones exactly if all errors of listeners are. No
  exception escapes but that of a version getter.
-/
theorem errors_of_perform
    {op : Operation T}
    {outcome : Except Failure op.Outcome}
    (h :
      (repo.perform scope op).Ends
        before transcript outcome after) :
    (∀ e,
        outcome = .error (.error e) →
          e.ForCallers ∨
            ∃ cause,
              ¬ cause.ForCallers ∧ e.SameKind cause ∧
                (cause ∈ listenerErrors transcript ∨
                  repo.mapping.conversions.FailsWith cause)) ∧
      (∀ cause ∈ listenerErrors transcript,
        ∃ e,
          outcome = .error (.error e) ∧ e.SameKind cause ∧
            e.message = cause.message) ∧
      (repo.mapping.conversions.FailForCallers →
        ∀ e,
          outcome = .error (.error e) →
            (e.ForCallers ↔
              ∀ cause ∈ listenerErrors transcript,
                cause.ForCallers)) ∧
      ∀ what,
        outcome = .error (.thrown what) → op.Throws repo what := by
  have hAccount := perform_reports repo scope op _ _ _ _ h
  refine ⟨?_, fun cause hMem => hAccount.of_mem hMem, ?_, ?_⟩
  · rintro e rfl
    by_cases hCallers : e.ForCallers
    · exact .inl hCallers
    rcases hAccount.cases_error with
      ⟨-, hKnown | ⟨cause, hFails, hKind⟩⟩ |
        ⟨cause, hErrors, hKind, -⟩
    · exact .inl hKnown
    · exact
        .inr ⟨cause, mt hKind.forCallers_iff.mpr hCallers, hKind,
          .inr hFails⟩
    · rw [hErrors]
      exact
        .inr ⟨cause, mt hKind.forCallers_iff.mpr hCallers, hKind,
          .inl (List.mem_singleton_self cause)⟩
  · rintro hConversions e rfl
    rcases hAccount.cases_error with
      ⟨hNone, hExplained⟩ | ⟨cause, hErrors, hKind, -⟩
    · rw [hNone]
      refine iff_of_true ?_ nofun
      rcases hExplained with hCallers | ⟨cause, hFails, hKind⟩
      · exact hCallers
      · exact hKind.forCallers_iff.mpr (hConversions cause hFails)
    · rw [hErrors, hKind.forCallers_iff]
      exact List.forall_mem_singleton.symm
  · rintro what rfl
    generalize listenerErrors transcript = errors at hAccount
    cases hAccount with
    | thrown hThrown => exact hThrown

/- What a listener did not find, Ann is told. -/
theorem errors_of_perform_of_ann :
    let notFound : Error :=
      { code := .notFound, message := Text.lit "nf" }
    let s :=
      (Sample.scene.subscribe (some .beforeConvert)
        { ending := .fails notFound }).2
    let task : Task _ (scriptedHooks _) _ :=
      s.repository.perform {} (.write .save .person Sample.ann)
    notFound ∈ listenerErrors (s.transcriptOf task) ∧
      ∃ e,
        (s.work task).1 = .error (.error e) ∧
          e.SameKind notFound ∧ ¬ e.ForCallers := by
  intro notFound s task
  have hMem : notFound ∈ listenerErrors (s.transcriptOf task) := by
    decide +kernel
  rcases errors_of_perform (Session.ends_work s task) with
    ⟨-, hListeners, hCallers, -⟩
  rcases hListeners notFound hMem with ⟨e, hError, hKind, -⟩
  refine ⟨hMem, e, hError, hKind, fun hForCallers => ?_⟩
  -- the conversions at hand have no errors of that kind
  have hAll :=
    (hCallers Conversions.standard_failForCallers e hError).mp
      hForCallers
  exact absurd (hAll notFound hMem) (by decide)

end Repository

end DocumentMapper
