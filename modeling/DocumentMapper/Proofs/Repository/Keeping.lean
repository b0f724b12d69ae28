import DocumentMapper.Proofs.Codec.Course
import DocumentMapper.Proofs.Repository.Failures
import DocumentMapper.Proofs.Repository.Setback
import DocumentMapper.Proofs.Session.Runs
import DocumentMapper.Sample.Scene

/-
  What operations keep of the results that executors hand out.

  Finding keeps a result exactly if it ends with a value. A
  write has kept its result by the time it tells listeners of
  the saved entity, so one of them who fails comes too late.
  Nothing else is kept, and nothing is dropped.

  Key definitions include:
    * `resultsOf`
    * `refusesSaved`, `savedRefused`
    * `Operation.keeps`

  Main statements include:
    * `Repository.ends_perform_keeps`
    * `Repository.FindsAll.after_eq`
    * `Repository.kept_of_failure`
-/

namespace DocumentMapper

variable {T : Type}
variable [EntityTypes T]
variable {K : Hooks T}

------------------------------------------------------------
-- Results in a Transcript
------------------------------------------------------------

/- The transaction results that executors handed out. -/
def resultsOf
    (transcript : Transcript T K) : List GetResult :=
  (records transcript).filterMap (·.result?)

@[simp]
theorem resultsOf_append
    (first second : Transcript T K) :
    resultsOf (first ++ second) =
      resultsOf first ++ resultsOf second := by
  unfold resultsOf
  rw [records_append, List.filterMap_append]

@[simp]
theorem resultsOf_flatten
    (transcripts : List (Transcript T K)) :
    resultsOf transcripts.flatten =
      transcripts.flatMap resultsOf := by
  induction transcripts with
  | nil => rfl
  | cons first rest ih =>
      rw [List.flatten_cons, resultsOf_append, ih,
        List.flatMap_cons]

/- A result was handed out in answer to a request. -/
theorem mem_resultsOf_iff
    {transcript : Transcript T K}
    {result : GetResult} :
    result ∈ resultsOf transcript ↔
      ∃ attempt? request record,
        ⟨.submit attempt? request, .ok record⟩ ∈ transcript ∧
          record.result? = some result := by
  unfold resultsOf records
  simp only [List.mem_filterMap]
  constructor
  · rintro ⟨record, ⟨⟨question, answer⟩, hMem, hRecord⟩, hResult⟩
    cases question with
    | submit attempt? request =>
        cases answer with
        | ok given =>
            cases hRecord
            exact ⟨attempt?, request, record, hMem, hResult⟩
        | failed e => cases hRecord
        | threw what => cases hRecord
    | _ => cases hRecord
  · rintro ⟨attempt?, request, record, hMem, hResult⟩
    exact ⟨record, ⟨_, hMem, rfl⟩, hResult⟩

/- Without a request there is no result. -/
theorem resultsOf_eq_nil
    {transcript : Transcript T K}
    (h : submissions transcript = []) :
    resultsOf transcript = [] := by
  unfold resultsOf
  rw [records_eq_nil h]
  rfl

/- One record has one result, or none. -/
theorem resultsOf_of_records
    {transcript : Transcript T K}
    {record : StoreRecord}
    (h : records transcript = [record]) :
    resultsOf transcript = record.result?.toList := by
  unfold resultsOf
  rw [h]
  cases hResult : record.result? with
  | none => simp [hResult]
  | some result => simp [hResult]

------------------------------------------------------------
-- Listeners to Saved Entities
------------------------------------------------------------

/- A listener who was told of a saved entity failed. -/
def refusesSaved
    (x : Exchange (Call.Answer (T := T) (K := K))) : Bool :=
  match x with
  | ⟨.notify _ event, reply⟩ =>
      event.stage = .afterSave && !Reply.passes reply
  | _ => false

/- Some listener to saved entities failed. -/
def savedRefused
    (transcript : Transcript T K) : Bool :=
  transcript.any refusesSaved

@[simp]
theorem savedRefused_append
    (first second : Transcript T K) :
    savedRefused (first ++ second) =
      (savedRefused first || savedRefused second) :=
  List.any_append

/- Nobody is told of saved entities in preparation. -/
theorem OnlyPreparation.savedRefused_eq_false
    {transcript : Transcript T K}
    (h : OnlyPreparation transcript) :
    savedRefused transcript = false := by
  rw [savedRefused, List.any_eq_false]
  rintro ⟨question, answer⟩ hMem
  have hOnly := h _ hMem
  cases question with
  | notify listener event =>
      have hStage : event.stage ≠ .afterSave := hOnly
      simp [refusesSaved, hStage]
  | _ => exact Bool.false_ne_true

/- If telling of a saved entity fails, a listener has failed. -/
theorem savedRefused_of_course
    {event : Event T}
    {targets : List K.Listener}
    {told : Transcript T K}
    {failure : Failure}
    (hStage : event.stage = .afterSave)
    (h :
      Course False (targets.map (.notify · event))
        (observed told) (.error failure : Except _ Unit)) :
    savedRefused told = true := by
  generalize hHeard : observed told = heard at h
  generalize hOutcome :
    (.error failure : Except _ Unit) = outcome at h
  cases h with
  | whole hCalls hFlawless => cases hOutcome
  | cut hGap hCalls hFlawless => exact hGap.elim
  | @failed early x cause hCalls hFlawless hFailed =>
      have hCall : x.question ∈ targets.map (.notify · event) := by
        refine hCalls.subset ?_
        rw [questions_append]
        exact List.mem_append_right _ List.mem_cons_self
      have hTold : x ∈ told := by
        have hIn : x ∈ observed told := by
          rw [hHeard]
          exact List.mem_append_right _ List.mem_cons_self
        exact (List.mem_filter.mp hIn).1
      refine List.any_eq_true.mpr ⟨x, hTold, ?_⟩
      rcases x with ⟨question, reply⟩
      rcases List.mem_map.mp hCall with ⟨listener, -, hSame⟩
      cases hSame
      have hRefuses : (!Reply.passes reply) = true := hFailed
      simp [refusesSaved, hStage, hRefuses]

/- Nobody is told of anything while a request is handed over. -/
theorem Repository.Submission.savedRefused_eq_false
    {repo : Repository T}
    {request : Request}
    {attempt? : Option Attempt}
    {transcript : Transcript T K}
    {result : Result StoreRecord}
    (h : Submission repo request attempt? transcript result) :
    savedRefused transcript = false := by
  cases h with
  | stopped => rfl
  | unconnected hConnects => rfl
  | answered hConnects reply stop => rfl

------------------------------------------------------------
-- Operations on One Document
------------------------------------------------------------

namespace Operation

/- The operation writes an entity. -/
def isWrite : Operation T → Bool
  | .write _ _ _ => true
  | _ => false

/-
  The results that an operation on one document keeps, if it
  ends with a value or if it does not.
-/
def keeps
    (op : Operation T)
    (ok : Bool)
    (transcript : Transcript T K) : List GetResult :=
  match op with
  | .write _ _ _ =>
      if ok || savedRefused transcript then
        resultsOf transcript
      else
        []
  | .find _ _ _ => if ok then resultsOf transcript else []
  | _ => []

/- Without a value, only a write may have kept something. -/
theorem keeps_of_failed
    {op : Operation T}
    {transcript : Transcript T K} :
    op.keeps false transcript =
      if op.isWrite && savedRefused transcript then
        resultsOf transcript
      else
        [] := by
  cases op <;> rfl

/- Nothing is kept but what was handed out. -/
theorem keeps_subset
    {op : Operation T}
    {ok : Bool}
    {transcript : Transcript T K} :
    op.keeps ok transcript ⊆ resultsOf transcript := by
  unfold keeps
  split
  · split
    · exact List.Subset.refl _
    · exact List.nil_subset _
  · split
    · exact List.Subset.refl _
    · exact List.nil_subset _
  · exact List.nil_subset _

end Operation

namespace Repository

variable {repo : Repository T}
variable {scope : CallScope}
variable {before after : ResultRegistry}
variable {transcript : Transcript T K}
variable {t : T}

/- The ending of a write keeps the result of its record. -/
theorem ends_finishWrite_keeps
    {e : EntityOf t}
    {plan : WritePlan}
    {record : StoreRecord}
    {outcome : Except Failure (EntityOf t)}
    (h :
      (repo.finishWrite e plan record).Ends
        before transcript outcome after) :
    after =
      before.keepAll
        (if outcome.isOk || savedRefused transcript then
          record.result?.toList
        else
          []) := by
  rcases ends_finishWrite_cases rfl h with
    ⟨rfl, rfl, error, rfl⟩ |
      ⟨d, written, saved, r, -, -, -, hTold, hDecided, hKept⟩
  · rfl
  rw [hKept]
  rcases hDecided with ⟨-, rfl⟩ | ⟨cause, error, rfl, rfl⟩
  · rfl
  rcases ends_publishIf False hTold with
    ⟨-, -, hOk⟩ | ⟨targets, told, rfl, hCourse⟩
  · cases hOk
  · have hRefused : savedRefused told = true :=
      savedRefused_of_course rfl hCourse
    have hAll :
        savedRefused
            (⟨.listeners .afterSave, targets⟩ :: told) =
          true :=
      hRefused
    rw [hAll]
    rfl

/- A write that has its record keeps the result of it. -/
theorem write_keeps
    {intent : WriteIntent}
    {e : EntityOf t}
    {outcome : Except Failure (EntityOf t)}
    (h :
      (repo.write intent e scope).Ends
        before transcript outcome after) :
    after =
      before.keepAll
        ((Operation.write intent t e).keeps outcome.isOk
          transcript) := by
  rcases ends_write_cases h with
    ⟨failure, -, hOnly, rfl, rfl⟩ |
      ⟨d, submission, closing, result, rfl, hOnly, hSubmission,
        hClosing⟩
  · unfold Operation.keeps
    dsimp only
    rw [hOnly.savedRefused_eq_false]
    rfl
  · have hRefused :
        savedRefused (d.opening ++ (submission ++ closing)) =
          savedRefused closing := by
      simp [hOnly.savedRefused_eq_false,
        hSubmission.savedRefused_eq_false]
    unfold Operation.keeps
    dsimp only
    rw [hRefused]
    cases result with
    | error cause =>
        rcases Task.ends_fail_iff.mp hClosing with
          ⟨rfl, rfl, rfl⟩
        rfl
    | ok record =>
        rw [Task.ofResult, pure_bind] at hClosing
        have hHooks :=
          finishWrite_hooked _ _ _ _ _ _ _ _ hClosing
        have hResults :
            resultsOf (d.opening ++ (submission ++ closing)) =
              record.result?.toList := by
          apply resultsOf_of_records
          rw [← List.append_assoc,
            records_around hOnly.submissions_eq_nil
              hHooks.submissions_eq_nil,
            hSubmission.records_of_ok]
        rw [hResults]
        exact ends_finishWrite_keeps hClosing

/- Finding keeps the result of what it finds. -/
theorem find_keeps
    {id : Text}
    {options : ReadOptions}
    {outcome : Except Failure (Option (EntityOf t))}
    (h :
      (repo.find t id options scope).Ends
        before transcript outcome after) :
    after =
      before.keepAll
        ((Operation.find t id options).keeps outcome.isOk
          transcript) := by
  unfold Operation.keeps
  dsimp only
  rcases ends_find h with
    ⟨-, rfl, failure, rfl⟩ | ⟨target, opening, submission,
      closing, answer, rfl, hSettled, hSubmission, hClosing⟩
  · rfl
  have hRecords :
      records (opening ++ submission ++ closing) =
        records submission := by
    have hHooks := finishFind_hooked _ _ _ _ _ _ _ _ hClosing
    exact
      records_around hSettled.submissions_eq
        hHooks.submissions_eq_nil
  cases answer with
  | error cause =>
      rcases ends_finishFind_error hClosing with ⟨-, rfl, rfl⟩
      split
      · rename_i hMissing
        rw [hSubmission.records_of_missing hMissing] at hRecords
        rw [resultsOf, hRecords]
        rfl
      · rfl
  | ok record =>
      rw [hSubmission.records_of_ok] at hRecords
      rw [resultsOf_of_records hRecords]
      rcases ends_finishFind_cases hClosing with
        ⟨-, ⟨rfl, error, rfl⟩ |
          ⟨payload, d, decoded, -, -, -, rfl, rfl⟩⟩
      · rfl
      · rfl

/- Testing for a document keeps nothing. -/
theorem isStored_keeps
    {id : Text}
    {outcome : Except Failure Bool}
    (h :
      (repo.isStored t id scope).Ends
        before transcript outcome after) :
    after = before := by
  rcases ends_isStored h with
    ⟨-, hKept, -⟩ |
      ⟨target, opening, submission, closing, answer, -, -, -,
        hClosing⟩
  · exact hKept
  · cases answer with
    | error cause => exact (ends_finishExists_error hClosing).2.1
    | ok record => exact (Task.ends_pure_iff.mp hClosing).2.2

/-
  What an operation on one document does to the registry: it
  keeps the results that it is said to keep.
-/
theorem ends_perform_keeps
    {op : Operation T}
    {outcome : Except Failure op.Outcome}
    (hSingle : op.IsSingle)
    (h :
      (repo.perform scope op).Ends
        before transcript outcome after) :
    after = before.keepAll (op.keeps outcome.isOk transcript) := by
  cases op with
  | write intent t e => exact write_keeps h
  | find t id options => exact find_keeps h
  | findAll t ids options => exact hSingle.elim
  | «exists» t id => exact isStored_keeps h
  | removeDocument t id cas =>
      rcases ends_removeDocument h with
        ⟨-, hKept, -⟩ | ⟨_, _, _, _, -, -, -, -, hKept⟩
      · exact hKept
      · exact hKept
  | remove t e =>
      rcases ends_remove h with
        ⟨-, hKept, -⟩ | ⟨_, _, _, _, _, _, -, -, -, -, -, -, hKept⟩
      · exact hKept
      · exact hKept

/- One operation on one document is handed one result at most. -/
theorem resultsOf_perform
    {op : Operation T}
    {outcome : Except Failure op.Outcome}
    (hSingle : op.IsSingle)
    (h :
      (repo.perform scope op).Ends
        before transcript outcome after) :
    (resultsOf transcript).length ≤ 1 := by
  rcases ends_perform hSingle h with
    ⟨hNone, -⟩ |
      ⟨opening, submission, closing, request, attempt?, result,
        rfl, hOpening, hClosing, hSubmission, -⟩
  · rw [resultsOf_eq_nil hNone]
    exact Nat.zero_le 1
  rw [resultsOf_append, resultsOf_append,
    resultsOf_eq_nil hOpening, resultsOf_eq_nil hClosing,
    List.nil_append, List.append_nil]
  rcases hSubmission.records_cases with
    ⟨hNone, -⟩ | ⟨record, hOne, -⟩
  · unfold resultsOf
    rw [hNone]
    exact Nat.zero_le 1
  · rw [resultsOf_of_records hOne]
    exact Option.length_toList_le

------------------------------------------------------------
-- Lists of Documents
------------------------------------------------------------

variable {options : ReadOptions}

/- The results that a run of finding keeps. -/
def FindRun.kept
    (run : FindRun K repo t options scope) : List GetResult :=
  (Operation.find t run.id options).keeps run.outcome.isOk
    run.transcript

/- A run keeps no more than what it is said to keep. -/
theorem FindRun.after_eq
    (run : FindRun K repo t options scope) :
    run.after = run.before.keepAll run.kept :=
  find_keeps run.ends

/- A run that finds nothing, or something, keeps all its results. -/
theorem FindRun.kept_of_ok
    {run : FindRun K repo t options scope}
    {found : Option (EntityOf t)}
    (hFound : run.outcome = .ok found) :
    run.kept = resultsOf run.transcript := by
  unfold kept Operation.keeps
  rw [hFound]
  rfl

/- A run that fails keeps nothing. -/
theorem FindRun.kept_of_error
    {run : FindRun K repo t options scope}
    {failure : Failure}
    (hFailed : run.outcome = .error failure) :
    run.kept = [] := by
  unfold kept Operation.keeps
  rw [hFailed]
  rfl

/- Finding a list keeps what its runs keep, one after the other. -/
theorem FindsAll.after_eq
    {ids : List Text}
    {runs : List (FindRun K repo t options scope)}
    {outcome : Except Failure (List (EntityOf t))}
    (h : FindsAll before ids runs outcome after) :
    after = before.keepAll (runs.flatMap (·.kept)) := by
  induction h with
  | nil registry => rfl
  | failed run rest hFailed =>
      rw [List.flatMap_singleton]
      exact run.after_eq
  | found run hFound hRest ih =>
      rw [List.flatMap_cons, ResultRegistry.keepAll_append,
        ← run.after_eq]
      exact ih

/- Before a run there is what the runs before it have kept. -/
theorem FindsAll.split
    {ids : List Text}
    {done rest : List (FindRun K repo t options scope)}
    {run : FindRun K repo t options scope}
    {outcome : Except Failure (List (EntityOf t))}
    (h : FindsAll before ids (done ++ run :: rest) outcome after) :
    run.before = before.keepAll (done.flatMap (·.kept)) ∧
      after = run.after.keepAll (rest.flatMap (·.kept)) := by
  generalize hRuns : done ++ run :: rest = runs at h
  induction h generalizing done with
  | nil registry => simp at hRuns
  | failed last ids hFailed =>
      rcases List.append_eq_singleton_iff.mp hRuns with
        ⟨rfl, hRun⟩ | ⟨-, hRun⟩
      · cases hRun
        exact ⟨rfl, rfl⟩
      · cases hRun
  | found first hFound hRest ih =>
      cases done with
      | nil =>
          cases hRuns
          exact ⟨rfl, hRest.after_eq⟩
      | cons own done =>
          rcases List.cons_eq_cons.mp hRuns with ⟨rfl, hOthers⟩
          rcases ih hOthers with ⟨hBefore, hAfter⟩
          rw [List.flatMap_cons, ResultRegistry.keepAll_append,
            ← own.after_eq]
          exact ⟨hBefore, hAfter⟩

/- If all are found, all results are kept. -/
theorem FindsAll.kept_of_ok
    {ids : List Text}
    {runs : List (FindRun K repo t options scope)}
    {entities : List (EntityOf t)}
    (h : FindsAll before ids runs (.ok entities) after) :
    runs.flatMap (·.kept) =
      resultsOf (runs.map (·.transcript)).flatten := by
  rw [resultsOf_flatten, List.flatMap_map]
  apply List.flatMap_congr
  intro run hMem
  cases hOutcome : run.outcome with
  | ok found => exact FindRun.kept_of_ok hOutcome
  | error failure =>
      rcases List.append_of_mem hMem with ⟨done, rest, rfl⟩
      cases (h.of_failed hOutcome).2.1

------------------------------------------------------------
-- Failing Operations
------------------------------------------------------------

/-
  What a failed operation leaves behind. An operation on one
  document leaves nothing, but for a write whose listeners to
  saved entities did not all agree: its result was kept before
  they were told, and stays. Finding a list leaves the results
  of the documents before the one that failed. No entry that
  was there is changed.
-/
theorem kept_of_failure :
    (∀ {op : Operation T} {before after}
        {transcript : Transcript T K} {failure},
      op.IsSingle →
        (repo.perform scope op).Ends
            before transcript (.error failure) after →
          before.entries <+: after.entries ∧
            (resultsOf transcript).length ≤ 1 ∧
            after =
              if op.isWrite && savedRefused transcript then
                before.keepAll (resultsOf transcript)
              else
                before) ∧
      ∀ {t : T} {ids options before after}
          {transcript : Transcript T K} {failure},
        (repo.perform scope (.findAll t ids options)).Ends
            before transcript (.error failure) after →
          ∃ (done : List (FindRun K repo t options scope))
            (last : FindRun K repo t options scope),
            transcript =
                ((done ++ [last]).map (·.transcript)).flatten ∧
              (done ++ [last]).map (·.id) <+: ids ∧
              (∀ run ∈ done, ∃ found, run.outcome = .ok found) ∧
              last.outcome = .error failure ∧
              before.entries <+: after.entries ∧
              after =
                before.keepAll
                  (done.flatMap
                    fun run => resultsOf run.transcript) := by
  refine ⟨?_, ?_⟩
  · intro op before after transcript failure hSingle h
    have hKept := ends_perform_keeps hSingle h
    rw [hKept]
    refine
      ⟨ResultRegistry.entries_prefix_keepAll,
        resultsOf_perform hSingle h, ?_⟩
    show before.keepAll (op.keeps false transcript) = _
    rw [Operation.keeps_of_failed, apply_ite before.keepAll]
    rfl
  · intro t ids options before after transcript failure h
    rcases ends_findAll_findsAll h with ⟨runs, hSplit, hRuns⟩
    have hKept := hRuns.after_eq
    rcases hRuns.of_error with ⟨done, last, rfl, hLast, hDone⟩
    have hResults :
        done.flatMap (·.kept) =
          done.flatMap fun run => resultsOf run.transcript := by
      apply List.flatMap_congr
      intro run hMem
      rcases hDone run hMem with ⟨found, hFound⟩
      exact FindRun.kept_of_ok hFound
    rw [List.flatMap_append, List.flatMap_singleton,
      FindRun.kept_of_error hLast, List.append_nil,
      hResults] at hKept
    rw [hKept]
    exact
      ⟨done, last, hSplit, hRuns.ids_prefix, hDone, hLast,
        ResultRegistry.entries_prefix_keepAll, rfl⟩

/-
  Ann is inserted inside an attempt, and an auditor objects
  when she is saved; or she is found there, and the next one
  is not readable. Either way she is not returned, but her
  result is there.
-/
theorem result_left_of_ann :
    let insert : Task _ (scriptedHooks _) _ :=
      Sample.auditedScene.repository.perform
        (Sample.inAttempt "T1") Sample.annInsert
    let findAll : Task _ (scriptedHooks _) _ :=
      Sample.brokenScene.repository.perform
        (Sample.inAttempt "T1")
        (.findAll .person [Text.lit "p1", Text.lit "p2"] {})
    let attempts (r : ResultRegistry) : List (Int64 × Option Attempt) :=
      r.entries.map fun entry =>
        (entry.1, entry.2.map (·.attempt))
    ((∃ failure,
        (Sample.auditedScene.work insert).1 = .error failure) ∧
      Sample.auditedScene.registry.entries = [] ∧
      attempts (Sample.auditedScene.work insert).2.registry =
        [(1, some (Text.lit "T1"))]) ∧
      (∃ failure,
          (Sample.brokenScene.work findAll).1 =
            .error failure) ∧
        Sample.brokenScene.registry.entries = [] ∧
        attempts (Sample.brokenScene.work findAll).2.registry =
          [(1, some (Text.lit "T1"))] :=
  ⟨⟨⟨_, rfl⟩, rfl, rfl⟩, ⟨_, rfl⟩, rfl, rfl⟩

/-
  These results are all that is left: that of the record, and
  those of the documents before the one that failed.
-/
theorem kept_of_failure_of_ann :
    let insert : Task _ (scriptedHooks _) _ :=
      Sample.auditedScene.repository.perform
        (Sample.inAttempt "T1") Sample.annInsert
    let findAll : Task _ (scriptedHooks _) _ :=
      Sample.brokenScene.repository.perform
        (Sample.inAttempt "T1")
        (.findAll .person [Text.lit "p1", Text.lit "p2"] {})
    (∃ result,
        resultsOf (Sample.auditedScene.transcriptOf insert) =
            [result] ∧
          (Sample.auditedScene.work insert).2.registry =
            (Sample.auditedScene.registry.save
              (some result)).2) ∧
      ∃ failure,
        (Sample.brokenScene.work findAll).1 = .error failure ∧
          ∃ done : List
              (FindRun (scriptedHooks Sample.EntityType)
                Sample.brokenScene.repository .person {}
                (Sample.inAttempt "T1")),
            (Sample.brokenScene.work findAll).2.registry =
              Sample.brokenScene.registry.keepAll
                (done.flatMap
                  fun run => resultsOf run.transcript) := by
  intro insert findAll
  have hSingle : Sample.annInsert.IsSingle := trivial
  constructor
  · obtain ⟨failure, hFailed⟩ :
        ∃ failure,
          (Sample.auditedScene.work insert).1 =
            .error failure :=
      ⟨_, rfl⟩
    have hEnds := Session.ends_work Sample.auditedScene insert
    rw [hFailed] at hEnds
    rcases kept_of_failure.1 hSingle hEnds with ⟨-, -, hKept⟩
    have hRefused :
        savedRefused (Sample.auditedScene.transcriptOf insert) =
          true := by
      decide +kernel
    rw [hRefused] at hKept
    exact ⟨_, rfl, hKept⟩
  · obtain ⟨failure, hFailed⟩ :
        ∃ failure,
          (Sample.brokenScene.work findAll).1 =
            .error failure :=
      ⟨_, rfl⟩
    have hEnds := Session.ends_work Sample.brokenScene findAll
    rw [hFailed] at hEnds
    rcases kept_of_failure.2 hEnds with
      ⟨done, last, -, -, -, -, -, hKept⟩
    exact ⟨failure, hFailed, done, hKept⟩

end Repository

end DocumentMapper
