import DocumentMapper.Proofs.Repository.Handover

/-
  Operations that the caller stops.

  A caller may ask to stop at any moment up to the return of
  the executor. The operation then fails, whatever anybody
  else does, and leaves no trace: nobody is told of a saved
  entity, and the registry stays as it is.

  Key definitions include:
    * `StopMoment`
    * `Repository.Halted`

  Main statements include:
    * `Repository.Prevented.halted`
    * `Repository.Handover.halted`
    * `Repository.stop_prevails`
-/

namespace DocumentMapper

variable {T : Type}
variable [EntityTypes T]
variable {K : Hooks T}
variable {t : T}
variable {α : Type}

------------------------------------------------------------
-- Moments
------------------------------------------------------------

/-
  A moment at which the caller asks to stop: from then on he
  is found to have asked, and no executor has returned until
  then. A request that is being carried out is among the later
  exchanges.
-/
structure StopMoment
    (transcript : Transcript T K) where
  early : Transcript T K
  late : Transcript T K
  transcript_eq : transcript = early ++ late
  found : ∀ stop ∈ stopAnswers late, stop = true
  inTime : submissions early = []

namespace StopMoment

variable {transcript : Transcript T K}

/- The caller asks to stop before the executors are asked. -/
def BeforeDispatch
    (m : StopMoment transcript) : Prop :=
  stopAnswers m.early = []

/- Who was found not to stop, has not asked before dispatch. -/
theorem not_beforeDispatch_of_mem
    (m : StopMoment transcript)
    (hMem : ⟨.stopRequested, false⟩ ∈ transcript) :
    ¬ m.BeforeDispatch := by
  intro hBefore
  have hIn : false ∈ stopAnswers (m.early ++ m.late) := by
    rw [← m.transcript_eq]
    exact List.mem_filterMap.mpr ⟨_, hMem, rfl⟩
  rw [stopAnswers_append, hBefore, List.nil_append] at hIn
  cases m.found false hIn

/- Whoever is asked after the executor finds the request to stop. -/
theorem found_after_submit
    (m : StopMoment transcript)
    {front rest : Transcript T K}
    {attempt? : Option Attempt}
    {request : Request}
    {reply : Reply StoreRecord}
    {stop : Bool}
    (hTranscript :
      transcript =
        front ++ ⟨.submit attempt? request, reply⟩ :: rest)
    (hMem : ⟨.stopRequested, stop⟩ ∈ rest) :
    stop = true := by
  have hLate : ⟨.stopRequested, stop⟩ ∈ m.late := by
    rcases List.append_eq_append_iff.mp
        (m.transcript_eq.symm.trans hTranscript) with
      ⟨middle, -, hLate⟩ | ⟨middle, hEarly, hRest⟩
    · rw [hLate]
      exact
        List.mem_append_right _ (List.mem_cons_of_mem _ hMem)
    · cases middle with
      | nil =>
          rw [List.nil_append] at hRest
          rw [← hRest]
          exact List.mem_cons_of_mem _ hMem
      | cons x middle =>
          -- the executor would have returned before
          rcases List.cons_eq_cons.mp hRest with ⟨rfl, -⟩
          have hNone := m.inTime
          rw [hEarly, submissions_append] at hNone
          cases (List.append_eq_nil_iff.mp hNone).2
  exact m.found stop (List.mem_filterMap.mpr ⟨_, hLate, rfl⟩)

end StopMoment

namespace Repository

variable {repo : Repository T}
variable {scope : CallScope}
variable {op : Operation T}
variable {before after : ResultRegistry}
variable {transcript : Transcript T K}
variable {outcome : Except Failure α}

------------------------------------------------------------
-- Halting
------------------------------------------------------------

/- The error says that the caller has stopped the operation. -/
def Cancelled
    (outcome : Except Failure α) : Prop :=
  ∃ e, outcome = .error (.error e) ∧ e.code = .operationCancelled

/-
  The operation is halted: it fails, tells nobody of a saved
  entity, and keeps nothing. A stop before the request leaves
  the executors alone, and is reported unless an obstacle came
  first. With a request that is handed over it is reported,
  whatever the executor did.
-/
structure Halted
    (repo : Repository T)
    (scope : CallScope)
    (op : Operation T)
    (before after : ResultRegistry)
    (outcome : Except Failure α)
    (m : StopMoment transcript) : Prop where
  fails : ∃ failure, outcome = .error failure
  silent :
    ∀ listener event reply,
      event.stage = .afterSave →
        ⟨.notify listener event, reply⟩ ∉ transcript
  kept : after = before
  alone : m.BeforeDispatch → submissions transcript = []
  reported :
    m.BeforeDispatch →
      repo.Obstructed scope op transcript ∨ Cancelled outcome
  overruled : submissions transcript ≠ [] → Cancelled outcome

/- What is prevented, is halted. -/
theorem Prevented.halted
    (h :
      repo.Prevented scope op before after transcript outcome)
    (m : StopMoment transcript) :
    repo.Halted scope op before after outcome m where
  fails := h.fails
  silent _ _ _ hStage hMem := h.only _ hMem hStage
  kept := h.kept
  alone _ := h.only.submissions_eq_nil
  reported _ := .inl h.obstructed
  overruled hSome := absurd h.only.submissions_eq_nil hSome

/- No listener is told of anything while a request is handed over. -/
theorem Submission.notify_not_mem
    {request : Request}
    {attempt? : Option Attempt}
    {result : Result StoreRecord}
    {listener : K.Listener}
    {event : Event T}
    {reply : Reply Unit}
    (h : Submission repo request attempt? transcript result) :
    ⟨.notify listener event, reply⟩ ∉ transcript := by
  cases h <;> simp

/-
  A submission is refused in time: before the executors are
  asked, for want of one, or after one has returned.
-/
theorem Submission.refused_of_stop
    {opening submission closing : Transcript T K}
    {request : Request}
    {attempt? : Option Attempt}
    {result : Result StoreRecord}
    (h : Submission repo request attempt? submission result)
    (m : StopMoment (opening ++ (submission ++ closing))) :
    ∃ e,
      result = .error e ∧
        e.isStorageFault .documentNotFound = false ∧
        (m.BeforeDispatch → submissions submission = []) ∧
        (m.BeforeDispatch ∨ submissions submission ≠ [] →
          e.code = .operationCancelled) := by
  cases h with
  | stopped =>
      exact ⟨_, rfl, rfl, fun _ => rfl, fun _ => rfl⟩
  | unconnected hConnects =>
      have hNot : ¬ m.BeforeDispatch :=
        m.not_beforeDispatch_of_mem (by simp)
      refine ⟨_, rfl, rfl, fun hBefore => absurd hBefore hNot, ?_⟩
      rintro (hBefore | hSome)
      · exact absurd hBefore hNot
      · exact absurd rfl hSome
  | answered hConnects reply stop =>
      have hNot : ¬ m.BeforeDispatch :=
        m.not_beforeDispatch_of_mem (by simp)
      have hStop : stop = true :=
        m.found_after_submit
          (List.append_assoc opening [_] _).symm
          List.mem_cons_self
      subst hStop
      exact
        ⟨_, rfl, rfl, fun hBefore => absurd hBefore hNot,
          fun _ => rfl⟩

/- What is handed over, is halted as well. -/
theorem Handover.halted
    (h : Handover repo before after transcript outcome)
    (m : StopMoment transcript) :
    repo.Halted scope op before after outcome m := by
  cases h with
  | @intro opening submission closing request attempt? result _
      hOpening hSubmission hRefused =>
      rcases hSubmission.refused_of_stop m with
        ⟨e, rfl, hOther, hAlone, hCode⟩
      rcases hRefused e rfl with ⟨rfl, rfl, hOutcome⟩
      have hSubmissions :
          submissions (opening ++ (submission ++ [])) =
            submissions submission := by
        simp [hOpening.submissions_eq_nil]
      exact
        { fails := ⟨_, hOutcome hOther⟩
          silent := by
            intro listener event reply hStage hMem
            rw [List.append_nil] at hMem
            rcases List.mem_append.mp hMem with hMem | hMem
            · exact hOpening _ hMem hStage
            · exact hSubmission.notify_not_mem hMem
          kept := rfl
          alone := fun hBefore => hSubmissions.trans (hAlone hBefore)
          reported := fun hBefore =>
            .inr ⟨e, hOutcome hOther, hCode (.inl hBefore)⟩
          overruled := fun hSome =>
            ⟨e, hOutcome hOther,
              hCode (.inr (hSubmissions ▸ hSome))⟩ }

/- The requests of finding are gets of the one document. -/
theorem FindRun.id_of_submitted
    {options : ReadOptions}
    (run : FindRun K repo t options scope) :
    ∀ x ∈ submissions run.transcript,
      x.2.kind = .get ∧ x.2.id = run.id := by
  intro x hMem
  rcases find_disciplined run.ends with
    hNone | ⟨attempt?, request, hOne, hWellFormed⟩
  · rw [hNone] at hMem
    cases hMem
  · rw [hOne, List.mem_singleton] at hMem
    rw [hMem]
    exact ⟨hWellFormed.kind, hWellFormed.id⟩

/-
  At whatever moment the caller asks to stop, an operation on
  one document is halted. Finding a list consists of runs, one
  for each document until one fails; whatever the run during
  or before which the caller asks to stop, it is halted, it is
  the last one, and its failure is that of the whole.
-/
theorem stop_prevails :
    (∀ {op : Operation T} {before after}
        {transcript : Transcript T K} {outcome},
      op.IsSingle →
        (repo.perform scope op).Ends
            before transcript outcome after →
          ∀ m : StopMoment transcript,
            repo.Halted scope op before after outcome m) ∧
      ∀ {t : T} {ids options before after}
          {transcript : Transcript T K} {outcome},
        (repo.findAll t options scope ids).Ends
            before transcript outcome after →
          ∃ runs : List (FindRun K repo t options scope),
            transcript = (runs.map (·.transcript)).flatten ∧
              runs.map (·.id) <+: ids ∧
              (ids ≠ [] → runs ≠ []) ∧
              (∀ found,
                outcome = .ok found → runs.map (·.id) = ids) ∧
              (∀ run ∈ runs, ∀ x ∈ submissions run.transcript,
                x.2.kind = .get ∧ x.2.id = run.id) ∧
              ∀ done (run : FindRun K repo t options scope) rest,
                runs = done ++ run :: rest →
                  ∀ m : StopMoment run.transcript,
                    rest = [] ∧
                      repo.Halted scope
                        (.find t run.id options) run.before
                        run.after run.outcome m ∧
                      ∃ failure,
                        run.outcome = .error failure ∧
                          outcome = .error failure := by
  have hSingle :
      ∀ {op : Operation T} {before after}
        {transcript : Transcript T K} {outcome},
        op.IsSingle →
          (repo.perform scope op).Ends
              before transcript outcome after →
            ∀ m : StopMoment transcript,
              repo.Halted scope op before after outcome m := by
    intro op before after transcript outcome hSingle h m
    rcases perform_handover hSingle h with hPrevented | hHandover
    · exact hPrevented.halted m
    · exact hHandover.halted m
  refine ⟨hSingle, ?_⟩
  intro t ids options before after transcript outcome h
  rcases ends_findAll_runs h with
    ⟨runs, hTranscript, hIds, hSome, hFound, hFailing⟩
  refine
    ⟨runs, hTranscript, hIds, hSome,
      fun found hOk => (hFound found hOk).1,
      fun run _ => run.id_of_submitted, ?_⟩
  intro done run rest hRuns m
  have hFind : (Operation.find t run.id options).IsSingle :=
    trivial
  have hHalted :
      repo.Halted scope (.find t run.id options) run.before
        run.after run.outcome m :=
    hSingle hFind run.ends m
  rcases hHalted.fails with ⟨failure, hFailure⟩
  rcases hFailing done run rest failure hRuns hFailure with
    ⟨rfl, hOutcome⟩
  exact ⟨rfl, hHalted, failure, hFailure, hOutcome⟩

/-
  Ann is being replaced when her caller asks to stop; and a
  caller who has asked before finds nobody.
-/
theorem stop_prevails_of_ann :
    let stopping : Session Sample.EntityType :=
      { Sample.annStored with store.stopsCaller := true }
    let stopped : Session Sample.EntityType :=
      { Sample.annStored with stopRequested := true }
    let save : Task _ (scriptedHooks _) _ :=
      Sample.annStored.repository.perform {} Sample.annSave
    let find : Task _ (scriptedHooks _) _ :=
      Sample.annStored.repository.findAll .person {} {}
        [Text.lit "p1", Text.lit "p2"]
    (submissions (stopping.transcriptOf save)).length = 1 ∧
      Cancelled (stopping.work save).1 ∧
      ∃ failure, (stopped.work find).1 = .error failure := by
  intro stopping stopped save find
  have hSubmissions :
      (submissions (stopping.transcriptOf save)).length = 1 := by
    decide +kernel
  -- the caller asks between the first check and the request
  let m : StopMoment (stopping.transcriptOf save) :=
    { early := (stopping.transcriptOf save).take 7
      late := (stopping.transcriptOf save).drop 7
      transcript_eq := (List.take_append_drop 7 _).symm
      found := by decide +kernel
      inTime := by
        rw [← List.length_eq_zero_iff]
        decide +kernel }
  have hSave : Sample.annSave.IsSingle := trivial
  have hHalted :=
    stop_prevails.1 hSave
      (Session.ends_work stopping save) m
  have hFound :
      ∀ stop ∈ stopAnswers (stopped.transcriptOf find),
        stop = true := by
    decide +kernel
  rcases stop_prevails.2 (Session.ends_work stopped find) with
    ⟨runs, hTranscript, -, hSome, -, -, hRuns⟩
  rcases List.exists_cons_of_ne_nil (hSome nofun) with
    ⟨run, rest, rfl⟩
  let first : StopMoment run.transcript :=
    { early := []
      late := run.transcript
      transcript_eq := rfl
      found := fun stop hMem => by
        apply hFound stop
        rw [hTranscript, List.map_cons, List.flatten_cons,
          stopAnswers_append]
        exact List.mem_append_left _ hMem
      inTime := rfl }
  rcases hRuns [] run rest rfl first with
    ⟨-, -, failure, -, hFailure⟩
  refine ⟨hSubmissions, hHalted.overruled ?_, failure, hFailure⟩
  intro hNone
  rw [hNone] at hSubmissions
  cases hSubmissions

end Repository

end DocumentMapper
