import DocumentMapper.Proofs.Repository.Chronicle
import DocumentMapper.Proofs.Repository.Discipline

/-
  Where the results come from that are shown to executors.

  Operations look for a result under the key of an entity, and
  for nothing else. The result that is shown is the one that
  some operation has recorded there; it is about the document
  and the attempt of that operation, and these need not be the
  ones at hand.

  Key definitions include:
    * `OperationRun.Faithful`
    * `OperationRun.Recorded`

  Main statements include:
    * `Repository.composed_of_submitted`
    * `Repository.found_of_shown`
    * `OperationRun.Issued.recorded`
    * `Repository.provenance_of_shown`
-/

namespace DocumentMapper

variable {T : Type}
variable [EntityTypes T]
variable {K : Hooks T}

namespace Repository

variable {repo : Repository T}
variable {scope : CallScope}
variable {op : Operation T}
variable {before after : ResultRegistry}
variable {transcript : Transcript T K}
variable {attempt? : Option Attempt}
variable {request : Request}
variable {t : T}

------------------------------------------------------------
-- Requests of Operations
------------------------------------------------------------

/- A request that is handed over is the well-formed one. -/
theorem Disciplined.of_mem
    (h : repo.Disciplined scope before op transcript)
    (hMem : (attempt?, request) ∈ submissions transcript) :
    repo.WellFormed scope before op transcript attempt?
      request := by
  rcases h with hNone | ⟨own?, own, hOne, hWellFormed⟩
  · rw [hNone] at hMem
    cases hMem
  · rw [hOne] at hMem
    cases List.mem_singleton.mp hMem
    exact hWellFormed

/-
  A request is about a document of its operation, and shows
  what the registry had for it.
-/
theorem composed_of_submitted
    {outcome : Except Failure op.Outcome}
    (h :
      (repo.perform scope op).Ends
        before transcript outcome after)
    (hMem : (attempt?, request) ∈ submissions transcript) :
    repo.IdFor request op ∧
      repo.EarlierFor before attempt? request op := by
  cases op with
  | write intent t e =>
      have hRequest := (write_disciplined h).of_mem hMem
      exact ⟨hRequest.id, hRequest.earlier⟩
  | find t id options =>
      have hRequest := (find_disciplined h).of_mem hMem
      exact ⟨hRequest.id, hRequest.earlier⟩
  | findAll t ids options =>
      rcases findAll_disciplined h with
        ⟨runs, rfl, hIds, hRuns⟩
      rcases mem_submissions_iff.mp hMem with ⟨reply, hIn⟩
      rcases List.mem_flatten.mp hIn with ⟨part, hPart, hIn⟩
      rcases List.mem_map.mp hPart with ⟨run, hRun, rfl⟩
      have hRequest :=
        (hRuns run hRun).of_mem
          (mem_submissions_iff.mpr ⟨reply, hIn⟩)
      have hId : request.id = run.id := hRequest.id
      refine ⟨?_, hRequest.earlier⟩
      show request.id ∈ ids
      rw [hId]
      exact hIds.subset (List.mem_map_of_mem hRun)
  | «exists» t id =>
      have hRequest := (isStored_disciplined h).of_mem hMem
      exact ⟨hRequest.id, hRequest.earlier⟩
  | removeDocument t id cas =>
      have hRequest := (removeDocument_disciplined h).of_mem hMem
      exact ⟨hRequest.id, hRequest.earlier⟩
  | remove t e =>
      have hRequest := (remove_disciplined h).of_mem hMem
      exact ⟨hRequest.id, hRequest.earlier⟩

/- What is registered for an entity stands under its key. -/
theorem registered?_eq_some
    {e : EntityOf t}
    {result : GetResult}
    (h : repo.registered? before e = some result) :
    ∃ d key,
      repo.mapping.descriptor t = .ok d ∧
        d.keyOf e = some key ∧ 0 < key ∧
        before.find? key = some result := by
  unfold registered? at h
  rcases Option.bind_eq_some_iff.mp h with ⟨d, hDescriptor, h₁⟩
  rcases Option.bind_eq_some_iff.mp h₁ with ⟨key, hKey, h₂⟩
  split at h₂
  · exact
      ⟨d, key, Mapping.descriptor_eq_ok_iff.mpr hDescriptor,
        hKey, ‹_›, h₂⟩
  · cases h₂

/- A result that is shown is found under the key of an entity. -/
theorem found_of_shown
    {outcome : Except Failure op.Outcome}
    {result : GetResult}
    (h :
      (repo.perform scope op).Ends
        before transcript outcome after)
    (hMem : (attempt?, request) ∈ submissions transcript)
    (hShown : request.earlier? = some result) :
    ∃ t, ∃ e : EntityOf t, ∃ d key,
      op.Concerns e ∧ repo.mapping.descriptor t = .ok d ∧
        d.keyOf e = some key ∧ 0 < key ∧
        before.find? key = some result := by
  have hEarlier := (composed_of_submitted h hMem).2
  cases op with
  | write intent t e =>
      have hOwn : (if _ then _ else none) = some result :=
        hEarlier.symm.trans hShown
      rcases registered?_eq_some
          (Option.ite_none_right_eq_some.mp hOwn).2 with
        ⟨d, key, hFound⟩
      exact ⟨t, e, d, key, .inl ⟨intent, rfl⟩, hFound⟩
  | remove t e =>
      have hOwn : (if _ then _ else none) = some result :=
        hEarlier.symm.trans hShown
      rcases registered?_eq_some
          (Option.ite_none_right_eq_some.mp hOwn).2 with
        ⟨d, key, hFound⟩
      exact ⟨t, e, d, key, .inr rfl, hFound⟩
  | _ => cases hShown.symm.trans hEarlier

end Repository

------------------------------------------------------------
-- Recording
------------------------------------------------------------

namespace OperationRun

/-
  The executor has filled in the result that it handed out: it
  has the identifier that was asked for, and the attempt in
  which it was asked for.
-/
def fillsIn
    (x : Exchange (Call.Answer (T := T) (K := K))) : Bool :=
  match x with
  | ⟨.submit attempt? request, .ok record⟩ =>
      record.result?.all fun result =>
        result.id = request.id &&
          attempt?.all fun attempt => result.attempt = attempt
  | _ => true

/- The executors have filled in all results. -/
def Faithful
    (run : OperationRun T K) : Prop :=
  run.transcript.all fillsIn = true

/- A result is about its request, and about its attempt. -/
theorem Faithful.of_mem
    {run : OperationRun T K}
    {attempt? : Option Attempt}
    {request : Request}
    {record : StoreRecord}
    {result : GetResult}
    (h : run.Faithful)
    (hMem :
      ⟨.submit attempt? request, .ok record⟩ ∈ run.transcript)
    (hResult : record.result? = some result) :
    result.id = request.id ∧
      ∀ attempt, attempt? = some attempt →
        result.attempt = attempt := by
  have hFills := List.all_eq_true.mp h _ hMem
  simp only [fillsIn, hResult, Option.all_some,
    Bool.and_eq_true, decide_eq_true_eq] at hFills
  refine ⟨hFills.1, ?_⟩
  intro attempt hAttempt
  have hOwn := hFills.2
  rw [hAttempt] at hOwn
  exact of_decide_eq_true hOwn

/-
  The operation has recorded the result under the key. It was
  handed out in answer to this request of the operation, which
  was made in this attempt.
-/
structure Recorded
    (run : OperationRun T K)
    (key : Int64)
    (result : GetResult)
    (attempt? : Option Attempt)
    (request : Request) : Prop where
  issued : run.Issued key result
  idFor : run.repo.IdFor request run.op
  answered :
    ∃ record,
      ⟨.submit attempt? request, .ok record⟩ ∈ run.transcript ∧
        record.result? = some result

/- What was put there, was recorded for some request. -/
theorem Issued.recorded
    {run : OperationRun T K}
    {key : Int64}
    {result : GetResult}
    (h : run.Issued key result) :
    ∃ attempt? request, run.Recorded key result attempt? request := by
  rcases mem_resultsOf_iff.mp h.mem_resultsOf with
    ⟨attempt?, request, record, hMem, hResult⟩
  have hSubmitted :=
    mem_submissions_iff.mpr ⟨.ok record, hMem⟩
  exact
    ⟨attempt?, request,
      { issued := h
        idFor :=
          (Repository.composed_of_submitted run.ends
            hSubmitted).1
        answered := ⟨record, hMem, hResult⟩ }⟩

end OperationRun

namespace Repository

/-
  A result that is shown to an executor is found under the
  positive key of the entity at hand. An operation has recorded
  it there, and it is about the document and the attempt of the
  request that it came from. Once the entries of an attempt are
  dropped, and no operation is handed a result of it any more,
  none of its results is shown.
-/
theorem provenance_of_shown
    {happenings : List (Happening T K)}
    {registry : ResultRegistry}
    (hChronicle : Chronicle {} happenings registry)
    (hErases : ∀ c, .call c ∈ happenings → c.saved? = none)
    (hFaithful :
      ∀ run, .operation run ∈ happenings → run.Faithful) :
    ∀ {repo : Repository T} {scope op outcome after}
        {transcript : Transcript T K} {attempt? request result},
      (repo.perform scope op).Ends
          registry transcript outcome after →
        (attempt?, request) ∈ submissions transcript →
          request.earlier? = some result →
            ∃ t, ∃ e : EntityOf t, ∃ d key,
              op.Concerns e ∧
                repo.mapping.descriptor t = .ok d ∧
                d.keyOf e = some key ∧ 0 < key ∧
                registry.find? key = some result ∧
                (∃ run first? recorded,
                  .operation run ∈ happenings ∧
                    run.Recorded key result first? recorded ∧
                    result.id = recorded.id ∧
                    ∀ attempt, first? = some attempt →
                      result.attempt = attempt) ∧
                ∀ dropped earlier later,
                  happenings =
                      earlier ++
                        .call (.eraseOfAttempt dropped) ::
                          later →
                    (∀ run, .operation run ∈ later →
                      ∀ own ∈ resultsOf run.transcript,
                        own.attempt ≠ dropped) →
                      result.attempt ≠ dropped := by
  intro repo scope op outcome after transcript attempt? request
    result h hMem hShown
  rcases found_of_shown h hMem hShown with
    ⟨t, e, d, key, hConcerns, hDescriptor, hKey, hPos, hFind⟩
  have hEntry := ResultRegistry.mem_entries_of_find? hFind
  refine
    ⟨t, e, d, key, hConcerns, hDescriptor, hKey, hPos, hFind,
      ?_, ?_⟩
  · rcases hChronicle.exists_origin hErases hEntry with
      hNone | ⟨run, hRun, hIssued⟩
    · cases hNone
    rcases hIssued.recorded with ⟨first?, recorded, hRecorded⟩
    rcases hRecorded.answered with ⟨record, hIn, hResult⟩
    rcases (hFaithful run hRun).of_mem hIn hResult with
      ⟨hId, hAttempt⟩
    exact
      ⟨run, first?, recorded, hRun, hRecorded, hId, hAttempt⟩
  · intro dropped earlier later hHappenings hOver
    subst hHappenings
    rcases hChronicle.of_append with ⟨between, -, hLater⟩
    refine hLater.attempt_ne_of_erased ?_ hOver hEntry
    intro c hCall
    exact
      hErases c
        (List.mem_append_right _
          (List.mem_cons_of_mem _ hCall))

/-
  Ann is found in one attempt and replaced in another one. The
  result that is shown there is about her, but it is of the
  first attempt.
-/
theorem shown_across_attempts_of_ann :
    let find : Task _ (scriptedHooks _) _ :=
      Sample.annStored.repository.perform
        (Sample.inAttempt "T1")
        (.find .person (Text.lit "p1") {})
    let later : Session Sample.EntityType :=
      (Sample.annStored.work find).2
    ∃ ann : EntityOf Sample.EntityType.person,
      (Sample.annStored.work find).1 = .ok (some ann) ∧
        (Sample.annStored.transcriptOf find).all
            OperationRun.fillsIn =
          true ∧
        let replace : Task _ (scriptedHooks _) _ :=
          later.repository.perform (Sample.inAttempt "T2")
            (.write .replace .person ann)
        (submissions (later.transcriptOf replace)).map
            (fun x =>
              (x.1, x.2.kind, x.2.earlier?.map (·.attempt))) =
          [(some (Text.lit "T2"), .replace,
            some (Text.lit "T1"))] := by
  intro find later
  let ann : EntityOf Sample.EntityType.person :=
    (Sample.annStored.work find).1.toOption.join.getD Sample.ann
  refine ⟨ann, rfl, ?_, ?_⟩
  · decide +kernel
  · decide +kernel

/- It was recorded when she was found. -/
theorem provenance_of_shown_of_ann :
    let find : Task _ (scriptedHooks _) _ :=
      Sample.annStored.repository.perform
        (Sample.inAttempt "T1")
        (.find .person (Text.lit "p1") {})
    let run : OperationRun _ (scriptedHooks _) :=
      ⟨_, _, _, _, _, _, _,
        Session.ends_work Sample.annStored find⟩
    ∃ result key first? recorded,
      run.after.find? key = some result ∧
        run.Recorded key result first? recorded ∧
        result.id = recorded.id := by
  intro find run
  let later : Session Sample.EntityType :=
    (Sample.annStored.work find).2
  let ann : EntityOf Sample.EntityType.person :=
    (Sample.annStored.work find).1.toOption.join.getD Sample.ann
  let replace : Task _ (scriptedHooks _) _ :=
    later.repository.perform (Sample.inAttempt "T2")
      (.write .replace .person ann)
  have hChronicle :
      Chronicle {} [.operation run] later.registry :=
    .operation run (.nil _)
  have hErases :
      ∀ c, .call c ∈ [Happening.operation run] →
        c.saved? = none := by
    intro c hMem
    cases List.mem_singleton.mp hMem
  have hFaithful :
      ∀ own, .operation own ∈ [Happening.operation run] →
        own.Faithful := by
    intro own hMem
    cases List.mem_singleton.mp hMem
    show (Sample.annStored.transcriptOf find).all
      OperationRun.fillsIn = true
    decide +kernel
  have hShown :
      ∃ x ∈ submissions (later.transcriptOf replace),
        x.2.earlier?.isSome = true := by
    decide +kernel
  rcases hShown with ⟨⟨attempt?, request⟩, hMem, hSome⟩
  rcases Option.isSome_iff_exists.mp hSome with ⟨result, hShown⟩
  have hEnds := Session.ends_work later replace
  rcases provenance_of_shown hChronicle hErases hFaithful
      hEnds hMem hShown with
    ⟨t, e, d, key, -, -, -, -, hFind, hOrigin, -⟩
  rcases hOrigin with
    ⟨own, first?, recorded, hOwn, hRecorded, hId, -⟩
  cases List.mem_singleton.mp hOwn
  exact ⟨result, key, first?, recorded, hFind, hRecorded, hId⟩

end Repository

end DocumentMapper
