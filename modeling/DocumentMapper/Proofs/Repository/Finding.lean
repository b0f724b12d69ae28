import DocumentMapper.Proofs.Repository.Existence
import DocumentMapper.Proofs.Repository.Forwarding
import DocumentMapper.Proofs.Repository.ReadYourWrites
import Mathlib.Algebra.Order.BigOperators.Group.List

/-
  Finding a list of documents.

  A list is found as its documents are, one after the other.
  Its gets are those of its first identifiers; as long as the
  resolver and the provider do not change their minds, they
  differ in the identifier only. Each document ends as it
  would have ended alone, up to the key of its transaction
  result; the first one that ends with a failure ends the
  list.

  Key definitions include:
    * `Descriptor.AgreeButKey`
    * `FindRun.Finds`, `FindRun.Misses`, `FindRun.Settles`
    * `FindRun.EndsAsAnswered`
    * `GetsInOrder`, `KeyedApart`
    * `FoundInOrder`

  Main statements include:
    * `FindRun.settles_iff`
    * `FindsAll.getsInOrder`
    * `FindsAll.keyedApart`
    * `Repository.finds_in_order`
-/

namespace DocumentMapper

variable {T : Type}
variable [EntityTypes T]
variable {K : Hooks T}
variable {t : T}

------------------------------------------------------------
-- Entities That Agree
------------------------------------------------------------

section Agreement

variable {S : Schema}
variable {d : Descriptor S}

/- All members but the one of the key have equal values. -/
def Descriptor.AgreeButKey
    (d : Descriptor S)
    (a b : Entity S) : Prop :=
  ∀ i,
    (∀ k, d.key? = some k → k.member.index ≠ i) →
      a.value i = b.value i

/- Keeping a result changes the member of the key at most. -/
theorem Writeback.kept_agreeButKey
    (e : Entity S)
    (registry other : ResultRegistry)
    (result? : Option GetResult) :
    d.AgreeButKey (kept d e registry result?)
      (kept d e other result?) := by
  intro i hOff
  cases result? with
  | none => rfl
  | some result =>
      show (d.withKey e _).value i = (d.withKey e _).value i
      rw [Descriptor.value_withKey_of_ne hOff,
        Descriptor.value_withKey_of_ne hOff]

end Agreement

namespace Repository

variable {repo : Repository T}
variable {scope : CallScope}
variable {options : ReadOptions}
variable {before after : ResultRegistry}
variable {transcript : Transcript T K}
variable {d : Descriptor (EntityTypes.schema t)}

------------------------------------------------------------
-- Answers
------------------------------------------------------------

/- A record that nobody stopped is the answer. -/
theorem Submission.eq_ok_of_records
    {request : Request}
    {attempt? : Option Attempt}
    {result : Result StoreRecord}
    {record : StoreRecord}
    (h : Submission repo request attempt? transcript result)
    (hUnstopped : Unstopped transcript)
    (hRecords : records transcript = [record]) :
    result = .ok record := by
  cases h with
  | stopped => cases hRecords
  | unconnected hConnects => cases hRecords
  | answered hConnects reply stop =>
      cases hUnstopped stop (by simp)
      cases reply with
      | ok given =>
          cases hRecords
          rfl
      | failed e => cases hRecords
      | threw what => cases hRecords

/-
  The answer says that there is no document only if the
  executor says so, and nobody stopped it.
-/
theorem Submission.of_missing
    {request : Request}
    {attempt? : Option Attempt}
    {told : Error}
    (h :
      Submission repo request attempt? transcript
        (.error told))
    (hMissing : told.isStorageFault .documentNotFound = true) :
    Unstopped transcript ∧
      ∃ reply cause,
        ⟨.submit attempt? (request.shownTo attempt?), reply⟩ ∈
            transcript ∧
          reply.cause? = some cause ∧ cause.SaysMissing := by
  generalize hTold : Except.error told = result at h
  cases h with
  | stopped =>
      cases hTold
      cases hMissing
  | unconnected hConnects =>
      cases hTold
      cases hMissing
  | answered hConnects reply stop =>
      cases stop with
      | true =>
          cases hTold
          cases hMissing
      | false =>
          have hUnstopped :
              Unstopped (T := T) (K := K)
                [⟨.stopRequested, false⟩,
                  ⟨.submit attempt? (request.shownTo attempt?),
                    reply⟩,
                  ⟨.stopRequested, false⟩] := by
            rw [unstopped_iff]
            simp [stopAnswers, stopAnswer?]
          refine ⟨hUnstopped, reply, ?_⟩
          cases hCause : reply.cause? with
          | none =>
              cases reply with
              | ok record => cases hTold
              | failed e => cases hCause
              | threw what => cases hCause
          | some cause =>
              cases hTold.trans (answered_of_cause hCause)
              exact
                ⟨cause, by simp, rfl,
                  (Error.ofExecution_documentNotFound_iff
                    _ _ _).mp hMissing⟩

/- A get shows no earlier result to anybody. -/
theorem Target.shownTo_findPlan
    (target : Target repo t scope)
    (id : Text)
    (options : ReadOptions)
    (attempt? : Option Attempt) :
    (target.findPlan id options).request.shownTo attempt? =
      (target.findPlan id options).request := by
  unfold Request.shownTo
  split
  · rfl
  · rfl

------------------------------------------------------------
-- One Document
------------------------------------------------------------

/-
  Finding fails without a get, or what it was asked for in
  preparation settles a target, and the get is the end of it.
-/
theorem ends_find_cases
    {id : Text}
    {outcome : Except Failure (Option (EntityOf t))}
    (h :
      (repo.find t id options scope).Ends
        before transcript outcome after) :
    (submissions transcript = [] ∧
        ∃ failure, outcome = .error failure) ∨
      ∃ (target : Target repo t scope)
        (opening submission : Transcript T K)
        (answer : Result StoreRecord),
        transcript = opening ++ submission ∧
          OnlyPreparation opening ∧
          target.SettledIn opening ∧
          Submission repo (target.findPlan id options).request
            target.attempt? submission answer ∧
          (repo.finishFind t (target.findPlan id options)
              answer).Ends
            before ([] : Transcript T K) outcome after := by
  rw [find_eq] at h
  rcases (planFind_prepares _ _ _ _ _).ends_bind h with
    ⟨failure, -, hOnly, hError, -⟩ |
      ⟨opening, plan, rest, rfl, hOnly, hPlan, hRest⟩
  · exact .inl ⟨hOnly.submissions_eq_nil, failure, hError⟩
  rcases ends_planFind hPlan with ⟨target, hSettled, rfl⟩
  rcases ends_answer_bind hRest with
    ⟨submission, closing, answer, rfl, hSubmission, hClosing⟩
  have hNil : closing = [] := by
    cases answer with
    | ok record => exact (ends_finishFind_cases hClosing).1
    | error cause => exact (ends_finishFind_error hClosing).1
  subst hNil
  rw [List.append_nil]
  exact
    .inr ⟨target, opening, submission, answer, rfl, hOnly,
      hSettled, hSubmission, hClosing⟩

namespace FindRun

variable {run : FindRun K repo t options scope}
variable {record : StoreRecord}
variable {decoded : EntityOf t}

/-
  The executor answers with a record, nobody stops it, and
  the content of the record is decoded.
-/
structure Finds
    (run : FindRun K repo t options scope)
    (record : StoreRecord)
    (decoded : EntityOf t) : Prop where
  unstopped : Unstopped run.transcript
  records_eq : records run.transcript = [record]
  decodes :
    ∃ payload,
      record.content? = some payload ∧
        repo.codec.decode t run.id payload record.cas =
          .ok decoded

/-
  The executor answers that there is no document, and nobody
  stops it.
-/
structure Misses
    (run : FindRun K repo t options scope) : Prop where
  unstopped : Unstopped run.transcript
  refused :
    ∃ attempt? request reply cause,
      ⟨.submit attempt? request, reply⟩ ∈ run.transcript ∧
        reply.cause? = some cause ∧ cause.SaysMissing

/- The get finds a document that is decoded, or there is none. -/
def Settles
    (run : FindRun K repo t options scope) : Prop :=
  (∃ record decoded, run.Finds record decoded) ∨ run.Misses

/- A record answers a get. -/
theorem Finds.submissions_ne_nil
    (h : run.Finds record decoded) :
    submissions run.transcript ≠ [] := by
  intro hNone
  have hRecords := h.records_eq
  rw [records_eq_nil hNone] at hRecords
  cases hRecords

/- A record that is decoded is the entity of the run, with its key. -/
theorem Finds.outcome_eq
    (h : run.Finds record decoded)
    (hDescriptor : repo.mapping.descriptor t = .ok d) :
    run.outcome =
      .ok
        (some
          (Writeback.kept d decoded run.before
            record.result?)) := by
  rcases ends_find_cases run.ends with
    ⟨hNone, -⟩ |
      ⟨target, opening, submission, answer, hSplit, hOnly, -,
        hSubmission, hFinish⟩
  · exact absurd hNone h.submissions_ne_nil
  rcases h with ⟨hUnstopped, hRecords, payload, hContent, hDecode⟩
  rw [hSplit, hOnly.unstopped_append] at hUnstopped
  rw [hSplit, records_append,
    records_eq_nil hOnly.submissions_eq_nil,
    List.nil_append] at hRecords
  have hAnswer :=
    hSubmission.eq_ok_of_records hUnstopped hRecords
  subst hAnswer
  have hPlan :
      repo.codec.decode t
          (target.findPlan run.id options).request.id payload
          record.cas =
        .ok decoded :=
    hDecode
  rw [outcome_of_finishFind hDescriptor hContent hFinish, hPlan]

/- Of a document that is missing nothing is found. -/
theorem Misses.outcome_eq
    (h : run.Misses) :
    run.outcome = .ok none := by
  rcases h with
    ⟨hUnstopped, attempt?, request, reply, cause, hMem, hCause,
      hSays⟩
  have hSingle : (Operation.find t run.id options).IsSingle :=
    trivial
  have hEnds := run.ends
  rcases List.append_of_mem hMem with ⟨front, rest, hSplit⟩
  rw [hSplit] at hUnstopped hEnds
  exact
    (executor_relayed hSingle hCause hUnstopped hEnds).2.2.1
      none rfl hSays

/- A run that does not fail was answered to the end. -/
theorem settles_of_ok
    {found : Option (EntityOf t)}
    (hFound : run.outcome = .ok found) :
    run.Settles := by
  rcases ends_find_cases run.ends with
    ⟨-, failure, hFailed⟩ |
      ⟨target, opening, submission, answer, hSplit, hOnly, -,
        hSubmission, hFinish⟩
  · cases hFound.symm.trans hFailed
  have hUnstopped :
      Unstopped submission → Unstopped run.transcript := by
    rw [hSplit]
    exact hOnly.unstopped_append.mpr
  rw [hFound] at hFinish
  cases answer with
  | ok record =>
      rcases ends_finishFind_cases hFinish with
        ⟨-, ⟨-, error, hError⟩ |
          ⟨payload, own, decoded, hContent, -, hDecode, -, -⟩⟩
      · cases hError
      refine
        .inl ⟨record, decoded, hUnstopped ?_, ?_, payload,
          hContent, hDecode⟩
      · rw [hSubmission.of_ok, unstopped_iff]
        simp [stopAnswers, stopAnswer?]
      · rw [hSplit, records_append,
          records_eq_nil hOnly.submissions_eq_nil,
          hSubmission.records_of_ok]
        rfl
  | error told =>
      have hNone := (ends_finishFind_error hFinish).2.2
      split at hNone
      · rcases hSubmission.of_missing ‹_› with
          ⟨hQuiet, reply, cause, hMem, hCause, hSays⟩
        refine
          .inr ⟨hUnstopped hQuiet, _, _, reply, cause, ?_,
            hCause, hSays⟩
        rw [hSplit]
        exact List.mem_append_right _ hMem
      · cases hNone

/- The answers of a run decide whether it fails. -/
theorem settles_iff :
    run.Settles ↔ ∃ found, run.outcome = .ok found := by
  constructor
  · rintro (⟨record, decoded, hFinds⟩ | hMisses)
    · rcases ends_find_cases run.ends with
        ⟨hNone, -⟩ | ⟨target, -⟩
      · exact absurd hNone hFinds.submissions_ne_nil
      · exact ⟨_, hFinds.outcome_eq target.descriptor_eq⟩
    · exact ⟨none, hMisses.outcome_eq⟩
  · rintro ⟨found, hFound⟩
    exact settles_of_ok hFound

/- A run that settles has handed over its get. -/
theorem Settles.submissions_ne_nil
    (h : run.Settles) :
    submissions run.transcript ≠ [] := by
  rcases h with ⟨record, decoded, hFinds⟩ | hMisses
  · exact hFinds.submissions_ne_nil
  · rcases hMisses.refused with
      ⟨attempt?, request, reply, cause, hMem, -, -⟩
    exact
      List.ne_nil_of_mem
        (mem_submissions_iff.mpr ⟨reply, hMem⟩)

/- What a run has found, with the result that came with it. -/
def withResult
    (run : FindRun K repo t options scope) :
    List (EntityOf t × GetResult) :=
  run.found.zip (resultsOf run.transcript)

/-
  A run ends as its get was answered: with the one entity of
  the record or with none. Whoever else finds the document and
  is answered with the same record, gets the same entity, up
  to its key.
-/
structure EndsAsAnswered
    (run : FindRun K repo t options scope) : Prop where
  settles_iff :
    run.Settles ↔ ∃ found, run.outcome = .ok found
  finds :
    ∀ {d record decoded},
      repo.mapping.descriptor t = .ok d →
        run.Finds record decoded →
          ∃ e,
            e =
                Writeback.kept d decoded run.before
                  record.result? ∧
              run.outcome = .ok (some e) ∧
              run.withResult =
                record.result?.toList.map fun result =>
                  (e, result)
  misses : run.Misses → run.outcome = .ok none
  alike :
    ∀ {d e},
      repo.mapping.descriptor t = .ok d →
        run.outcome = .ok (some e) →
          ∀ other : FindRun K repo t options scope,
            other.id = run.id →
              Unstopped other.transcript →
                records other.transcript =
                    records run.transcript →
                  ∃ e',
                    other.outcome = .ok (some e') ∧
                      d.AgreeButKey e e'

/- With a record there is as much to keep as it has results. -/
theorem Finds.withResult_eq
    {e : EntityOf t}
    (h : run.Finds record decoded)
    (hFound : run.outcome = .ok (some e)) :
    run.withResult =
      record.result?.toList.map fun result => (e, result) := by
  unfold withResult found
  rw [hFound, resultsOf_of_records h.records_eq]
  cases record.result? with
  | none => rfl
  | some result => rfl

/- An entity that is found was decoded of a record. -/
theorem exists_finds
    {e : EntityOf t}
    (hFound : run.outcome = .ok (some e)) :
    ∃ record decoded, run.Finds record decoded := by
  rcases settles_of_ok hFound with hFinds | hMisses
  · exact hFinds
  · cases hFound.symm.trans hMisses.outcome_eq

/- The same record is found by another run for the document. -/
theorem Finds.of_records
    {other : FindRun K repo t options scope}
    (h : run.Finds record decoded)
    (hId : other.id = run.id)
    (hUnstopped : Unstopped other.transcript)
    (hRecords :
      records other.transcript = records run.transcript) :
    other.Finds record decoded where
  unstopped := hUnstopped
  records_eq := hRecords.trans h.records_eq
  decodes := by
    rw [hId]
    exact h.decodes

/- Every run ends as its get was answered. -/
theorem endsAsAnswered
    (run : FindRun K repo t options scope) :
    run.EndsAsAnswered where
  settles_iff := settles_iff
  finds hDescriptor hFinds :=
    ⟨_, rfl, hFinds.outcome_eq hDescriptor,
      hFinds.withResult_eq (hFinds.outcome_eq hDescriptor)⟩
  misses hMisses := hMisses.outcome_eq
  alike := by
    intro d e hDescriptor hFound other hId hUnstopped hRecords
    rcases exists_finds hFound with ⟨record, decoded, hFinds⟩
    have hOther := hFinds.of_records hId hUnstopped hRecords
    cases hFound.symm.trans (hFinds.outcome_eq hDescriptor)
    exact
      ⟨_, hOther.outcome_eq hDescriptor,
        Writeback.kept_agreeButKey _ _ _ _⟩

end FindRun

variable {ids : List Text}
variable {runs : List (FindRun K repo t options scope)}
variable {outcome : Except Failure (List (EntityOf t))}

------------------------------------------------------------
-- Gets in Their Order
------------------------------------------------------------

/- The get of a document in some attempt and collection. -/
def getIn
    (options : ReadOptions)
    (attempt? : Option Attempt)
    (collection : CollectionName)
    (id : Text) : Option Attempt × Request :=
  (attempt?,
    { kind := .get
      id, collection
      find := options })

/-
  The get of a document: it goes to the collection that the
  resolver answered with, in the active attempt.
-/
def IsGet
    (repo : Repository T)
    (t : T)
    (scope : CallScope)
    (options : ReadOptions)
    (transcript : Transcript T K)
    (id : Text)
    (get : Option Attempt × Request) : Prop :=
  ∃ (target : Target repo t scope) (opening : Transcript T K),
    opening ⊆ transcript ∧ target.SettledIn opening ∧
      get = getIn options target.attempt? target.resolved id

/- A run hands over nothing, or one get. -/
theorem FindRun.submissions_cases
    (run : FindRun K repo t options scope) :
    submissions run.transcript = [] ∨
      ∃ get,
        submissions run.transcript = [get] ∧
          repo.IsGet t scope options run.transcript run.id
            get := by
  rcases ends_find_cases run.ends with
    ⟨hNone, -⟩ |
      ⟨target, opening, submission, answer, hSplit, hOnly,
        hSettled, hSubmission, -⟩
  · exact .inl hNone
  have hSubmissions :
      submissions run.transcript = submissions submission := by
    rw [hSplit, submissions_append, hOnly.submissions_eq_nil,
      List.nil_append]
  rw [hSubmissions]
  rcases hSubmission.submissions_eq with hNone | ⟨hOne, -⟩
  · exact .inl hNone
  rw [target.shownTo_findPlan] at hOne
  refine .inr ⟨_, hOne, target, opening, ?_, hSettled, rfl⟩
  rw [hSplit]
  exact List.subset_append_left _ _

/- A get shows that the resolver and the provider were asked. -/
theorem IsGet.mono
    {longer : Transcript T K}
    {id : Text}
    {get : Option Attempt × Request}
    (h : repo.IsGet t scope options transcript id get)
    (hIn : transcript ⊆ longer) :
    repo.IsGet t scope options longer id get := by
  rcases h with ⟨target, opening, hOpening, hSettled, hGet⟩
  exact
    ⟨target, opening, List.Subset.trans hOpening hIn, hSettled,
      hGet⟩

/- In a steady world all gets have one attempt and collection. -/
theorem IsGet.eq_getIn
    {id other : Text}
    {first get : Option Attempt × Request}
    (h : repo.IsGet t scope options transcript id get)
    (hFirst : repo.IsGet t scope options transcript other first)
    (hSteady : Steady transcript) :
    getIn options first.1 first.2.collection id = get := by
  rcases hFirst with ⟨target, opening, hIn, hSettled, rfl⟩
  rcases h with ⟨own, asked, hOwn, hOwnSettled, rfl⟩
  rcases hSettled.agree hSteady hIn hOwn hOwnSettled with
    ⟨hResolved, hAttempt⟩
  show getIn options target.attempt? target.resolved id = _
  rw [hAttempt, hResolved]

/- So they differ in the identifier only. -/
theorem gets_eq_map_of_steady
    {gets : List (Option Attempt × Request)}
    (hSteady : Steady transcript)
    (h :
      List.Forall₂ (repo.IsGet t scope options transcript) ids
        gets) :
    ∃ attempt? collection,
      gets = ids.map (getIn options attempt? collection) := by
  cases h with
  | nil => exact ⟨none, ⟨[], []⟩, rfl⟩
  | @cons id get ids gets hGet hGets =>
      refine ⟨get.1, get.2.collection, ?_⟩
      symm
      rw [← List.forall₂_eq_eq_eq, List.forall₂_map_left_iff]
      apply (List.Forall₂.cons hGet hGets).imp
      intro own other hOther
      exact hOther.eq_getIn hGet hSteady

/-
  The gets of runs are those of the first identifiers, in
  their order: one for every run that settles. In a steady
  world they differ in the identifier only.
-/
structure GetsInOrder
    (ids : List Text)
    (runs : List (FindRun K repo t options scope))
    (transcript : Transcript T K) : Prop where
  ordered :
    List.Forall₂ (repo.IsGet t scope options transcript)
      (ids.take (submissions transcript).length)
      (submissions transcript)
  uniform :
    Steady transcript →
      ∃ attempt? collection,
        submissions transcript =
          (ids.take (submissions transcript).length).map
            (getIn options attempt? collection)
  bounded : (submissions transcript).length ≤ runs.length
  complete :
    (∀ run ∈ runs, run.Settles) →
      (submissions transcript).length = runs.length

/- Runs one after the other hand over gets in their order. -/
theorem FindsAll.ordered_gets
    (h : FindsAll before ids runs outcome after)
    (hIn : ∀ run ∈ runs, run.transcript ⊆ transcript) :
    List.Forall₂ (repo.IsGet t scope options transcript)
      (ids.take
        (runs.flatMap fun run =>
          submissions run.transcript).length)
      (runs.flatMap fun run => submissions run.transcript) := by
  induction h with
  | nil registry => exact .nil
  | failed run rest hFailed =>
      rw [List.flatMap_singleton]
      rcases run.submissions_cases with hNone | ⟨get, hOne, hGet⟩
      · rw [hNone]
        exact .nil
      · rw [hOne]
        exact .cons (hGet.mono (hIn run List.mem_cons_self)) .nil
  | @found run found rest runs outcome after hFound hRest ih =>
      rw [List.forall_mem_cons] at hIn
      have hSettles := FindRun.settles_of_ok hFound
      rcases run.submissions_cases with hNone | ⟨get, hOne, hGet⟩
      · exact absurd hNone hSettles.submissions_ne_nil
      · rw [List.flatMap_cons, hOne, List.singleton_append,
          List.length_cons, List.take_succ_cons]
        exact .cons (hGet.mono hIn.1) (ih hIn.2)

/- No run hands over more than one get. -/
theorem FindRun.length_submissions_le
    (run : FindRun K repo t options scope) :
    (submissions run.transcript).length ≤ 1 := by
  rcases run.submissions_cases with hNone | ⟨get, hOne, -⟩
  · rw [hNone]
    exact Nat.zero_le 1
  · rw [hOne]
    exact Nat.le_refl 1

/- A run that settles hands over exactly one. -/
theorem FindRun.Settles.length_submissions
    {run : FindRun K repo t options scope}
    (h : run.Settles) :
    (submissions run.transcript).length = 1 :=
  Nat.le_antisymm run.length_submissions_le
    (List.length_pos_iff.mpr h.submissions_ne_nil)

theorem FindsAll.getsInOrder
    (h : FindsAll before ids runs outcome after)
    (hSplit : transcript = (runs.map (·.transcript)).flatten) :
    GetsInOrder ids runs transcript := by
  have hGets :
      submissions transcript =
        runs.flatMap fun run => submissions run.transcript := by
    rw [hSplit, submissions_flatten, List.flatMap_map]
  have hOrdered :
      List.Forall₂ (repo.IsGet t scope options transcript)
        (ids.take (submissions transcript).length)
        (submissions transcript) := by
    rw [hGets]
    apply h.ordered_gets
    intro run hMem x hAsked
    rw [hSplit]
    exact
      List.mem_flatten.mpr
        ⟨_, List.mem_map_of_mem hMem, hAsked⟩
  refine
    ⟨hOrdered, fun hSteady => gets_eq_map_of_steady hSteady hOrdered,
      ?_, ?_⟩
  · rw [hGets, List.length_flatMap]
    have hLe :=
      List.sum_le_card_nsmul
        (runs.map fun run => (submissions run.transcript).length)
        1
        (List.forall_mem_map.mpr
          fun run _ => run.length_submissions_le)
    simpa using hLe
  · intro hSettle
    rw [hGets, List.length_flatMap]
    have hEq :=
      List.sum_eq_card_nsmul
        (runs.map fun run => (submissions run.transcript).length)
        1
        (List.forall_mem_map.mpr
          fun run hMem => (hSettle run hMem).length_submissions)
    simpa using hEq

------------------------------------------------------------
-- Keys of Their Own
------------------------------------------------------------

/-
  Each entity has a key of its own, which was not issued in
  the past and under which its result is kept.
-/
structure KeyedApart
    {S : Schema}
    (past : List RegistryCall)
    (d : Descriptor S)
    (pairs : List (Entity S × GetResult))
    (registry : ResultRegistry)
    (keys : List Int64) : Prop where
  distinct : keys.Nodup
  pos : ∀ key ∈ keys, 0 < key
  fresh :
    ∀ key ∈ keys,
      key ∉ Association.keys (ResultRegistry.issues {} past)
  keyed :
    List.Forall₂
      (fun pair key =>
        d.keyOf pair.1 = some key ∧
          registry.find? key = some pair.2)
      pairs keys

namespace KeyedApart

variable {S : Schema}
variable {own : Descriptor S}
variable {past calls : List RegistryCall}
variable {pairs : List (Entity S × GetResult)}
variable {registry : ResultRegistry}
variable {keys : List Int64}

/- What is new later on, is new. -/
theorem of_append
    (h : KeyedApart (past ++ calls) own pairs registry keys) :
    KeyedApart past own pairs registry keys where
  distinct := h.distinct
  pos := h.pos
  fresh key hMem hIssued := by
    apply h.fresh key hMem
    rw [ResultRegistry.issues_append]
    unfold Association.keys
    rw [List.map_append]
    exact List.mem_append_left _ hIssued
  keyed := h.keyed

/- The key that is issued first is none of the later ones. -/
theorem cons
    {e : Entity S}
    {result : GetResult}
    {key : Int64}
    {between : ResultRegistry}
    (hKept : KeptUnder past own e result between key)
    (hKey : key = (ResultRegistry.callAll {} past).nextKey)
    (hFind : registry.find? key = some result)
    (h :
      KeyedApart (past ++ [.save (some result)]) own pairs
        registry keys) :
    KeyedApart past own ((e, result) :: pairs) registry
      (key :: keys) where
  distinct := by
    refine List.nodup_cons.mpr ⟨?_, h.distinct⟩
    intro hMem
    apply h.fresh key hMem
    rw [ResultRegistry.issues_append, ResultRegistry.issues_save,
      hKey]
    unfold Association.keys
    rw [List.map_append]
    exact List.mem_append_right _ List.mem_cons_self
  pos := List.forall_mem_cons.mpr ⟨hKept.pos, h.pos⟩
  fresh :=
    List.forall_mem_cons.mpr ⟨hKept.fresh, h.of_append.fresh⟩
  keyed := .cons ⟨hKept.keyOf_eq, hFind⟩ h.keyed

end KeyedApart

/- A run is given its key before the runs after it. -/
theorem FindRun.keyedApart_append
    {past : List RegistryCall}
    {run : FindRun K repo t options scope}
    {pairs : List (EntityOf t × GetResult)}
    {later : List GetResult}
    {keys : List Int64}
    (hWide : d.HasWideKey)
    (hDescriptor : repo.mapping.descriptor t = .ok d)
    (hBefore : run.before = .callAll {} past)
    (hFew :
      (ResultRegistry.issues {} past).length + run.kept.length <
        2 ^ 63)
    (hSettles : run.Settles)
    (h :
      KeyedApart
        (past ++ run.kept.map fun result => .save (some result))
        d pairs (run.after.keepAll later) keys) :
    ∃ keys,
      KeyedApart past d (run.withResult ++ pairs)
        (run.after.keepAll later) keys := by
  rcases hSettles with ⟨record, decoded, hFinds⟩ | hMisses
  · have hFound := hFinds.outcome_eq hDescriptor
    have hKept := kept_of_ok hFound
    have hPair := hFinds.withResult_eq hFound
    rw [resultsOf_of_records hFinds.records_eq] at hKept
    rw [hPair]
    rw [hKept] at h hFew
    cases hResult : record.result? with
    | none => exact ⟨keys, h.of_append⟩
    | some result =>
        have hAfter := run.after_eq
        rw [hResult] at h hFew hKept
        rw [hKept] at hAfter
        have hEntity :
            d.withKey decoded run.before.nextKey =
              Writeback.kept d decoded run.before (some result) :=
          rfl
        rcases keptUnder_nextKey (hWide.hasRoom _) hBefore rfl
            hFew hEntity hAfter with
          ⟨hUnder, hFind⟩
        have hStays :
            (run.after.keepAll later).find? run.before.nextKey =
              some result := by
          refine ResultRegistry.find?_callAll hFind ?_
          exact List.forall_mem_map.mpr fun _ _ => trivial
        rw [hBefore] at hUnder hStays ⊢
        exact ⟨_, .cons hUnder rfl hStays h⟩
  · have hNone : run.withResult = [] := by
      unfold withResult found
      rw [hMisses.outcome_eq]
      rfl
    rw [hNone]
    exact ⟨keys, h.of_append⟩

/- Runs one after the other are given keys of their own. -/
theorem FindsAll.keyedApart
    {past : List RegistryCall}
    {entities : List (EntityOf t)}
    (hWide : d.HasWideKey)
    (hDescriptor : repo.mapping.descriptor t = .ok d)
    (hBefore : before = .callAll {} past)
    (hFew :
      (ResultRegistry.issues {} past).length +
          (runs.flatMap (·.kept)).length <
        2 ^ 63)
    (h : FindsAll before ids runs (.ok entities) after) :
    ∃ keys,
      KeyedApart past d (runs.flatMap (·.withResult)) after
        keys := by
  generalize hOutcome : Except.ok entities = outcome at h
  induction h generalizing past entities with
  | nil registry => exact ⟨[], .nil, nofun, nofun, .nil⟩
  | failed run rest hFailed => cases hOutcome
  | @found run found rest runs outcome after hFound hRest ih =>
      cases outcome with
      | error failure => cases hOutcome
      | ok others =>
          rw [List.flatMap_cons, List.length_append] at hFew
          rw [List.flatMap_cons]
          -- what the run keeps is the past of those after it
          have hNext :
              run.after =
                .callAll {}
                  (past ++
                    run.kept.map fun result =>
                      .save (some result)) := by
            rw [run.after_eq, hBefore,
              ResultRegistry.callAll_append]
            rfl
          have hFewRest :
              (ResultRegistry.issues {}
                    (past ++
                      run.kept.map fun result =>
                        .save (some result))).length +
                  (runs.flatMap (·.kept)).length <
                2 ^ 63 := by
            rw [ResultRegistry.issues_append, List.length_append,
              ResultRegistry.length_issues_saves]
            omega
          rcases ih hNext hFewRest rfl with ⟨keys, hKeys⟩
          rw [hRest.after_eq] at hKeys ⊢
          exact
            run.keyedApart_append hWide hDescriptor hBefore
              (by omega) (FindRun.settles_of_ok hFound) hKeys

------------------------------------------------------------
-- Finding in Order
------------------------------------------------------------

/- Runs one after the other are the finding of their list. -/
theorem FindsAll.ends
    (h : FindsAll before ids runs outcome after) :
    (repo.findAll t options scope ids).Ends before
      (runs.map (·.transcript)).flatten outcome after := by
  induction h with
  | nil registry => exact Task.ends_pure_iff.mpr ⟨rfl, rfl, rfl⟩
  | @failed run rest failure hFailed =>
      have hFind := run.ends
      rw [hFailed] at hFind
      rw [List.map_singleton, List.flatten_singleton]
      exact Task.ends_bind_iff.mpr (.inl ⟨failure, hFind, rfl⟩)
  | @found run found rest runs outcome after hFound hRest ih =>
      have hFind := run.ends
      rw [hFound] at hFind
      rw [List.map_cons, List.flatten_cons]
      refine
        Task.ends_bind_iff.mpr
          (.inr ⟨_, found, run.after, _, rfl, hFind, ?_⟩)
      cases outcome with
      | error failure =>
          exact Task.ends_bind_iff.mpr (.inl ⟨failure, ih, rfl⟩)
      | ok others =>
          refine
            Task.ends_bind_iff.mpr
              (.inr
                ⟨_, others, after, [], (List.append_nil _).symm,
                  ih, ?_⟩)
          exact Task.ends_pure_iff.mpr ⟨rfl, rfl, rfl⟩

/- A list is found if its documents are, and all of them settle. -/
theorem FindsAll.ok_iff
    (h : FindsAll before ids runs outcome after) :
    (∃ entities, outcome = .ok entities) ↔
      runs.map (·.id) = ids ∧ ∀ run ∈ runs, run.Settles := by
  constructor
  · rintro ⟨entities, rfl⟩
    refine ⟨h.of_ok.1, ?_⟩
    intro run hMem
    cases hOutcome : run.outcome with
    | ok found => exact FindRun.settles_of_ok hOutcome
    | error failure =>
        rcases List.append_of_mem hMem with ⟨done, rest, rfl⟩
        cases (h.of_failed hOutcome).2.1
  · rintro ⟨-, hSettle⟩
    cases outcome with
    | ok entities => exact ⟨entities, rfl⟩
    | error failure =>
        rcases h.of_error with ⟨done, last, rfl, hFailed, -⟩
        rcases FindRun.settles_iff.mp
            (hSettle last (List.mem_append_right _ (.head _))) with
          ⟨found, hFound⟩
        cases hFound.symm.trans hFailed

/- The first run that does not settle ends the list. -/
theorem FindsAll.exists_first
    {failure : Failure}
    (h : FindsAll before ids runs (.error failure) after) :
    ∃ done last rest,
      runs = done ++ [last] ∧ ids = runs.map (·.id) ++ rest ∧
        (∀ run ∈ done, run.Settles) ∧ ¬ last.Settles ∧
        last.outcome = .error failure := by
  rcases h.ids_prefix with ⟨rest, hIds⟩
  rcases h.of_error with ⟨done, last, rfl, hFailed, hDone⟩
  refine ⟨done, last, rest, rfl, hIds.symm, ?_, ?_, hFailed⟩
  · intro run hMem
    exact FindRun.settles_iff.mpr (hDone run hMem)
  · intro hSettles
    rcases FindRun.settles_iff.mp hSettles with ⟨found, hFound⟩
    cases hFound.symm.trans hFailed

/-
  The gets are those of the first identifiers, and each
  document ends as its get was answered. The list is found
  exactly if all documents are found and decoded or are
  missing; then it consists of what they have found, and
  transaction results have keys of their own, if keys have 64
  bits. Otherwise it fails with the first document that does,
  and nothing is asked for any later one.
-/
structure FoundInOrder
    (before : ResultRegistry)
    (ids : List Text)
    (runs : List (FindRun K repo t options scope))
    (transcript : Transcript T K)
    (outcome : Except Failure (List (EntityOf t)))
    (after : ResultRegistry) : Prop where
  gets : GetsInOrder ids runs transcript
  answered : ∀ run ∈ runs, run.EndsAsAnswered
  ok_iff :
    (∃ entities, outcome = .ok entities) ↔
      runs.map (·.id) = ids ∧ ∀ run ∈ runs, run.Settles
  entities_eq :
    ∀ {entities},
      outcome = .ok entities →
        entities = runs.flatMap (·.found)
  keyed :
    ∀ {entities d past},
      outcome = .ok entities →
        repo.mapping.descriptor t = .ok d →
          d.HasWideKey →
            before = .callAll {} past →
              (ResultRegistry.issues {} past).length +
                    (resultsOf transcript).length <
                  2 ^ 63 →
                ∃ keys,
                  KeyedApart past d (runs.flatMap (·.withResult))
                    after keys
  failed :
    ∀ {failure},
      outcome = .error failure →
        ∃ done last rest,
          runs = done ++ [last] ∧
            ids = runs.map (·.id) ++ rest ∧
            (∀ run ∈ done, run.Settles) ∧ ¬ last.Settles ∧
            last.outcome = .error failure

/-
  Finding a list is the same as finding its documents one
  after the other, each in the registry that the one before it
  has left, until one fails.
-/
theorem finds_in_order :
    ((repo.perform scope (.findAll t ids options)).Ends
          before transcript outcome after ↔
        ∃ runs : List (FindRun K repo t options scope),
          transcript = (runs.map (·.transcript)).flatten ∧
            FindsAll before ids runs outcome after) ∧
      ∀ runs : List (FindRun K repo t options scope),
        transcript = (runs.map (·.transcript)).flatten →
          FindsAll before ids runs outcome after →
            FoundInOrder before ids runs transcript outcome
              after := by
  refine ⟨⟨ends_findAll_findsAll, ?_⟩, ?_⟩
  · rintro ⟨runs, rfl, hRuns⟩
    exact hRuns.ends
  intro runs hSplit hRuns
  exact
    { gets := hRuns.getsInOrder hSplit
      answered := fun run _ => run.endsAsAnswered
      ok_iff := hRuns.ok_iff
      entities_eq := by
        intro entities hOutcome
        subst hOutcome
        exact hRuns.of_ok.2
      keyed := by
        intro entities d past hOutcome hDescriptor hWide hBefore
          hFew
        subst hOutcome
        rw [hSplit, ← hRuns.kept_of_ok] at hFew
        exact hRuns.keyedApart hWide hDescriptor hBefore hFew
      failed := by
        intro failure hOutcome
        subst hOutcome
        exact hRuns.exists_first }

/-
  In an attempt Ann is found twice, with another key each
  time, and nobody in between; the document after hers is not
  readable, so a list with it fails there.
-/
theorem finds_in_order_of_ann :
    let find (ids : List Text) : Task _ (scriptedHooks _) _ :=
      Sample.brokenScene.repository.perform
        (Sample.inAttempt "T1")
        (.findAll Sample.EntityType.person ids {})
    let twice : List Text :=
      [Text.lit "p1", Text.lit "p9", Text.lit "p1"]
    let broken : List Text :=
      [Text.lit "p1", Text.lit "p2", Text.lit "p1"]
    (∃ (runs :
          List
            (FindRun (scriptedHooks Sample.EntityType)
              Sample.brokenScene.repository .person {}
              (Sample.inAttempt "T1")))
        (keys : List Int64) (attempt? : Option Attempt)
        (collection : CollectionName),
      runs.map (·.id) = twice ∧
        (Sample.brokenScene.work (find twice)).1 =
          .ok (runs.flatMap (·.found)) ∧
        (runs.flatMap (·.found)).length = 2 ∧
        KeyedApart []
          (Sample.Declaration.usual .person).descriptor
          (runs.flatMap (·.withResult))
          (Sample.brokenScene.work (find twice)).2.registry
          keys ∧
        submissions
            (Sample.brokenScene.transcriptOf (find twice)) =
          twice.map (getIn {} attempt? collection)) ∧
      ∃ (failure : Failure)
        (last :
          FindRun (scriptedHooks Sample.EntityType)
            Sample.brokenScene.repository .person {}
            (Sample.inAttempt "T1")),
        (Sample.brokenScene.work (find broken)).1 =
            .error failure ∧
          ¬ last.Settles ∧ last.outcome = .error failure ∧
          (submissions
              (Sample.brokenScene.transcriptOf
                (find broken))).map
              (·.2.id) =
            broken.take 2 := by
  intro find twice broken
  have hDescriptor :
      Sample.brokenScene.repository.mapping.descriptor
          Sample.EntityType.person =
        .ok (Sample.Declaration.usual .person).descriptor :=
    rfl
  have hWide :
      (Sample.Declaration.usual .person).descriptor.HasWideKey :=
    ⟨_, rfl, .inr (.inr rfl)⟩
  constructor
  · have hWorks :
        (Sample.brokenScene.work
            (find twice)).1.toOption.map List.length =
          some 2 := by
      decide +kernel
    obtain ⟨entities, hFound, hTwo⟩ :
        ∃ entities,
          (Sample.brokenScene.work (find twice)).1 =
              .ok entities ∧
            entities.length = 2 := by
      cases hFound : (Sample.brokenScene.work (find twice)).1 with
      | error failure =>
          rw [hFound] at hWorks
          cases hWorks
      | ok entities =>
          rw [hFound] at hWorks
          exact ⟨entities, rfl, Option.some.inj hWorks⟩
    rcases finds_in_order.1.mp
        (Session.ends_work Sample.brokenScene (find twice)) with
      ⟨runs, hSplit, hRuns⟩
    have hOrder := finds_in_order.2 runs hSplit hRuns
    rcases hOrder.ok_iff.mp ⟨entities, hFound⟩ with
      ⟨hIds, hSettle⟩
    have hFew :
        (ResultRegistry.issues {} []).length +
            (resultsOf
              (Sample.brokenScene.transcriptOf
                (find twice))).length <
          2 ^ 63 := by
      decide +kernel
    have hBefore :
        Sample.brokenScene.registry = .callAll {} [] :=
      rfl
    rcases hOrder.keyed hFound hDescriptor hWide hBefore
        hFew with
      ⟨keys, hKeyed⟩
    have hSteady :
        Steady
          (Sample.brokenScene.transcriptOf (find twice)) :=
      Session.steady_of_answers
        (Session.work_spec ⟨rfl, rfl, rfl, rfl⟩
          (find twice)).2.1
    rcases hOrder.gets.uniform hSteady with
      ⟨attempt?, collection, hUniform⟩
    have hThree : runs.length = 3 := by
      have hLength := congrArg List.length hIds
      rwa [List.length_map] at hLength
    rw [hOrder.gets.complete hSettle, hThree] at hUniform
    obtain rfl := hOrder.entities_eq hFound
    exact
      ⟨runs, keys, attempt?, collection, hIds, hFound, hTwo,
        hKeyed, hUniform⟩
  · obtain ⟨failure, hFailed⟩ :
        ∃ failure,
          (Sample.brokenScene.work (find broken)).1 =
            .error failure :=
      ⟨_, rfl⟩
    rcases finds_in_order.1.mp
        (Session.ends_work Sample.brokenScene
          (find broken)) with
      ⟨runs, hSplit, hRuns⟩
    rcases (finds_in_order.2 runs hSplit hRuns).failed
        hFailed with
      ⟨done, last, rest, -, -, -, hUnsettled, hLast⟩
    refine ⟨failure, last, hFailed, hUnsettled, hLast, ?_⟩
    decide +kernel

end Repository

end DocumentMapper
