import DocumentMapper.Proofs.Entity.KeyRange
import DocumentMapper.Proofs.Repository.Chronicle
import DocumentMapper.Proofs.Repository.Handover
import DocumentMapper.Proofs.Repository.LostUpdate

/-
  Reading, modifying and writing inside an attempt.

  An entity that is returned with a transaction result gets
  the key under which the result is kept. Nobody else is ever
  given this key. Until the result is dropped, whoever writes
  back or removes an entity with this key in an attempt shows
  the executor this result.

  Key definitions include:
    * `Descriptor.KeepsKeys`, `Descriptor.HasWideKey`
    * `Operation.mayKeep`
    * `Repository.Shows`
    * `KeptUnder`, `Forwards`

  Main statements include:
    * `Repository.returned_keeps`
    * `Repository.FindsAll.split`
    * `Repository.shown_cases`
    * `Repository.results_forwarded`
-/

namespace DocumentMapper

variable {T : Type}
variable [EntityTypes T]
variable {K : Hooks T}

------------------------------------------------------------
-- Keys of Entities
------------------------------------------------------------

namespace Descriptor

variable {S : Schema}
variable {d : Descriptor S}

/- The key has a member that is wide enough for all keys. -/
def KeepsKeys
    (d : Descriptor S) : Prop :=
  ∃ b, d.key? = some b ∧
    (b.type = .int64 ∨ b.type = .optionalInt64)

/- The key has a member of 64 bits, with or without a sign. -/
def HasWideKey
    (d : Descriptor S) : Prop :=
  ∃ b, d.key? = some b ∧
    (b.type = .int64 ∨ b.type = .uint64 ∨
      b.type = .optionalInt64)

theorem KeepsKeys.hasWideKey
    (h : d.KeepsKeys) :
    d.HasWideKey := by
  rcases h with ⟨b, hKey, hSigned | hOptional⟩
  · exact ⟨b, hKey, .inl hSigned⟩
  · exact ⟨b, hKey, .inr (.inr hOptional)⟩

/- Such a member has room for all keys. -/
theorem HasWideKey.hasRoom
    (h : d.HasWideKey)
    (key : Int64) :
    d.HasRoom key := by
  rcases h with ⟨b, hKey, hType⟩
  refine ⟨b, hKey, ?_⟩
  have hMost : b.type.greatest = .maxValue := by
    rcases hType with hSigned | hUnsigned | hOptional
    · rw [hSigned]
      rfl
    · rw [hUnsigned]
      rfl
    · rw [hOptional]
      rfl
  rw [hMost]
  exact key.le_maxValue

end Descriptor

------------------------------------------------------------
-- Results of Returned Entities
------------------------------------------------------------

namespace Repository

variable {repo : Repository T}
variable {scope : CallScope}
variable {before after : ResultRegistry}
variable {transcript : Transcript T K}
variable {t : T}
variable {d : Descriptor (EntityTypes.schema t)}

/-
  An entity that one operation returns came with one record,
  and it has the key of the result of this record.
-/
theorem returned_keeps
    {op : Operation T}
    {value : op.Outcome}
    {e : EntityOf t}
    (hSingle : op.IsSingle)
    (hReturned : Returned op value t e)
    (hDescriptor : repo.mapping.descriptor t = .ok d)
    (h :
      (repo.perform scope op).Ends
        before transcript (.ok value) after) :
    ∃ record bare,
      records transcript = [record] ∧
        e = Writeback.kept d bare before record.result? ∧
        after = before.keepAll record.result?.toList := by
  cases hReturned with
  | @write intent t e saved =>
      rcases ends_write_ok h with
        ⟨w, submission, closing, record, rfl, hSubmission,
          hClosing⟩
      have hHooks := finishWrite_hooked _ _ _ _ _ _ _ _ hClosing
      have hOpening : submissions w.opening = [] :=
        w.settled.submissions_eq
      have hRecords :
          records (w.opening ++ submission ++ closing) =
            [record] := by
        rw [records_around hOpening hHooks.submissions_eq_nil,
          hSubmission.records_of_ok]
      rcases ends_finishWrite_cases rfl hClosing with
        ⟨-, -, error, hError⟩ |
          ⟨own, written, saved, r, hOwn, -, hSaved, -, hDecided,
            hKept⟩
      · cases hError
      · cases hOwn.symm.trans hDescriptor
        rcases hDecided with ⟨-, hOk⟩ | ⟨cause, error, -, hError⟩
        · cases hOk
          exact ⟨record, written, hRecords, hSaved, hKept⟩
        · cases hError
  | @find t id options e =>
      rcases ends_find h with
        ⟨-, -, failure, hError⟩ |
          ⟨target, opening, submission, closing, answer, rfl,
            hSettled, hSubmission, hClosing⟩
      · cases hError
      have hHooks := finishFind_hooked _ _ _ _ _ _ _ _ hClosing
      cases answer with
      | error cause =>
          rcases ends_finishFind_error hClosing with ⟨-, -, hSame⟩
          split at hSame <;> cases hSame
      | ok record =>
          have hRecords :
              records (opening ++ submission ++ closing) =
                [record] := by
            rw [records_around hSettled.submissions_eq
                hHooks.submissions_eq_nil,
              hSubmission.records_of_ok]
          rcases ends_finishFind_cases hClosing with
            ⟨-, ⟨-, error, hError⟩ |
              ⟨payload, own, decoded, -, hOwn, -, hFound, hKept⟩⟩
          · cases hError
          · cases hOwn.symm.trans hDescriptor
            cases hFound
            exact ⟨record, decoded, hRecords, rfl, hKept⟩
  | findAll hMem => exact hSingle.elim

------------------------------------------------------------
-- Showing Results
------------------------------------------------------------

/-
  Inside an attempt, the operation shows the transaction result
  of the entity: it replaces its document or removes it.
-/
inductive Shows
    (repo : Repository T)
    (e : EntityOf t) :
    Operation T → RequestKind → Prop where
  | replace :
      Shows repo e (.write .replace t e) .replace
  | save
      {token : UInt64}
      (hToken : repo.mapping.tokenOf e = .ok token)
      (hSome : token ≠ 0) :
      Shows repo e (.write .save t e) .replace
  | remove :
      Shows repo e (.remove t e) .remove

/-
  The one request of a settled target is handed over in the
  active attempt, unless the caller asks to stop before or
  there is no executor for attempts.
-/
theorem submitted_cases
    {target : Target repo t scope}
    {opening submission closing : Transcript T K}
    {request : Request}
    {result : Result StoreRecord}
    {attempt : Attempt}
    (hSettled : target.SettledIn opening)
    (hSubmission :
      Submission repo request target.attempt? submission result)
    (hClosing : OnlyHooks closing)
    (hActive :
      repo.IsActive scope (opening ++ submission ++ closing)
        (some attempt)) :
    target.attempt? = some attempt ∧
      (⟨.stopRequested, true⟩ ∈
          opening ++ submission ++ closing ∨
        repo.wiring.attemptExecutor = false ∨
        submissions (opening ++ submission ++ closing) =
          [(some attempt, request)]) := by
  have hOwn :
      repo.IsActive scope (opening ++ submission ++ closing)
        target.attempt? := by
    apply hSettled.active.of_eq
    simp [hSubmission.providedAttempts_eq_nil,
      hClosing.providedAttempts_eq_nil]
  have hAttempt := hOwn.unique hActive
  refine ⟨hAttempt, ?_⟩
  rw [hAttempt] at hSubmission
  have hSubmissions :
      submissions (opening ++ submission ++ closing) =
        submissions submission := by
    simp [hSettled.submissions_eq, hClosing.submissions_eq_nil]
  cases hSubmission with
  | stopped => exact .inl (by simp)
  | unconnected hConnects => exact .inr (.inl hConnects)
  | answered hConnects reply stop =>
      exact .inr (.inr hSubmissions)

/- What is shown by a write that replaces. -/
theorem write_shown_cases
    {intent : WriteIntent}
    {e : EntityOf t}
    {attempt : Attempt}
    {outcome : Except Failure (EntityOf t)}
    (hDescriptor : repo.mapping.descriptor t = .ok d)
    (hReplaces :
      ∀ attempt? kind,
        repo.KindFor attempt? kind (.write intent t e) →
          kind = .replace)
    (h :
      (repo.write intent e scope).Ends
        before transcript outcome after)
    (hActive : repo.IsActive scope transcript (some attempt)) :
    repo.Obstructed scope (.write intent t e) transcript ∨
      ⟨.stopRequested, true⟩ ∈ transcript ∨
      repo.wiring.attemptExecutor = false ∨
      ∃ request,
        submissions transcript = [(some attempt, request)] ∧
          request.kind = .replace ∧
          request.earlier? = earlierIn before d e := by
  rcases ends_write_cases h with
    ⟨failure, hSetback, -, -, -⟩ |
      ⟨w, submission, closing, result, rfl, -, hSubmission,
        hClosing⟩
  · exact .inl hSetback.obstructed
  refine .inr ?_
  have hHooks : OnlyHooks closing :=
    Task.Hooked.bind (.ofResult _)
      (fun _ => finishWrite_hooked _ _ _ _) _ _ _ _ hClosing
  rw [← List.append_assoc] at hActive ⊢
  rcases submitted_cases w.settled hSubmission hHooks hActive with
    ⟨hAttempt, hStopped | hMissing | hSubmitted⟩
  · exact .inl hStopped
  · exact .inr (.inl hMissing)
  refine .inr (.inr ⟨_, hSubmitted, ?_⟩)
  have hKind : w.kind = .replace :=
    hReplaces _ _ (kindFor_write w.token_eq w.kind_eq).1
  refine ⟨hKind, ?_⟩
  cases w.descriptor_eq.symm.trans hDescriptor
  show (if w.attempt?.isSome && w.kind = .replace then _ else _) = _
  rw [hAttempt, hKind]
  rfl

/- What is shown by a removal. -/
theorem remove_shown_cases
    {e : EntityOf t}
    {attempt : Attempt}
    {outcome : Except Failure StoreRecord}
    (hDescriptor : repo.mapping.descriptor t = .ok d)
    (h :
      (repo.remove e scope).Ends
        before transcript outcome after)
    (hActive : repo.IsActive scope transcript (some attempt)) :
    repo.Obstructed scope (.remove t e) transcript ∨
      ⟨.stopRequested, true⟩ ∈ transcript ∨
      repo.wiring.attemptExecutor = false ∨
      ∃ request,
        submissions transcript = [(some attempt, request)] ∧
          request.kind = .remove ∧
          request.earlier? = earlierIn before d e := by
  rw [remove_eq] at h
  rcases (planRemove_prepares _ _ _).ends_bind h with
    ⟨failure, hPlan, -, -, -⟩ |
      ⟨opening, plan, submission, rfl, -, hPlan, hRest⟩
  · exact .inl (obstructed_of_planRemove hPlan)
  refine .inr ?_
  rcases ends_planRemove hPlan with
    ⟨target, id, token, hSettled, -, -, rfl⟩
  rcases ends_submit hRest with ⟨-, result, -, hSubmission⟩
  rw [← List.append_nil (opening ++ submission)] at hActive ⊢
  rcases submitted_cases hSettled hSubmission .nil hActive with
    ⟨-, hStopped | hMissing | hSubmitted⟩
  · exact .inl hStopped
  · exact .inr (.inl hMissing)
  cases target.descriptor_eq.symm.trans hDescriptor
  exact .inr (.inr ⟨_, hSubmitted, rfl, rfl⟩)

/-
  The result under the key of an entity is shown to the
  executor, if nothing prevents the request.
-/
theorem shown_cases
    {op : Operation T}
    {kind : RequestKind}
    {e : EntityOf t}
    {attempt : Attempt}
    {outcome : Except Failure op.Outcome}
    (hDescriptor : repo.mapping.descriptor t = .ok d)
    (hShows : repo.Shows e op kind)
    (h :
      (repo.perform scope op).Ends
        before transcript outcome after)
    (hActive : repo.IsActive scope transcript (some attempt)) :
    repo.Obstructed scope op transcript ∨
      ⟨.stopRequested, true⟩ ∈ transcript ∨
      repo.wiring.attemptExecutor = false ∨
      ∃ request,
        submissions transcript = [(some attempt, request)] ∧
          request.kind = kind ∧
          request.earlier? = earlierIn before d e := by
  cases hShows with
  | replace =>
      refine write_shown_cases hDescriptor ?_ h hActive
      intro attempt? kind hKind
      exact hKind
  | save hToken hSome =>
      refine write_shown_cases hDescriptor ?_ h hActive
      rintro attempt? kind ⟨token, hOwn, rfl⟩
      cases hOwn.symm.trans hToken
      exact if_pos hSome
  | remove => exact remove_shown_cases hDescriptor h hActive

end Repository

------------------------------------------------------------
-- Nothing to Keep
------------------------------------------------------------

/- The operation may keep a result: it writes or finds. -/
def Operation.mayKeep : Operation T → Bool
  | .write _ _ _ => true
  | .find _ _ _ => true
  | .findAll _ _ _ => true
  | .exists _ _ => false
  | .removeDocument _ _ _ => false
  | .remove _ _ => false

/- Without a result, and by other operations, nothing is kept. -/
theorem Repository.kept_of_nothing
    {repo : Repository T}
    {scope : CallScope}
    {op : Operation T}
    {before after : ResultRegistry}
    {transcript : Transcript T K}
    {outcome : Except Failure op.Outcome}
    (h :
      (repo.perform scope op).Ends
        before transcript outcome after)
    (hNothing :
      op.mayKeep = false ∨ resultsOf transcript = []) :
    after = before := by
  rcases hNothing with hOther | hNone
  · cases op with
    | «exists» t id =>
        have hSingle : (Operation.exists t id).IsSingle := trivial
        exact ends_perform_keeps hSingle h
    | removeDocument t id cas =>
        have hSingle :
            (Operation.removeDocument t id cas).IsSingle :=
          trivial
        exact ends_perform_keeps hSingle h
    | remove t e =>
        have hSingle : (Operation.remove t e).IsSingle := trivial
        exact ends_perform_keeps hSingle h
    | _ => cases hOther
  · let run : OperationRun T K :=
      ⟨repo, scope, op, before, transcript, outcome, after, h⟩
    rcases run.exists_kept with ⟨kept, hSubset, hKept⟩
    have hNil : kept = [] := by
      apply List.subset_nil.mp
      rw [← hNone]
      exact hSubset
    rw [hNil] at hKept
    exact hKept

------------------------------------------------------------
-- Keeping and Forwarding
------------------------------------------------------------

variable {t : T}

/-
  In a registry with this past the result is kept under a new
  key; no other entry changes, and the entity has the key.
-/
structure KeptUnder
    {S : Schema}
    (past : List RegistryCall)
    (d : Descriptor S)
    (e : Entity S)
    (result : GetResult)
    (after : ResultRegistry)
    (key : Int64) : Prop where
  pos : 0 < key
  fresh :
    key ∉ Association.keys (ResultRegistry.issues {} past)
  entries_eq :
    after.entries =
      (ResultRegistry.callAll {} past).entries ++
        [(key, some result)]
  keyOf_eq : d.keyOf e = some key

/-
  Whatever happens, as long as neither the key nor the attempt
  of the result is dropped: who replaces or removes an entity
  with this key in an attempt shows the executor this result,
  unless the request is prevented.
-/
def Forwards
    (K : Hooks T)
    (d : Descriptor (EntityTypes.schema t))
    (result : GetResult)
    (key : Int64)
    (registry : ResultRegistry) : Prop :=
  ∀ {happenings : List (Happening T K)} {later},
    Chronicle registry happenings later →
      (∀ x ∈ happenings, x.Spares key result.attempt) →
        ∀ {repo : Repository T} {scope op kind after}
            {e : EntityOf t} {attempt}
            {transcript : Transcript T K} {outcome},
          repo.mapping.descriptor t = .ok d →
            d.keyOf e = some key →
              repo.Shows e op kind →
                (repo.perform scope op).Ends
                    later transcript outcome after →
                  repo.IsActive scope transcript
                      (some attempt) →
                    repo.Obstructed scope op transcript ∨
                      ⟨.stopRequested, true⟩ ∈ transcript ∨
                      repo.wiring.attemptExecutor = false ∨
                      ∃ request,
                        submissions transcript =
                            [(some attempt, request)] ∧
                          request.kind = kind ∧
                          request.earlier? = some result

/- What is found in a registry is forwarded from then on. -/
theorem forwards_of_find?
    {d : Descriptor (EntityTypes.schema t)}
    {result : GetResult}
    {key : Int64}
    {registry : ResultRegistry}
    (hPos : 0 < key)
    (hFind : registry.find? key = some result) :
    Forwards K d result key registry := by
  intro happenings later hChronicle hSpares repo scope op kind
    after e attempt transcript outcome hDescriptor hKey hShows h
    hActive
  have hEarlier : earlierIn later d e = some result := by
    unfold earlierIn
    rw [hKey]
    dsimp only
    rw [if_pos hPos]
    exact hChronicle.find? hFind hSpares
  rw [← hEarlier]
  exact Repository.shown_cases hDescriptor hShows h hActive

/-
  The next key is new, until there are too many, and the entity
  has it if there is room for it.
-/
theorem keptUnder_nextKey
    {past : List RegistryCall}
    {d : Descriptor (EntityTypes.schema t)}
    {e bare : EntityOf t}
    {result : GetResult}
    {before after : ResultRegistry}
    {key : Int64}
    (hRoom : d.HasRoom key)
    (hBefore : before = .callAll {} past)
    (hKey : key = before.nextKey)
    (hFew :
      (ResultRegistry.issues {} past).length + 1 < 2 ^ 63)
    (hEntity : e = Writeback.kept d bare before (some result))
    (hAfter : after = before.keepAll [result]) :
    KeptUnder past d e result after key ∧
      after.find? key = some result := by
  subst hBefore hKey hEntity hAfter
  rcases ResultRegistry.nextKey_fresh hFew with ⟨hPos, hFresh⟩
  have hNew :=
    ResultRegistry.lookup?_eq_none_of_not_issued hFresh
  exact
    ⟨{ pos := hPos
       fresh := hFresh
       entries_eq := ResultRegistry.entries_save hNew
       keyOf_eq :=
         (Descriptor.keyOf_withKey_eq_iff hPos bare).mpr hRoom },
      ResultRegistry.find?_save hNew⟩

namespace Repository

variable {repo : Repository T}
variable {scope : CallScope}
variable {d : Descriptor (EntityTypes.schema t)}

/- One entity is returned with its result. -/
theorem returned_keptUnder
    {past : List RegistryCall}
    {op : Operation T}
    {value : op.Outcome}
    {e : EntityOf t}
    {result : GetResult}
    {before after : ResultRegistry}
    {transcript : Transcript T K}
    (hKeeps : d.KeepsKeys)
    (hDescriptor : repo.mapping.descriptor t = .ok d)
    (hSingle : op.IsSingle)
    (hReturned : Returned op value t e)
    (hBefore : before = .callAll {} past)
    (h :
      (repo.perform scope op).Ends
        before transcript (.ok value) after)
    (hResult : result ∈ resultsOf transcript)
    (hFew :
      (ResultRegistry.issues {} past).length + 1 < 2 ^ 63) :
    ∃ key,
      KeptUnder past d e result after key ∧
        after.find? key = some result := by
  rcases returned_keeps hSingle hReturned hDescriptor h with
    ⟨record, bare, hRecords, hEntity, hAfter⟩
  rw [resultsOf_of_records hRecords, Option.mem_toList] at hResult
  rw [hResult] at hEntity hAfter
  exact
    ⟨_,
      keptUnder_nextKey (hKeeps.hasWideKey.hasRoom _) hBefore
        rfl hFew hEntity hAfter⟩

/- So is every entity of a list that is found. -/
theorem findAll_keptUnder
    {past : List RegistryCall}
    {options : ReadOptions}
    {ids : List Text}
    {done rest : List (FindRun K repo t options scope)}
    {run : FindRun K repo t options scope}
    {entities : List (EntityOf t)}
    {e : EntityOf t}
    {result : GetResult}
    {after : ResultRegistry}
    (hKeeps : d.KeepsKeys)
    (hDescriptor : repo.mapping.descriptor t = .ok d)
    (hRuns :
      FindsAll (.callAll {} past) ids (done ++ run :: rest)
        (.ok entities) after)
    (hFound : run.outcome = .ok (some e))
    (hResult : result ∈ resultsOf run.transcript)
    (hFew :
      (ResultRegistry.issues {} past).length +
          (resultsOf
            ((done ++ run :: rest).map
              (·.transcript)).flatten).length <
        2 ^ 63) :
    ∃ calls key,
      run.before = .callAll {} (past ++ calls) ∧
        KeptUnder (past ++ calls) d e result run.after key ∧
        after.find? key = some result := by
  rcases hRuns.split with ⟨hBefore, hAfter⟩
  let calls : List RegistryCall :=
    (done.flatMap (·.kept)).map
      fun result => .save (some result)
  have hPast : run.before = .callAll {} (past ++ calls) := by
    rw [hBefore, ResultRegistry.callAll_append]
    rfl
  have hOne : 0 < run.kept.length := by
    rw [FindRun.kept_of_ok hFound]
    exact List.length_pos_of_mem hResult
  rw [← hRuns.kept_of_ok, List.flatMap_append,
    List.flatMap_cons, List.length_append,
    List.length_append] at hFew
  have hFewBefore :
      (ResultRegistry.issues {} (past ++ calls)).length + 1 <
        2 ^ 63 := by
    rw [ResultRegistry.issues_append, List.length_append,
      ResultRegistry.length_issues_saves]
    omega
  have hSingle :
      (Operation.find t run.id options).IsSingle :=
    trivial
  have hEnds := run.ends
  rw [hFound] at hEnds
  rcases returned_keptUnder hKeeps hDescriptor hSingle .find
      hPast hEnds hResult hFewBefore with
    ⟨key, hKept, hFind⟩
  refine ⟨calls, key, hPast, hKept, ?_⟩
  rw [hAfter]
  refine ResultRegistry.find?_callAll hFind ?_
  intro c hMem
  rcases List.mem_map.mp hMem with ⟨later, -, rfl⟩
  exact trivial

/-
  In every state of the registry: the entity that a find or a
  write returns with a transaction result has a new key, the
  result is kept under it, and it is forwarded from then on.
  So it is for each entity of a list. Without a result, and by
  tests and removals, nothing is kept.
-/
theorem results_forwarded
    (hKeeps : d.KeepsKeys)
    (hDescriptor : repo.mapping.descriptor t = .ok d) :
    (∀ {past op value e result after}
        {transcript : Transcript T K},
      op.IsSingle →
        Returned op value t e →
          (repo.perform scope op).Ends
              (.callAll {} past) transcript (.ok value) after →
            result ∈ resultsOf transcript →
              (ResultRegistry.issues {} past).length + 1 <
                  2 ^ 63 →
                ∃ key,
                  KeptUnder past d e result after key ∧
                    Forwards K d result key after) ∧
      (∀ {past ids options entities after}
          {transcript : Transcript T K},
        (repo.perform scope (.findAll t ids options)).Ends
            (.callAll {} past) transcript (.ok entities) after →
          (ResultRegistry.issues {} past).length +
                (resultsOf transcript).length <
              2 ^ 63 →
            ∃ runs : List (FindRun K repo t options scope),
              transcript = (runs.map (·.transcript)).flatten ∧
                runs.map (·.id) = ids ∧
                entities = runs.flatMap (·.found) ∧
                ∀ run ∈ runs, ∀ e result,
                  run.outcome = .ok (some e) →
                    result ∈ resultsOf run.transcript →
                      ∃ calls key,
                        run.before =
                            .callAll {} (past ++ calls) ∧
                          KeptUnder (past ++ calls) d e result
                            run.after key ∧
                          Forwards K d result key after) ∧
      ∀ {op before outcome after} {transcript : Transcript T K},
        (repo.perform scope op).Ends
            before transcript outcome after →
          op.mayKeep = false ∨ resultsOf transcript = [] →
            after = before := by
  refine ⟨?_, ?_, ?_⟩
  · intro past op value e result after transcript hSingle
      hReturned h hResult hFew
    rcases returned_keptUnder hKeeps hDescriptor hSingle
        hReturned rfl h hResult hFew with
      ⟨key, hKept, hFind⟩
    exact ⟨key, hKept, forwards_of_find? hKept.pos hFind⟩
  · intro past ids options entities after transcript h hFew
    rcases ends_findAll_findsAll h with ⟨runs, rfl, hRuns⟩
    rcases hRuns.of_ok with ⟨hIds, hEntities⟩
    refine ⟨runs, rfl, hIds, hEntities, ?_⟩
    intro run hMem e result hFound hResult
    rcases List.append_of_mem hMem with ⟨done, rest, rfl⟩
    rcases findAll_keptUnder hKeeps hDescriptor hRuns hFound
        hResult hFew with
      ⟨calls, key, hPast, hKept, hFind⟩
    exact
      ⟨calls, key, hPast, hKept,
        forwards_of_find? hKept.pos hFind⟩
  · intro op before outcome after transcript h hNothing
    exact kept_of_nothing h hNothing

/-
  Ann is found in an attempt, and her result is kept under the
  key that she gets. Who replaces her shows it.
-/
theorem results_forwarded_of_ann :
    let find : Task _ (scriptedHooks _) _ :=
      Sample.annStored.repository.perform
        (Sample.inAttempt "T1")
        (.find .person (Text.lit "p1") {})
    let later : Session Sample.EntityType :=
      (Sample.annStored.work find).2
    ∃ (ann : EntityOf Sample.EntityType.person)
      (result : GetResult) (key : Int64),
      (Sample.annStored.work find).1 = .ok (some ann) ∧
        KeptUnder [] (Sample.Declaration.usual .person).descriptor
          ann result later.registry key ∧
        Forwards (scriptedHooks Sample.EntityType)
          (Sample.Declaration.usual .person).descriptor result
          key later.registry ∧
        let replace : Task _ (scriptedHooks _) _ :=
          later.repository.perform (Sample.inAttempt "T1")
            (.write .replace .person ann)
        (submissions (later.transcriptOf replace)).map
            (fun x => (x.2.kind, x.2.earlier?)) =
          [(.replace, some result)] := by
  intro find later
  have hDescriptor :
      Sample.annStored.repository.mapping.descriptor
          Sample.EntityType.person =
        .ok (Sample.Declaration.usual .person).descriptor :=
    rfl
  have hKeeps :
      (Sample.Declaration.usual .person).descriptor.KeepsKeys :=
    ⟨_, rfl, .inr rfl⟩
  have hSingle :
      (Operation.find Sample.EntityType.person (Text.lit "p1")
        {}).IsSingle :=
    trivial
  let ann : EntityOf Sample.EntityType.person :=
    (Sample.annStored.work find).1.toOption.join.getD Sample.ann
  have hFound :
      (Sample.annStored.work find).1 = .ok (some ann) :=
    rfl
  have hEnds := Session.ends_work Sample.annStored find
  rw [hFound] at hEnds
  have hResult :
      _ ∈ resultsOf (Sample.annStored.transcriptOf find) :=
    List.mem_singleton_self _
  have hFew :
      (ResultRegistry.issues {} []).length + 1 < 2 ^ 63 := by
    decide
  rcases (results_forwarded hKeeps hDescriptor).1 hSingle .find
      hEnds hResult hFew with
    ⟨key, hKept, hForwards⟩
  refine ⟨ann, _, key, hFound, hKept, hForwards, ?_⟩
  decide +kernel

end Repository

end DocumentMapper
