import DocumentMapper.Proofs.Repository.Plan
import DocumentMapper.Proofs.Transaction

/-
  How operations end, once they have an answer.

  An ending talks to listeners only. The entity that it
  returns has the token that came with the answer; the key of
  a transaction result is put into it last. Nothing but this
  result is kept in the registry.

  Key definitions include:
    * `Writeback.kept`

  Main statements include:
    * `Writeback.ends_keep_iff`
    * `Writeback.ends_apply_cases`
    * `Repository.finishWrite_hooked`
    * `Repository.ends_finishExists_error`
    * `Repository.ends_finishWrite_cases`
    * `Repository.ends_finishWrite`
    * `Repository.outcome_of_finishFind`
    * `Repository.ends_finishFind_error`
    * `Repository.ends_finishFind_cases`
    * `Repository.ends_finishFind_ok`
    * `Repository.ends_finishFind`
-/

namespace DocumentMapper

variable {T : Type}
variable [EntityTypes T]
variable {K : Hooks T}
variable {before after : ResultRegistry}
variable {transcript : Transcript T K}

------------------------------------------------------------
-- Keeping Results
------------------------------------------------------------

/- The entity with the key under which a result is kept. -/
def Writeback.kept
    {S : Schema}
    (d : Descriptor S)
    (e : Entity S)
    (registry : ResultRegistry)
    (result? : Option GetResult) : Entity S :=
  match result? with
  | some result => d.withKey e (registry.save (some result)).1
  | none => e

namespace Writeback

/- Keeping a result asks nothing, and changes no more than the key. -/
theorem ends_keep_iff
    {S : Schema}
    {d : Descriptor S}
    {e : Entity S}
    {result? : Option GetResult}
    {outcome : Except Failure (Entity S)} :
    (keep d e result? : Task T K (Entity S)).Ends
        before transcript outcome after ↔
      transcript = [] ∧ outcome = .ok (kept d e before result?) ∧
        after = before.keepAll result?.toList := by
  cases result? with
  | none => exact Task.ends_pure_iff
  | some result =>
      unfold keep
      rw [Task.ends_bind_iff]
      constructor
      · rintro (⟨failure, hSave, -⟩ |
          ⟨first, key, between, second, rfl, hSave, hRest⟩)
        · cases (Task.ends_saveResult_iff.mp hSave).2.1
        · rcases Task.ends_saveResult_iff.mp hSave with
            ⟨rfl, hOk, rfl⟩
          cases hOk
          exact Task.ends_pure_iff.mp hRest
      · rintro ⟨rfl, rfl, rfl⟩
        exact
          .inr
            ⟨[], _, _, [], rfl,
              Task.ends_saveResult_iff.mpr ⟨rfl, rfl, rfl⟩,
              Task.ends_pure_iff.mpr ⟨rfl, rfl, rfl⟩⟩

theorem keep_hooked
    {S : Schema}
    (d : Descriptor S)
    (e : Entity S)
    (result? : Option GetResult) :
    Task.Hooked (keep d e result? : Task T K (Entity S)) := by
  intro before transcript outcome after h
  rw [(ends_keep_iff.mp h).1]
  exact .nil

/- Keeping a result ends with the entity that has its key. -/
theorem ends_keep
    {S : Schema}
    {d : Descriptor S}
    {e : Entity S}
    {result? : Option GetResult}
    {outcome : Except Failure (Entity S)}
    (h :
      (keep d e result? : Task T K (Entity S)).Ends
        before transcript outcome after) :
    outcome = .ok (kept d e before result?) :=
  (ends_keep_iff.mp h).2.1

------------------------------------------------------------
-- Writing Back
------------------------------------------------------------

variable {t : T}

theorem apply_hooked
    (w : Writeback T)
    (e : EntityOf t)
    (document : Document)
    (id : Text)
    (cas : UInt64)
    (result? : Option GetResult)
    (collection : Text) :
    Task.Hooked (K := K)
      (w.apply e document id cas result? collection) := by
  unfold apply
  apply Task.Hooked.bind (.ofResult _)
  intro d
  apply Task.Hooked.bind (.ofResult _)
  intro e
  apply Task.Hooked.bind (keep_hooked _ _ _)
  intro e
  apply Task.Hooked.bind (.ofStep (publishIf_hooked _ _))
  intro _
  exact .pure _

/-
  Writing back fails before anything is kept; or a result that
  came with the answer is kept, the listeners to saved
  entities are told, and they decide.
-/
theorem ends_apply_cases
    {w : Writeback T}
    {e : EntityOf t}
    {document : Document}
    {id : Text}
    {cas : UInt64}
    {result? shown? : Option GetResult}
    {collection : Text}
    {outcome : Except Failure (EntityOf t)}
    (hShown :
      shown? = if w.hasRegistry then result? else none)
    (h :
      (w.apply e document id cas result? collection :
          Task T K (EntityOf t)).Ends
        before transcript outcome after) :
    (transcript = [] ∧ after = before ∧
        ∃ error, outcome = .error (.error error)) ∨
      ∃ d written saved r,
        w.mapping.descriptor t = .ok d ∧
          d.withToken (if id = [] then e else d.withId e id)
              cas = .ok written ∧
          saved = kept d written before shown? ∧
          (publishIf w.hasBus
              ⟨.afterSave, t, saved, some document,
                collection⟩ : Step T K Unit).Ends
            transcript r ∧
          outcome = Failure.ofResult (r.map fun _ => saved) ∧
          after = before.keepAll shown?.toList := by
  subst hShown
  unfold apply at h
  rcases Task.ends_ofResult_bind_iff.mp h with
    ⟨cause, -, rfl, rfl, rfl⟩ | ⟨d, hDescriptor, h₁⟩
  · exact .inl ⟨rfl, rfl, cause, rfl⟩
  rcases Task.ends_ofResult_bind_iff.mp h₁ with
    ⟨cause, -, rfl, rfl, rfl⟩ | ⟨written, hWritten, h₂⟩
  · exact .inl ⟨rfl, rfl, cause, rfl⟩
  rcases Task.ends_bind_iff.mp h₂ with
    ⟨failure, hKeep, -⟩ | ⟨_, saved, _, rest, rfl, hKeep, h₃⟩
  · cases ends_keep hKeep
  rcases ends_keep_iff.mp hKeep with ⟨rfl, hSaved, rfl⟩
  cases hSaved
  rcases Task.ends_bind_iff.mp h₃ with
    ⟨failure, hTell, rfl⟩ | ⟨told, _, _, _, rfl, hTell, hPure⟩
  · rcases Task.ends_ofStep_iff.mp hTell with
      ⟨r, hStep, hSame, rfl⟩
    cases r with
    | ok value => cases hSame
    | error cause =>
        cases hSame
        exact
          .inr
            ⟨d, written, _, _, hDescriptor, hWritten, rfl,
              hStep, rfl, rfl⟩
  · rcases Task.ends_ofStep_ok_iff.mp hTell with ⟨hStep, rfl⟩
    rcases Task.ends_pure_iff.mp hPure with ⟨rfl, rfl, rfl⟩
    rw [List.append_nil]
    exact
      .inr
        ⟨d, written, _, _, hDescriptor, hWritten, rfl, hStep,
          rfl, rfl⟩

/-
  What is written back is the given entity, with identifier,
  token and key of the answer.
-/
theorem ends_apply
    {w : Writeback T}
    {e e' : EntityOf t}
    {document : Document}
    {id : Text}
    {cas : UInt64}
    {result? : Option GetResult}
    {collection : Text}
    (h :
      (w.apply e document id cas result? collection :
          Task T K (EntityOf t)).Ends
        before transcript (.ok e') after) :
    ∃ d written,
      w.mapping.descriptor t = .ok d ∧
        d.withToken (if id = [] then e else d.withId e id)
            cas = .ok written ∧
        e' =
          kept d written before
            (if w.hasRegistry then result? else none) := by
  rcases ends_apply_cases rfl h with
    ⟨-, -, error, hError⟩ |
      ⟨d, written, saved, r, hDescriptor, hWritten, hSaved, -,
        hOutcome, -⟩
  · cases hError
  · cases r with
    | error cause => cases hOutcome
    | ok value =>
        cases hOutcome
        exact ⟨d, written, hDescriptor, hWritten, hSaved⟩

end Writeback

namespace Repository

variable {repo : Repository T}
variable {t : T}

/- The ending of a write talks to listeners only. -/
theorem finishWrite_hooked
    (repo : Repository T)
    (e : EntityOf t)
    (plan : WritePlan)
    (record : StoreRecord) :
    Task.Hooked (K := K) (repo.finishWrite e plan record) :=
  .inContext (Writeback.apply_hooked _ _ _ _ _ _ _) _ _ _

/-
  A write fails before anything is kept; or the result that
  came with the answer is kept, and the listeners to saved
  entities decide.
-/
theorem ends_finishWrite_cases
    {e : EntityOf t}
    {plan : WritePlan}
    {record : StoreRecord}
    {id : Text}
    {outcome : Except Failure (EntityOf t)}
    (hId :
      id =
        if record.id = [] then plan.request.id else record.id)
    (h :
      (repo.finishWrite e plan record).Ends
        before transcript outcome after) :
    (transcript = [] ∧ after = before ∧
        ∃ error, outcome = .error (.error error)) ∨
      ∃ d written saved r,
        repo.mapping.descriptor t = .ok d ∧
          d.withToken (if id = [] then e else d.withId e id)
              record.cas = .ok written ∧
          saved =
            Writeback.kept d written before record.result? ∧
          (publishIf repo.wiring.bus
              ⟨.afterSave, t, saved, some plan.document,
                plan.collection⟩ : Step T K Unit).Ends
            transcript r ∧
          (r = .ok () ∧ outcome = .ok saved ∨
            ∃ cause error,
              r = .error cause ∧
                outcome = .error (.error error)) ∧
          after = before.keepAll record.result?.toList := by
  subst hId
  rcases Task.ends_inContext_iff.mp h with ⟨inner, hInner, rfl⟩
  rcases Writeback.ends_apply_cases rfl hInner with
    ⟨rfl, rfl, error, rfl⟩ |
      ⟨d, written, saved, r, hDescriptor, hWritten, hSaved,
        hTold, rfl, rfl⟩
  · exact .inl ⟨rfl, rfl, _, rfl⟩
  · refine
      .inr
        ⟨d, written, saved, r, hDescriptor, hWritten, hSaved,
          hTold, ?_, rfl⟩
    cases r with
    | error cause => exact .inr ⟨cause, _, rfl, rfl⟩
    | ok value => exact .inl ⟨rfl, rfl⟩

/- The ending of a write never ends with an exception. -/
theorem finishWrite_cases
    {e : EntityOf t}
    {plan : WritePlan}
    {record : StoreRecord}
    {outcome : Except Failure (EntityOf t)}
    (h :
      (repo.finishWrite e plan record).Ends
        before transcript outcome after) :
    (∃ e', outcome = .ok e') ∨
      ∃ error, outcome = .error (.error error) := by
  rcases ends_finishWrite_cases rfl h with
    ⟨-, -, hFailed⟩ |
      ⟨d, written, saved, r, -, -, -, -, hDecided, -⟩
  · exact .inr hFailed
  · rcases hDecided with ⟨-, hSaved⟩ | ⟨cause, error, -, hFailed⟩
    · exact .inl ⟨saved, hSaved⟩
    · exact .inr ⟨error, hFailed⟩

/- A write returns its entity as the answer has it. -/
theorem ends_finishWrite
    {e e' : EntityOf t}
    {plan : WritePlan}
    {record : StoreRecord}
    (h :
      (repo.finishWrite e plan record).Ends
        before transcript (.ok e') after) :
    ∃ d id written,
      repo.mapping.descriptor t = .ok d ∧
        id =
          (if record.id = [] then plan.request.id
            else record.id) ∧
        d.withToken (if id = [] then e else d.withId e id)
            record.cas = .ok written ∧
        e' = Writeback.kept d written before record.result? := by
  rcases Writeback.ends_apply (Task.ends_inContext_ok_iff.mp h) with
    ⟨d, written, hDescriptor, hWritten, rfl⟩
  exact ⟨d, _, written, hDescriptor, rfl, hWritten, rfl⟩

------------------------------------------------------------
-- Reading Back
------------------------------------------------------------

/- The ending of a read asks nothing. -/
theorem finishFind_hooked
    (repo : Repository T)
    (t : T)
    (plan : Plan)
    (answer : Result StoreRecord) :
    Task.Hooked (K := K) (repo.finishFind t plan answer) := by
  cases answer with
  | error e =>
      unfold finishFind
      dsimp only
      split
      · exact .pure _
      · exact .fail _
  | ok record =>
      refine .bind (.inContext ?_ _ _ _) fun e => .pure _
      unfold entityOfRecord
      split
      · exact .fail _
      · exact
          .bind (.ofResult _) fun e =>
            .bind (.ofResult _) fun d =>
              Writeback.keep_hooked _ _ _

/- The ending of a test asks nothing. -/
theorem finishExists_hooked
    (plan : Plan)
    (answer : Result StoreRecord) :
    Task.Hooked
      (finishExists plan answer : Task T K Bool) := by
  cases answer with
  | ok record => exact .pure _
  | error e =>
      unfold finishExists
      dsimp only
      split
      · exact .pure _
      · exact .fail _

/- A failed answer is passed on, or says that nothing is there. -/
theorem ends_finishExists_error
    {plan : Plan}
    {cause : Error}
    {outcome : Except Failure Bool}
    (h :
      (finishExists plan (.error cause) : Task T K Bool).Ends
        before transcript outcome after) :
    transcript = [] ∧ after = before ∧
      outcome =
        if plan.attempt?.isSome &&
            cause.isStorageFault .documentNotFound then
          .ok false
        else
          .error (.error cause) := by
  unfold finishExists at h
  dsimp only at h
  split at h
  · rcases Task.ends_pure_iff.mp h with ⟨hNil, hOk, hKept⟩
    exact ⟨hNil, hKept, by rw [hOk, if_pos ‹_›]⟩
  · rcases Task.ends_fail_iff.mp h with ⟨hNil, hError, hKept⟩
    exact ⟨hNil, hKept, by rw [hError, if_neg ‹_›]⟩

/- An answer with a payload is decoded, or fails as its payload. -/
theorem outcome_of_finishFind
    {plan : Plan}
    {record : StoreRecord}
    {payload : Text}
    {d : Descriptor (EntityTypes.schema t)}
    {outcome : Except Failure (Option (EntityOf t))}
    (hDescriptor : repo.mapping.descriptor t = .ok d)
    (hContent : record.content? = some payload)
    (h :
      (repo.finishFind t plan (.ok record) :
          Task T K (Option (EntityOf t))).Ends
        before transcript outcome after) :
    outcome =
      match
        repo.codec.decode t plan.request.id payload record.cas
      with
      | .ok decoded =>
          .ok
            (some
              (Writeback.kept d decoded before record.result?))
      | .error e =>
          .error
            (.error
              (e.withContext RequestKind.get.name
                plan.request.id
                plan.request.collection.qualified)) := by
  have hEntity :
      ∀ {asked found after'},
        (repo.entityOfRecord t plan.request.id record :
            Task T K (EntityOf t)).Ends
          before asked found after' →
        found =
          (Failure.ofResult
            (repo.codec.decode t plan.request.id payload
              record.cas)).map
            fun decoded =>
              Writeback.kept d decoded before record.result? := by
    intro asked found after' hFound
    unfold entityOfRecord decodeKeeping at hFound
    rw [hContent] at hFound
    rcases Task.ends_ofResult_bind_iff.mp hFound with
      ⟨e, hDecode, -, rfl, -⟩ | ⟨decoded, hDecode, hRest⟩
    · rw [hDecode]
      rfl
    · rw [hDecode]
      rw [hDescriptor] at hRest
      exact Writeback.ends_keep hRest
  rcases Task.ends_bind_iff.mp h with
    ⟨failure, hFound, rfl⟩ | ⟨_, e, _, _, rfl, hFound, hRest⟩
  all_goals
    rcases Task.ends_inContext_iff.mp hFound with
      ⟨inner, hInner, hSame⟩
    rw [hEntity hInner] at hSame
    cases hDecode :
      repo.codec.decode t plan.request.id payload record.cas
  · rw [hDecode] at hSame
    cases hSame
    rfl
  · rw [hDecode] at hSame
    cases hSame
  · rw [hDecode] at hSame
    cases hSame
  · rw [hDecode] at hSame
    cases hSame
    exact (Task.ends_pure_iff.mp hRest).2.1

/- A failed answer is passed on, or says that nothing is there. -/
theorem ends_finishFind_error
    {plan : Plan}
    {cause : Error}
    {outcome : Except Failure (Option (EntityOf t))}
    (h :
      (repo.finishFind t plan (.error cause) :
          Task T K (Option (EntityOf t))).Ends
        before transcript outcome after) :
    transcript = [] ∧ after = before ∧
      outcome =
        if cause.isStorageFault .documentNotFound then
          .ok none
        else
          .error (.error cause) := by
  unfold finishFind at h
  dsimp only at h
  split at h
  · rcases Task.ends_pure_iff.mp h with ⟨rfl, rfl, rfl⟩
    exact ⟨rfl, rfl, (if_pos ‹_›).symm⟩
  · rcases Task.ends_fail_iff.mp h with ⟨rfl, rfl, rfl⟩
    exact ⟨rfl, rfl, (if_neg ‹_›).symm⟩

/-
  What is found has come from a payload that was decoded; else
  nothing is kept.
-/
theorem ends_finishFind_cases
    {plan : Plan}
    {record : StoreRecord}
    {outcome : Except Failure (Option (EntityOf t))}
    (h :
      (repo.finishFind t plan (.ok record) :
          Task T K (Option (EntityOf t))).Ends
        before transcript outcome after) :
    transcript = [] ∧
      ((after = before ∧
          ∃ error, outcome = .error (.error error)) ∨
        ∃ payload d decoded,
          record.content? = some payload ∧
            repo.mapping.descriptor t = .ok d ∧
            repo.codec.decode t plan.request.id payload
                record.cas = .ok decoded ∧
            outcome =
              .ok
                (some
                  (Writeback.kept d decoded before
                    record.result?)) ∧
            after =
              before.keepAll record.result?.toList) := by
  have hEntity :
      ∀ {asked found after'},
        (repo.entityOfRecord t plan.request.id record :
            Task T K (EntityOf t)).Ends
          before asked found after' →
        asked = [] ∧
          ((after' = before ∧
              ∃ error, found = .error (.error error)) ∨
            ∃ payload d decoded,
              record.content? = some payload ∧
                repo.mapping.descriptor t = .ok d ∧
                repo.codec.decode t plan.request.id payload
                    record.cas = .ok decoded ∧
                found =
                  .ok
                    (Writeback.kept d decoded before
                      record.result?) ∧
                after' =
                  before.keepAll record.result?.toList) := by
    intro asked found after' hFound
    unfold entityOfRecord decodeKeeping at hFound
    cases hContent : record.content? with
    | none =>
        rw [hContent] at hFound
        rcases Task.ends_fail_iff.mp hFound with ⟨rfl, rfl, rfl⟩
        exact ⟨rfl, .inl ⟨rfl, _, rfl⟩⟩
    | some payload =>
        rw [hContent] at hFound
        rcases Task.ends_ofResult_bind_iff.mp hFound with
          ⟨e, -, rfl, rfl, rfl⟩ | ⟨decoded, hDecode, h₁⟩
        · exact ⟨rfl, .inl ⟨rfl, _, rfl⟩⟩
        rcases Task.ends_ofResult_bind_iff.mp h₁ with
          ⟨e, -, rfl, rfl, rfl⟩ | ⟨d, hDescriptor, hKeep⟩
        · exact ⟨rfl, .inl ⟨rfl, _, rfl⟩⟩
        rcases Writeback.ends_keep_iff.mp hKeep with
          ⟨rfl, rfl, rfl⟩
        exact
          ⟨rfl, .inr ⟨payload, d, decoded, rfl, hDescriptor,
            hDecode, rfl, rfl⟩⟩
  rcases Task.ends_bind_iff.mp h with
    ⟨failure, hFound, rfl⟩ | ⟨_, e, _, rest, rfl, hFound, hRest⟩
  · rcases Task.ends_inContext_iff.mp hFound with
      ⟨inner, hInner, hSame⟩
    rcases hEntity hInner with
      ⟨rfl, ⟨rfl, error, rfl⟩ |
        ⟨payload, d, decoded, -, -, -, rfl, -⟩⟩
    · cases hSame
      exact ⟨rfl, .inl ⟨rfl, _, rfl⟩⟩
    · cases hSame
  · rw [Task.ends_inContext_ok_iff] at hFound
    rcases Task.ends_pure_iff.mp hRest with ⟨rfl, rfl, rfl⟩
    rcases hEntity hFound with
      ⟨rfl, ⟨-, error, hError⟩ |
        ⟨payload, d, decoded, hContent, hDescriptor, hDecode,
          hFound, hKept⟩⟩
    · cases hError
    · cases hFound
      exact
        ⟨rfl, .inr ⟨payload, d, decoded, hContent, hDescriptor,
          hDecode, rfl, hKept⟩⟩

/- A record leads to an entity, or to an error. -/
theorem ends_finishFind_ok
    {plan : Plan}
    {record : StoreRecord}
    {outcome : Except Failure (Option (EntityOf t))}
    (h :
      (repo.finishFind t plan (.ok record) :
          Task T K (Option (EntityOf t))).Ends
        before transcript outcome after) :
    (∃ e, outcome = .ok (some e)) ∨
      ∃ error, outcome = .error (.error error) := by
  rcases ends_finishFind_cases h with
    ⟨-, ⟨-, hFailed⟩ |
      ⟨payload, d, decoded, -, -, -, hFound, -⟩⟩
  · exact .inr hFailed
  · exact .inl ⟨_, hFound⟩

/- What is found is the decoded payload of the answer. -/
theorem ends_finishFind
    {plan : Plan}
    {answer : Result StoreRecord}
    {e : EntityOf t}
    (h :
      (repo.finishFind t plan answer :
          Task T K (Option (EntityOf t))).Ends
        before transcript (.ok (some e)) after) :
    ∃ record payload d decoded,
      answer = .ok record ∧ record.content? = some payload ∧
        repo.mapping.descriptor t = .ok d ∧
        repo.codec.decode t plan.request.id payload
            record.cas = .ok decoded ∧
        e = Writeback.kept d decoded before record.result? := by
  cases answer with
  | error cause =>
      rcases ends_finishFind_error h with ⟨-, -, hSame⟩
      split at hSame <;> cases hSame
  | ok record =>
      rcases ends_finishFind_cases h with
        ⟨-, ⟨-, error, hError⟩ |
          ⟨payload, d, decoded, hContent, hDescriptor, hDecode,
            hFound, -⟩⟩
      · cases hError
      · cases hFound
        exact
          ⟨record, payload, d, decoded, rfl, hContent,
            hDescriptor, hDecode, rfl⟩

end Repository

end DocumentMapper
