import DocumentMapper.Proofs.Entity.TokenRange
import DocumentMapper.Proofs.Repository.Tokens
import DocumentMapper.Proofs.Session.Runs
import DocumentMapper.Sample.Scene
import Mathlib.Data.List.Forall2

/-
  What operations make of the records they get.

  An operation that returns entities returns one for every
  record, with the token of the record. A record whose token
  the field cannot hold ends in an error.

  Key definitions include:
    * `Repository.KeepsTokens`

  Main statements include:
    * `Repository.write_keepsTokens`
    * `Repository.find_keepsTokens`
    * `Repository.findAll_keepsTokens`
    * `Repository.tokens_never_truncated`
-/

namespace DocumentMapper

variable {T : Type}
variable [EntityTypes T]
variable {K : Hooks T}
variable {t : T}

namespace Repository

variable {repo : Repository T}
variable {scope : CallScope}
variable {d : Descriptor (EntityTypes.schema t)}
variable {before after : ResultRegistry}
variable {transcript : Transcript T K}

/-
  With entities in the end there is one for every record, and
  it carries the token of the record. A record whose token
  cannot be held ends in an error.
-/
structure KeepsTokens
    (repo : Repository T)
    (d : Descriptor (EntityTypes.schema t))
    (transcript : Transcript T K)
    (outcome : Except Failure (List (EntityOf t))) : Prop where
  kept :
    ∀ entities,
      outcome = .ok entities →
        List.Forall₂ (repo.Carries d) entities
          (records transcript)
  refused :
    ∀ record ∈ records transcript,
      ¬ d.Holds record.cas →
        ∃ error, outcome = .error (.error error)

namespace KeepsTokens

variable {outcome : Except Failure (List (EntityOf t))}

/- A failure without a record. -/
theorem of_none
    {failure : Failure}
    (hNone : records transcript = []) :
    KeepsTokens repo d transcript (.error failure) where
  kept := nofun
  refused record hMem := by
    rw [hNone] at hMem
    cases hMem

/- A failure with an error. -/
theorem of_error
    {error : Error} :
    KeepsTokens repo d transcript (.error (.error error)) where
  kept := nofun
  refused _ _ _ := ⟨error, rfl⟩

/- One entity for one record. -/
theorem single
    {record : StoreRecord}
    {e : EntityOf t}
    (hRecords : records transcript = [record])
    (hCarries : repo.Carries d e record)
    (hHolds : d.Holds record.cas) :
    KeepsTokens repo d transcript (.ok [e]) where
  kept entities hOk := by
    cases hOk
    rw [hRecords]
    exact .cons hCarries .nil
  refused given hMem hNot := by
    rw [hRecords, List.mem_singleton] at hMem
    exact absurd (hMem ▸ hHolds) hNot

/- Nothing for nothing. -/
theorem nil
    (hNone : records transcript = []) :
    KeepsTokens repo d transcript (.ok []) where
  kept entities hOk := by
    cases hOk
    rw [hNone]
    exact .nil
  refused record hMem := by
    rw [hNone] at hMem
    cases hMem

/- Entities that are found one after the other. -/
theorem append
    {first second : Transcript T K}
    {found : List (EntityOf t)}
    (hFirst : KeepsTokens repo d first (.ok found))
    (hSecond : KeepsTokens repo d second outcome) :
    KeepsTokens repo d (first ++ second)
      (outcome.map (found ++ ·)) where
  kept entities hOk := by
    cases outcome with
    | error failure => cases hOk
    | ok others =>
        cases hOk
        rw [records_append]
        exact
          List.rel_append (hFirst.kept _ rfl)
            (hSecond.kept _ rfl)
  refused record hMem hNot := by
    rw [records_append] at hMem
    rcases List.mem_append.mp hMem with hMem | hMem
    · rcases hFirst.refused record hMem hNot with ⟨_, hError⟩
      cases hError
    · rcases hSecond.refused record hMem hNot with ⟨error, rfl⟩
      exact ⟨error, rfl⟩

end KeepsTokens

------------------------------------------------------------
-- Endings
------------------------------------------------------------

/- A record that is written back has a token that can be held. -/
theorem holds_of_finishWrite
    {e e' : EntityOf t}
    {plan : WritePlan}
    {record : StoreRecord}
    (hDescriptor : repo.mapping.descriptor t = .ok d)
    (h :
      (repo.finishWrite e plan record).Ends
        before transcript (.ok e') after) :
    d.Holds record.cas := by
  rcases ends_finishWrite h with
    ⟨d', _, written, hDescriptor', -, hWritten, -⟩
  cases hDescriptor.symm.trans hDescriptor'
  exact ⟨_, written, hWritten⟩

/- A record that is read back has a token that can be held. -/
theorem holds_of_finishFind
    {plan : Plan}
    {record : StoreRecord}
    {e : EntityOf t}
    (hDescriptor : repo.mapping.descriptor t = .ok d)
    (h :
      (repo.finishFind t plan (.ok record) :
          Task T K (Option (EntityOf t))).Ends
        before transcript (.ok (some e)) after) :
    d.Holds record.cas := by
  rcases ends_finishFind h with
    ⟨_, payload, d', decoded, hSame, -, hDescriptor', hDecoded, -⟩
  cases hSame
  cases hDescriptor.symm.trans hDescriptor'
  rcases Codec.withToken_of_decode hDescriptor hDecoded with
    ⟨read, hToken⟩
  exact ⟨read, decoded, hToken⟩

------------------------------------------------------------
-- Operations
------------------------------------------------------------

/- A write keeps the token of its record. -/
theorem write_keepsTokens
    {intent : WriteIntent}
    {e : EntityOf t}
    {outcome : Except Failure (EntityOf t)}
    (hDescriptor : repo.mapping.descriptor t = .ok d)
    (hTracks : d.TracksVersion)
    (h :
      (repo.write intent e scope).Ends
        before transcript outcome after) :
    KeepsTokens repo d transcript (outcome.map ([·])) := by
  rcases ends_write h with
    ⟨hNone, -, failure, rfl⟩ | ⟨w, submission, closing, result,
      rfl, hSubmission, hClosing⟩
  · exact .of_none (records_eq_nil hNone)
  · cases result with
    | error cause =>
        rcases Task.ends_fail_iff.mp hClosing with ⟨-, rfl, -⟩
        exact .of_error
    | ok record =>
        rcases Task.ends_ofResult_bind_iff.mp hClosing with
          ⟨_, hError, -⟩ | ⟨_, hOk, hFinish⟩
        · cases hError
        cases hOk
        rcases finishWrite_cases hFinish with
          ⟨e', rfl⟩ | ⟨error, rfl⟩
        · have hRecords :
              records (w.opening ++ submission ++ closing) =
                [record] := by
            have hHooks :=
              finishWrite_hooked _ _ _ _ _ _ _ _ hFinish
            have hOpening : submissions w.opening = [] :=
              w.settled.submissions_eq
            rw [records_around hOpening hHooks.submissions_eq_nil,
              hSubmission.records_of_ok]
          exact
            .single hRecords
              (carries_of_finishWrite hDescriptor hTracks
                hFinish)
              (holds_of_finishWrite hDescriptor hFinish)
        · exact .of_error

/- Finding keeps the token of its record. -/
theorem find_keepsTokens
    {id : Text}
    {options : ReadOptions}
    {outcome : Except Failure (Option (EntityOf t))}
    (hDescriptor : repo.mapping.descriptor t = .ok d)
    (hTracks : d.TracksVersion)
    (h :
      (repo.find t id options scope).Ends
        before transcript outcome after) :
    KeepsTokens repo d transcript
      (outcome.map Option.toList) := by
  rcases ends_find h with
    ⟨hNone, -, failure, rfl⟩ | ⟨target, opening, submission,
      closing, answer, rfl, hSettled, hSubmission, hClosing⟩
  · exact .of_none (records_eq_nil hNone)
  · have hRecords :
        records (opening ++ submission ++ closing) =
          records submission := by
      have hHooks := finishFind_hooked _ _ _ _ _ _ _ _ hClosing
      exact
        records_around hSettled.submissions_eq
          hHooks.submissions_eq_nil
    cases answer with
    | error cause =>
        rcases ends_finishFind_error hClosing with ⟨-, -, rfl⟩
        split
        · rename_i hMissing
          rw [hSubmission.records_of_missing hMissing] at hRecords
          exact .nil hRecords
        · exact .of_error
    | ok record =>
        rcases ends_finishFind_ok hClosing with
          ⟨e, rfl⟩ | ⟨error, rfl⟩
        · exact
            .single
              (hRecords.trans hSubmission.records_of_ok)
              (carries_of_finishFind hDescriptor hTracks
                hClosing)
              (holds_of_finishFind hDescriptor hClosing)
        · exact .of_error

/- Finding one after the other keeps the tokens of all records. -/
theorem findAll_keepsTokens
    {ids : List Text}
    {options : ReadOptions}
    {outcome : Except Failure (List (EntityOf t))}
    (hDescriptor : repo.mapping.descriptor t = .ok d)
    (hTracks : d.TracksVersion)
    (h :
      (repo.findAll t options scope ids).Ends
        before transcript outcome after) :
    KeepsTokens repo d transcript outcome := by
  induction ids generalizing before transcript outcome after with
  | nil =>
      rcases Task.ends_pure_iff.mp h with ⟨rfl, rfl, -⟩
      exact .nil rfl
  | cons id rest ih =>
      rcases ends_findAll_cons h with
        ⟨failure, hFind, rfl⟩ |
          ⟨first, found, _, second, others, rfl, hFind, hOthers,
            rfl⟩
      · exact find_keepsTokens hDescriptor hTracks hFind
      · have hFound :=
          find_keepsTokens hDescriptor hTracks hFind
        exact hFound.append (ih hOthers)

/-
  For a version field in a member of any type: a token is
  refused exactly if it exceeds a signed member, else it is
  read back and touches no other member; a member that is
  negative or empty reads as zero. Whatever the store answers,
  writing, finding and finding a list keep the tokens of all
  records. Only a transaction key that a descriptor puts into
  the very member of the token can take its place afterwards.
-/
theorem tokens_never_truncated
    {name : Text}
    {type : TokenType}
    {m : Member (EntityTypes.schema t) type.fieldType}
    (hDescriptor : repo.mapping.descriptor t = .ok d)
    (hVersion : d.version? = some ⟨name, .member type m⟩) :
    (∀ (e : EntityOf t) (token : UInt64),
        if type.Exceeds token then
          d.withToken e token =
            .error (VersionBinding.doesNotFit name token)
        else
          ∃ e',
            d.withToken e token = .ok e' ∧
              d.tokenOf e' = .ok (some token) ∧
              ∀ i, m.index ≠ i → e'.value i = e.value i) ∧
      (∀ token, d.Holds token ↔ ¬ type.Exceeds token) ∧
      (∀ e : EntityOf t,
        type.IsUnset (e.get m) →
          repo.mapping.tokenOf e = .ok 0) ∧
      (∀ (e : EntityOf t) record,
        repo.Carries d e record →
          record.result? = none ∨ d.KeyApart →
            repo.mapping.tokenOf e = .ok record.cas) ∧
      (∀ {K : Hooks T} {scope before after}
          {transcript : Transcript T K},
        (∀ intent (e : EntityOf t) outcome,
            (repo.write intent e scope).Ends
                before transcript outcome after →
              KeepsTokens repo d transcript
                (outcome.map ([·]))) ∧
          (∀ id options outcome,
            (repo.find t id options scope).Ends
                before transcript outcome after →
              KeepsTokens repo d transcript
                (outcome.map Option.toList)) ∧
          ∀ ids options outcome,
            (repo.findAll t options scope ids).Ends
                before transcript outcome after →
              KeepsTokens repo d transcript outcome) := by
  have hTracks := Descriptor.tracksVersion_of_member hVersion
  refine
    ⟨Descriptor.withToken_exact hVersion,
      fun token => Descriptor.holds_iff hVersion,
      fun e hUnset => ?_,
      fun e record hCarries hApart =>
        hCarries.token hDescriptor hApart,
      ?_⟩
  · rw [Mapping.tokenOf_eq hDescriptor,
      (Descriptor.tokenOf_eq_none_iff hVersion e).mpr hUnset]
    rfl
  · intro K scope before after transcript
    exact
      ⟨fun _ _ _ => write_keepsTokens hDescriptor hTracks,
        fun _ _ _ => find_keepsTokens hDescriptor hTracks,
        fun _ _ _ => findAll_keepsTokens hDescriptor hTracks⟩

/- Bea cannot be found under a token that she cannot hold. -/
theorem tokens_never_truncated_of_bea :
    let s :=
      Sample.sceneWith "u1" "\x7b\x7d" 9223372036854775808
    let d : Descriptor (EntityTypes.schema Sample.EntityType.user) :=
      (Sample.Declaration.usual .user).descriptor
    let task : Task _ (scriptedHooks _) _ :=
      s.repository.find .user (Text.lit "u1") {} {}
    ∃ m error,
      s.repository.mapping.descriptor .user = .ok d ∧
        d.version? =
          some ⟨Text.lit "cas", .member .int64 m⟩ ∧
        (s.work task).1.map Option.toList =
          .error (.error error) := by
  intro s d task
  have hDescriptor :
      s.repository.mapping.descriptor .user = .ok d :=
    rfl
  have hVersion :
      d.version? =
        some ⟨Text.lit "cas", .member .int64 ⟨⟨1, by decide⟩, rfl⟩⟩ :=
    rfl
  have hRecords :
      (records (s.transcriptOf task)).map StoreRecord.cas =
        [9223372036854775808] := by
    decide +kernel
  rcases List.map_eq_singleton_iff.mp hRecords with
    ⟨record, hRecord, hCas⟩
  rcases tokens_never_truncated hDescriptor hVersion with
    ⟨-, hHolds, -, -, hKeeps⟩
  have hFound :=
    (hKeeps.2.1 _ _ _ (Session.ends_work s task)).refused record
      (by rw [hRecord]; exact List.mem_singleton_self _)
      (by rw [hHolds, hCas]; decide +kernel)
  rcases hFound with ⟨error, hError⟩
  exact ⟨_, error, hDescriptor, hVersion, hError⟩

end Repository

end DocumentMapper
