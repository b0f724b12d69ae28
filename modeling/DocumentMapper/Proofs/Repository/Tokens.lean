import DocumentMapper.Proofs.Codec.Decoding
import DocumentMapper.Proofs.Repository.Dispatch
import DocumentMapper.Proofs.Result

/-
  How version tokens travel.

  The token of a stored document comes back in the entity that
  is found or written, and the token of an entity goes out with
  the request that saves it.

  Key definitions include:
    * `Repository.Carries`

  Main statements include:
    * `Repository.carries_of_finishWrite`, `Repository.token_of_write`
    * `Repository.carries_of_finishFind`, `Repository.token_of_find`
    * `Repository.ends_save_submitted`
-/

namespace DocumentMapper

variable {T : Type}
variable [EntityTypes T]
variable {K : Hooks T}
variable {t : T}

------------------------------------------------------------
-- Tokens of Answers
------------------------------------------------------------

/- Keeping a result does not disturb the token. -/
theorem Writeback.tokenOf_kept
    {S : Schema}
    {d : Descriptor S}
    {result? : Option GetResult}
    (h : result? = none ∨ d.KeyApart)
    (e : Entity S)
    (registry : ResultRegistry) :
    d.tokenOf (Writeback.kept d e registry result?) =
      d.tokenOf e := by
  cases result? with
  | none => rfl
  | some result =>
      rcases h with hNone | hApart
      · cases hNone
      · exact hApart _ _

namespace Repository

variable {repo : Repository T}
variable {scope : CallScope}
variable {before after : ResultRegistry}
variable {transcript : Transcript T K}
variable {d : Descriptor (EntityTypes.schema t)}

/-
  The entity had exactly the token of the record, before the
  key of a transaction result, if any, was put into it.
-/
def Carries
    (repo : Repository T)
    (d : Descriptor (EntityTypes.schema t))
    (e : EntityOf t)
    (record : StoreRecord) : Prop :=
  ∃ written registry,
    repo.mapping.tokenOf written = .ok record.cas ∧
      e = Writeback.kept d written registry record.result?

/- It still has the token, unless the key took its place. -/
theorem Carries.token
    {e : EntityOf t}
    {record : StoreRecord}
    (hDescriptor : repo.mapping.descriptor t = .ok d)
    (hApart : record.result? = none ∨ d.KeyApart)
    (h : repo.Carries d e record) :
    repo.mapping.tokenOf e = .ok record.cas := by
  rcases h with ⟨written, registry, hToken, rfl⟩
  rw [Mapping.tokenOf_eq hDescriptor] at hToken ⊢
  rw [Writeback.tokenOf_kept hApart]
  exact hToken

/- Writing a record back yields its token. -/
theorem carries_of_finishWrite
    {e e' : EntityOf t}
    {plan : WritePlan}
    {record : StoreRecord}
    (hDescriptor : repo.mapping.descriptor t = .ok d)
    (hTracks : d.TracksVersion)
    (h :
      (repo.finishWrite e plan record).Ends
        before transcript (.ok e') after) :
    repo.Carries d e' record := by
  rcases ends_finishWrite h with
    ⟨d', _, written, hDescriptor', -, hWritten, rfl⟩
  cases hDescriptor.symm.trans hDescriptor'
  refine ⟨written, before, ?_, rfl⟩
  rw [Mapping.tokenOf_eq hDescriptor, hTracks _ _ _ hWritten]
  rfl

/- Reading a record back yields its token. -/
theorem carries_of_finishFind
    {e : EntityOf t}
    {plan : Plan}
    {record : StoreRecord}
    (hDescriptor : repo.mapping.descriptor t = .ok d)
    (hTracks : d.TracksVersion)
    (h :
      (repo.finishFind t plan (.ok record) :
          Task T K (Option (EntityOf t))).Ends
        before transcript (.ok (some e)) after) :
    repo.Carries d e record := by
  rcases ends_finishFind h with
    ⟨_, payload, d', decoded, hSame, -, hDescriptor', hDecoded,
      rfl⟩
  cases hSame
  cases hDescriptor.symm.trans hDescriptor'
  refine ⟨decoded, before, ?_, rfl⟩
  rw [Mapping.tokenOf_eq hDescriptor,
    Codec.tokenOf_decode hDescriptor hTracks hDecoded]
  rfl

/- A written entity has the token of the answer. -/
theorem token_of_write
    {intent : WriteIntent}
    {e e' : EntityOf t}
    (hDescriptor : repo.mapping.descriptor t = .ok d)
    (hTracks : d.TracksVersion)
    (h :
      (repo.write intent e scope).Ends
        before transcript (.ok e') after) :
    ∃ attempt? request record,
      ⟨.submit attempt? request, .ok record⟩ ∈ transcript ∧
        (request.kind = .insert ∨ request.kind = .upsert ∨
          request.kind = .replace) ∧
        (record.result? = none ∨ d.KeyApart →
          repo.mapping.tokenOf e' = .ok record.cas) := by
  rcases ends_write_ok h with
    ⟨w, submission, closing, record, rfl, hSubmission, hClosing⟩
  have hMem :=
    List.mem_append_left closing
      (List.mem_append_right w.opening hSubmission.mem_of_ok)
  exact
    ⟨_, _, record, hMem, requestKind_isWrite w.kind_eq,
      fun hApart =>
        (carries_of_finishWrite hDescriptor hTracks
          hClosing).token hDescriptor hApart⟩

/- A found entity has the token of the answer. -/
theorem token_of_find
    {id : Text}
    {options : ReadOptions}
    {e : EntityOf t}
    (hDescriptor : repo.mapping.descriptor t = .ok d)
    (hTracks : d.TracksVersion)
    (h :
      (repo.find t id options scope).Ends
        before transcript (.ok (some e)) after) :
    ∃ attempt? request record,
      ⟨.submit attempt? request, .ok record⟩ ∈ transcript ∧
        request.kind = .get ∧
        (record.result? = none ∨ d.KeyApart →
          repo.mapping.tokenOf e = .ok record.cas) := by
  rcases ends_find h with
    ⟨-, -, failure, hError⟩ | ⟨target, opening, submission,
      closing, answer, rfl, -, hSubmission, hClosing⟩
  · cases hError
  · rcases ends_finishFind hClosing with ⟨record, _, _, _, rfl, -⟩
    have hMem :=
      List.mem_append_left closing
        (List.mem_append_right opening hSubmission.mem_of_ok)
    exact
      ⟨_, _, record, hMem, rfl, fun hApart =>
        (carries_of_finishFind hDescriptor hTracks
          hClosing).token hDescriptor hApart⟩

------------------------------------------------------------
-- Tokens of Saves
------------------------------------------------------------

/- No request is handed over before the plan is made. -/
theorem WriteDispatch.submit_not_mem_opening
    {intent : WriteIntent}
    {e : EntityOf t}
    (w : WriteDispatch K repo intent e scope)
    {attempt? : Option Attempt}
    {request : Request}
    (reply : Reply StoreRecord) :
    ⟨.submit attempt? request, reply⟩ ∉ w.opening := by
  intro hMem
  have hSome := mem_submissions_iff.mpr ⟨reply, hMem⟩
  rw [WriteDispatch.opening, w.settled.submissions_eq] at hSome
  exact List.not_mem_nil hSome

/-
  Saving an entity that has a token replaces the document
  under this token; what the store refuses, fails.
-/
theorem ends_save_submitted
    {e : EntityOf t}
    {v : UInt64}
    {attempt? : Option Attempt}
    {request : Request}
    {reply : Reply StoreRecord}
    {outcome : Except Failure (EntityOf t)}
    (hToken : repo.mapping.tokenOf e = .ok v)
    (hNonzero : v ≠ 0)
    (h :
      (repo.write .save e scope).Ends
        before transcript outcome after)
    (hMem :
      ⟨.submit attempt? request, reply⟩ ∈ transcript) :
    request.kind = .replace ∧ request.cas = v ∧
      repo.mapping.idOf e = some request.id ∧
      request.payload?.isSome ∧
      ∀ cause, reply = .failed cause →
        ∃ error,
          outcome = .error (.error error) ∧
            (Unstopped transcript →
              error =
                cause.ofExecution.withContext
                  request.kind.name request.id
                  request.collection.qualified) := by
  rcases ends_write h with
    ⟨hNone, -⟩ | ⟨w, submission, closing, result, rfl,
      hSubmission, hClosing⟩
  · have hSome := mem_submissions_iff.mpr ⟨reply, hMem⟩
    rw [hNone] at hSome
    cases hSome
  · have hHooks : OnlyHooks closing :=
      Task.Hooked.bind (.ofResult _)
        (fun _ => finishWrite_hooked _ _ _ _) _ _ _ _ hClosing
    have hIn :
        ⟨.submit attempt? request, reply⟩ ∈ submission := by
      rcases List.mem_append.mp hMem with hMem | hMem
      · rcases List.mem_append.mp hMem with hMem | hMem
        · exact absurd hMem (w.submit_not_mem_opening reply)
        · exact hMem
      · exact (hHooks _ hMem).elim
    rcases hSubmission.of_mem hIn with ⟨rfl, rfl, stop, hStop, rfl⟩
    have hSame : w.token = v := by
      cases w.token_eq.symm.trans hToken
      rfl
    have hKind : w.kind = .replace := by
      have hKind := w.kind_eq
      rw [hSame] at hKind
      simp only [requestKind, ne_eq, hNonzero, not_false_eq_true,
        if_true, Except.ok.injEq] at hKind
      exact hKind.symm
    refine ⟨hKind, ?_, w.id_eq, rfl, ?_⟩
    · show (if w.kind = .replace then w.token else 0) = v
      rw [if_pos hKind, hSame]
    · rintro cause rfl
      cases stop with
      | true =>
          rcases Task.ends_fail_iff.mp hClosing with ⟨rfl, rfl, -⟩
          refine ⟨_, rfl, fun hUnstopped => ?_⟩
          cases hUnstopped true (by simp [hStop])
      | false =>
          rcases Task.ends_fail_iff.mp hClosing with ⟨rfl, rfl, -⟩
          exact ⟨_, rfl, fun _ => rfl⟩

end Repository

end DocumentMapper
