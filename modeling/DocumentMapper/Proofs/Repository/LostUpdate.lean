import DocumentMapper.Proofs.Repository.Discipline
import DocumentMapper.Proofs.Repository.Tokens
import DocumentMapper.Proofs.Store.History

/-
  No update is lost.

  However many operations run against one store, and in
  whatever order their questions come: an entity with a token
  is saved only while its document has this very token. Then
  nothing has happened to the document since the revision that
  the entity was made from.

  Key definitions include:
    * `Returned`
    * `History.ReturnsStored`

  Main statements include:
    * `History.returnsStored`
    * `History.no_lost_update`
-/

namespace DocumentMapper

variable {T : Type}
variable [EntityTypes T]
variable {K : Hooks T}
variable {I : Type}
variable [DecidableEq I]

/- The entity is one of those that an operation returned. -/
inductive Returned :
    (op : Operation T) → op.Outcome →
      (t : T) → EntityOf t → Prop where
  | write
      {intent : WriteIntent}
      {t : T}
      {e saved : EntityOf t} :
      Returned (.write intent t e) saved t saved
  | find
      {t : T}
      {id : Text}
      {options : ReadOptions}
      {e : EntityOf t} :
      Returned (.find t id options) (some e) t e
  | findAll
      {t : T}
      {ids : List Text}
      {options : ReadOptions}
      {found : List (EntityOf t)}
      {e : EntityOf t}
      (hMem : e ∈ found) :
      Returned (.findAll t ids options) found t e

namespace History

variable {h : History T K I}
variable {i : I}
variable {t : T}

------------------------------------------------------------
-- Tokens of Returned Entities
------------------------------------------------------------

/-
  The entity was returned for a document that was stored at
  some moment of the operation, and it has the token that the
  document then had. Inside an attempt this takes a key that
  does not share the place of the token.
-/
def ReturnsStored
    (h : History T K I)
    (i : I)
    (repo : Repository T)
    (d : Descriptor (EntityTypes.schema t))
    (e : EntityOf t) : Prop :=
  ∃ (s : h.Serving i) (document : StoredDocument),
    s.after.store.document? s.request.place = some document ∧
      (s.attempt? = none ∨ d.KeyApart →
        repo.mapping.tokenOf e = .ok document.cas)

/- An answered request stands for a stored document. -/
theorem returnsStored_of_mem
    {repo : Repository T}
    {d : Descriptor (EntityTypes.schema t)}
    {e : EntityOf t}
    {attempt? : Option Attempt}
    {request : Request}
    {record : StoreRecord}
    (hMem :
      ⟨.submit attempt? request, .ok record⟩ ∈ h.trace.of i)
    (hKind :
      request.kind = .get ∨ request.kind = .insert ∨
        request.kind = .upsert ∨ request.kind = .replace)
    (hToken :
      record.result? = none ∨ d.KeyApart →
        repo.mapping.tokenOf e = .ok record.cas) :
    h.ReturnsStored i repo d e := by
  rcases exists_serving hMem with ⟨s, rfl, rfl, hReply⟩
  have hServes := s.serves
  rw [hReply] at hServes
  rcases hServes.stored_token hKind with
    ⟨document, hFound, hCas, hResult⟩
  refine ⟨s, document, hFound, fun hEither => ?_⟩
  rw [hCas]
  exact hToken (hEither.imp_left hResult)

/- Whatever an operation returns, it has the stored token. -/
theorem returnsStored
    {a : Activity T}
    {value : a.op.Outcome}
    {d : Descriptor (EntityTypes.schema t)}
    {e : EntityOf t}
    (hFinished : h.Finished i a (.ok value))
    (hReturned : Returned a.op value t e)
    (hDescriptor : a.repo.mapping.descriptor t = .ok d)
    (hTracks : d.TracksVersion) :
    h.ReturnsStored i a.repo d e := by
  rcases hFinished with ⟨-, after, hEnds⟩
  rcases a with ⟨repo, scope, registry, op⟩
  dsimp only at hReturned hDescriptor
  cases hReturned with
  | write =>
      rcases Repository.token_of_write hDescriptor hTracks
          hEnds with
        ⟨attempt?, request, record, hMem, hKind, hToken⟩
      exact returnsStored_of_mem hMem (.inr hKind) hToken
  | find =>
      rcases Repository.token_of_find hDescriptor hTracks hEnds with
        ⟨attempt?, request, record, hMem, hKind, hToken⟩
      exact returnsStored_of_mem hMem (.inl hKind) hToken
  | findAll hFound =>
      rcases Repository.ends_findAll hEnds with
        ⟨runs, hTrace, -, hRuns⟩
      rcases hRuns _ rfl e hFound with ⟨run, hRun, hOutcome⟩
      have hFind := run.ends
      rw [hOutcome] at hFind
      rcases Repository.token_of_find hDescriptor hTracks hFind with
        ⟨attempt?, request, record, hMem, hKind, hToken⟩
      have hAll :
          ⟨.submit attempt? request, .ok record⟩ ∈
            h.trace.of i := by
        rw [hTrace]
        exact
          List.mem_flatten.mpr
            ⟨_, List.mem_map_of_mem hRun, hMem⟩
      exact returnsStored_of_mem hAll (.inl hKind) hToken

------------------------------------------------------------
-- Saves
------------------------------------------------------------

variable {repo : Repository T}
variable {scope : CallScope}
variable {registry : ResultRegistry}
variable {d : Descriptor (EntityTypes.schema t)}
variable {e : EntityOf t}
variable {v : UInt64}
variable {outcome : Except Failure (EntityOf t)}

/- A save of an entity with a token asks for a replacement. -/
theorem Serving.of_save
    (s : h.Serving i)
    (hFinished :
      h.Finished i ⟨repo, scope, registry, .write .save t e⟩
        outcome)
    (hToken : repo.mapping.tokenOf e = .ok v)
    (hNonzero : v ≠ 0) :
    s.request.kind = .replace ∧ s.request.cas = v ∧
      repo.mapping.idOf e = some s.request.id ∧
      ((∃ token,
          s.before.Replaces s.attempt? s.request s.reply
            s.after token) ∨
        s.before.Misses s.request s.reply s.after) := by
  rcases hFinished with ⟨-, after, hEnds⟩
  rcases Repository.ends_save_submitted hToken hNonzero hEnds
      s.mem with
    ⟨hKind, hCas, hId, -, -⟩
  exact
    ⟨hKind, hCas, hId,
      s.serves.replaces_or_misses s.consistent hKind
        (hCas ▸ hNonzero)⟩

/- The payload that is stored is that of the encoded entity. -/
theorem Serving.payload_of_save
    (s : h.Serving i)
    (hFinished :
      h.Finished i ⟨repo, scope, registry, .write .save t e⟩
        outcome) :
    repo.PayloadFor scope (h.trace.of i) s.request
      (.write .save t e) := by
  rcases hFinished with ⟨-, after, hEnds⟩
  have hMem := mem_submissions_iff.mpr ⟨_, s.mem⟩
  rcases Repository.write_disciplined hEnds with
    hNone | ⟨attempt?, request, hOne, hWell⟩
  · rw [hNone] at hMem
    cases hMem
  · rw [hOne] at hMem
    cases List.mem_singleton.mp hMem
    exact hWell.payload

/- A save that succeeds has replaced its own revision. -/
theorem exists_replaces_of_save
    {saved : EntityOf t}
    (hFinished :
      h.Finished i ⟨repo, scope, registry, .write .save t e⟩
        (.ok saved))
    (hDescriptor : repo.mapping.descriptor t = .ok d)
    (hTracks : d.TracksVersion)
    (hToken : repo.mapping.tokenOf e = .ok v)
    (hNonzero : v ≠ 0) :
    ∃ (s : h.Serving i) (token : UInt64),
      s.before.Replaces s.attempt? s.request s.reply s.after
          token ∧
        (s.attempt? = none ∨ d.KeyApart →
          repo.mapping.tokenOf saved = .ok token) := by
  rcases id hFinished with ⟨-, after, hEnds⟩
  rcases Repository.token_of_write hDescriptor hTracks hEnds with
    ⟨attempt?, request, record, hMem, -, hSaved⟩
  rcases exists_serving hMem with ⟨s, rfl, rfl, hReply⟩
  rcases (s.of_save hFinished hToken hNonzero).2.2.2 with
    ⟨token, hReplaces⟩ | hMisses
  · refine ⟨s, token, hReplaces, fun hEither => ?_⟩
    rcases hReplaces.answered with ⟨given, hGiven, rfl, hResult⟩
    cases hReply.symm.trans hGiven
    exact hSaved (hEither.imp_left hResult)
  · cases hReply.symm.trans hMisses.answered

/- A save that misses its revision fails, and says why. -/
theorem Serving.error_of_misses
    (s : h.Serving i)
    (hFinished :
      h.Finished i ⟨repo, scope, registry, .write .save t e⟩
        outcome)
    (hToken : repo.mapping.tokenOf e = .ok v)
    (hNonzero : v ≠ 0)
    (hMisses : s.before.Misses s.request s.reply s.after) :
    ∃ error,
      outcome = .error (.error error) ∧
        (Unstopped (h.trace.of i) →
          if (s.before.store.document?
              s.request.place).isSome then
            error.code = .versionConflict
          else
            error.isStorageFault .documentNotFound) := by
  rcases hFinished with ⟨-, after, hEnds⟩
  rcases Repository.ends_save_submitted hToken hNonzero hEnds
      s.mem with
    ⟨-, -, -, -, hFails⟩
  rcases hFails _ hMisses.answered with ⟨error, rfl, hError⟩
  refine ⟨error, rfl, fun hUnstopped => ?_⟩
  rw [hError hUnstopped]
  cases s.before.store.document? s.request.place with
  | none => rfl
  | some document => rfl

/-
  No update is lost. Of an entity with a token:

  a save that succeeds has found this token in the store, with
  no change of the document since, and has put a fresh one in
  its place;

  a save that finds the token puts a fresh one in its place;
  one that does not find it changes nothing and fails;

  and the token itself, if the entity was returned by some
  operation, was that of the document at that time.
-/
theorem no_lost_update
    (hFinished :
      h.Finished i ⟨repo, scope, registry, .write .save t e⟩
        outcome)
    (hDescriptor : repo.mapping.descriptor t = .ok d)
    (hTracks : d.TracksVersion)
    (hToken : repo.mapping.tokenOf e = .ok v)
    (hNonzero : v ≠ 0) :
    (submissions (h.trace.of i)).length ≤ 1 ∧
      (∀ saved, outcome = .ok saved →
        ∃ (s : h.Serving i) (token : UInt64),
          s.request.cas = v ∧
            s.before.Replaces s.attempt? s.request s.reply
              s.after token ∧
            (s.attempt? = none ∨ d.KeyApart →
              repo.mapping.tokenOf saved = .ok token)) ∧
      (∀ s : h.Serving i,
        s.request.kind = .replace ∧ s.request.cas = v ∧
          repo.mapping.idOf e = some s.request.id ∧
          repo.PayloadFor scope (h.trace.of i) s.request
            (.write .save t e) ∧
          ((∃ document,
              s.before.store.document? s.request.place =
                  some document ∧
                document.cas = v) →
            ∃ token,
              s.before.Replaces s.attempt? s.request s.reply
                s.after token) ∧
          ((∀ document,
              s.before.store.document? s.request.place =
                  some document →
                document.cas ≠ v) →
            s.after = s.before ∧
              ∃ error,
                outcome = .error (.error error) ∧
                  (Unstopped (h.trace.of i) →
                    if (s.before.store.document?
                        s.request.place).isSome then
                      error.code = .versionConflict
                    else
                      error.isStorageFault
                        .documentNotFound))) ∧
      ∀ (j : I) (a : Activity T) (value : a.op.Outcome)
        (given : EntityOf t),
        h.Finished j a (.ok value) →
          Returned a.op value t given →
            a.repo.mapping.descriptor t = .ok d →
              h.ReturnsStored j a.repo d given := by
  refine ⟨?_, ?_, ?_, ?_⟩
  · rcases hFinished with ⟨-, after, hEnds⟩
    rcases Repository.write_disciplined hEnds with
      hNone | ⟨attempt?, request, hOne, -⟩
    · simp [hNone]
    · simp [hOne]
  · rintro saved rfl
    rcases exists_replaces_of_save hFinished hDescriptor hTracks
        hToken hNonzero with
      ⟨s, token, hReplaces, hSaved⟩
    exact
      ⟨s, token, (s.of_save hFinished hToken hNonzero).2.1,
        hReplaces, hSaved⟩
  · intro s
    rcases s.of_save hFinished hToken hNonzero with
      ⟨hKind, hCas, hId, hEither⟩
    refine
      ⟨hKind, hCas, hId, s.payload_of_save hFinished, ?_, ?_⟩
    · rintro ⟨document, hFound, hSame⟩
      rcases hEither with hReplaces | hMisses
      · exact hReplaces
      · exact
          absurd (hSame.trans hCas.symm)
            (hMisses.stored document hFound)
    · intro hOther
      rcases hEither with ⟨token, hReplaces⟩ | hMisses
      · rcases hReplaces.stored with ⟨document, hFound, hSame⟩
        exact
          absurd (hSame.trans hCas) (hOther document hFound)
      · exact
          ⟨hMisses.unchanged,
            s.error_of_misses hFinished hToken hNonzero
              hMisses⟩
  · intro j a value given hReturns hReturned hSame
    exact returnsStored hReturns hReturned hSame hTracks

end History

------------------------------------------------------------
-- A Sample Save
------------------------------------------------------------

namespace Sample

/- The next token of the store is fresh. -/
theorem annStored_isFresh :
    (Ledger.opening annStored.store.memory).IsFresh 8 := by
  refine ⟨by decide, nofun, fun place document hFound => ?_⟩
  have hLookUp :
      annStored.store.memory.document? place =
        if placeOf (Text.lit "_default._default")
            (Text.lit "p1") = place then
          some ⟨Text.lit "\x7b\x7d", 7⟩
        else
          none :=
    TextMap.get?_insert _ _ _ _
  have hSame := hLookUp.symm.trans hFound
  split at hSame
  · cases hSame
    decide
  · cases hSame

/- The store carries out the one request of the save. -/
theorem annSave_runs :
    ∃ final,
      (Ledger.opening annStored.store.memory).Runs
        (annStored.soloTrace (annStored.activity {} annSave))
        final :=
  ⟨_, .asked rfl <| .asked rfl <| .asked rfl <| .asked rfl <|
    .asked rfl <| .asked rfl <| .asked rfl <|
    .served (.ok annStored_isFresh rfl) <|
    .asked rfl <| .asked rfl <| .done _⟩

/- The save succeeds. -/
theorem annSave_ok :
    ∃ saved,
      (Session.work (annStored.activity {} annSave).task
        annStored).1 = .ok saved :=
  ⟨_, rfl⟩

end Sample

/- Ann is saved under the token that the store has for her. -/
theorem History.no_lost_update_of_ann :
    ∃ (h : History Sample.EntityType
        (scriptedHooks Sample.EntityType) Unit)
      (s : h.Serving ()) (token : UInt64),
      s.request.cas = 7 ∧
        s.before.Replaces s.attempt? s.request s.reply s.after
          token := by
  rcases Sample.annSave_runs with ⟨final, hRuns⟩
  rcases Sample.annSave_ok with ⟨saved, hSaved⟩
  have hFinished := Session.history_finished hRuns
  rw [hSaved] at hFinished
  have hDescriptor :
      (Sample.annStored.activity {}
          Sample.annSave).repo.mapping.descriptor .person =
        .ok (Sample.Declaration.usual .person).descriptor :=
    rfl
  have hTracks :
      (Sample.Declaration.usual
        .person).descriptor.TracksVersion :=
    Descriptor.tracksVersion_of_member (by rfl)
  have hToken :
      (Sample.annStored.activity {}
          Sample.annSave).repo.mapping.tokenOf Sample.ann =
        .ok 7 :=
    rfl
  obtain ⟨-, hReplaced, -⟩ :=
    no_lost_update hFinished hDescriptor hTracks hToken
      (by decide)
  rcases hReplaced _ rfl with ⟨s, token, hCas, hReplaces, -⟩
  exact ⟨_, s, token, hCas, hReplaces⟩

end DocumentMapper
