import DocumentMapper.Proofs.Codec.Failing
import DocumentMapper.Proofs.Dialogue.Context
import DocumentMapper.Proofs.Repository.Discipline
import DocumentMapper.Proofs.Session.Runs
import DocumentMapper.Sample.Scene

/-
  What the errors of a write name.

  The kind of a write is decided before anything is done: by
  the token of the given entity and the active attempt. An
  upsert inside an attempt, and an entity without an
  identifier, are refused there. From then on every error
  names the kind, the identifier and a collection, whichever
  step it comes from, provided that collaborators and
  registered conversions fail with bare errors. Only a version
  getter that throws comes before the decision, and its
  exception is the end of the write.

  Key definitions include:
    * `Conversions.FailBare`
    * `Repository.RefusedAtOnce`, `Repository.Decided`
    * `Repository.NamesWrite`

  Main statements include:
    * `Codec.encode_failsBare`
    * `Writeback.apply_failsOnly`
    * `Repository.resolve_failsOnly`
    * `Repository.submit_failsOnly`
    * `Repository.submitPlan_failsOnly`
    * `Repository.ends_write_decided`
    * `Repository.write_errors_named`
-/

namespace DocumentMapper

variable {T : Type}
variable [EntityTypes T]
variable {K : Hooks T}
variable {t : T}

------------------------------------------------------------
-- Conversions and Codecs
------------------------------------------------------------

/- Registered conversions fail with bare errors. -/
def Conversions.FailBare
    (s : Conversions) : Prop :=
  s.FailOnlyWith Error.IsBare

theorem ConversionFault.toError_isBare
    (fault : ConversionFault) :
    fault.toError.IsBare := by
  cases fault <;> exact ⟨rfl, rfl, rfl⟩

/- A type that is not registered is told of in a bare error. -/
theorem Mapping.descriptor_failsBare
    (m : Mapping T)
    (t : T) :
    (m.descriptor t).FailsOnly Error.IsBare := by
  unfold Mapping.descriptor
  split
  · exact .ok _
  · exact .error ⟨rfl, rfl, rfl⟩

/- So is a token that does not fit. -/
theorem Descriptor.withToken_failsBare
    {S : Schema}
    (d : Descriptor S)
    (e : Entity S)
    (token : UInt64) :
    (d.withToken e token).FailsOnly Error.IsBare := by
  unfold withToken
  split
  · unfold VersionBinding.set
    split
    · split
      · exact .ok _
      · exact .error ⟨rfl, rfl, rfl⟩
    · exact .ok _
    · exact .ok _
  · exact .ok _

/- So is a document that cannot be printed. -/
theorem Document.toPayload_failsBare
    (document : Document) :
    document.toPayload.FailsOnly Error.IsBare := by
  unfold toPayload
  split
  · exact .ok _
  · exact .error ⟨rfl, rfl, rfl⟩

/- Entities are refused with bare errors. -/
theorem Codec.toDocument_failsBare
    {S : Schema}
    {c : Codec T}
    (hConversions : c.mapping.conversions.FailBare)
    (d : Descriptor S)
    (e : Entity S) :
    (c.toDocument d e).FailsOnly Error.IsBare := by
  apply Result.FailsOnly.map
  apply writeAttributes_failsOnly
  · exact
      Conversions.write_failsOnly
        ConversionFault.toError_isBare hConversions
  · intro id field cause hCause
    exact ⟨hCause.operation, hCause.documentId, hCause.collection⟩

/- Whatever step of encoding fails, it does so barely. -/
theorem Codec.encode_failsBare
    {c : Codec T}
    (hConversions : c.mapping.conversions.FailBare)
    (e : EntityOf t)
    (collection : Text) :
    (c.encode e collection : Step T K Document).FailsBare := by
  have hConverted :
      ∀ (d : Descriptor (EntityTypes.schema t))
        (converted : EntityOf t),
        Step.FailsBare (do
          let document ← Step.ofResult (c.toDocument d converted)
          if c.hasCallbacks then
            inspect e document collection
          publishIf c.hasBus
            ⟨.beforeSave, t, e, some document, collection⟩
          return document : Step T K Document) := by
    intro d converted
    apply Step.FailsBare.bind
    · exact .ofResult (toDocument_failsBare hConversions d _)
    intro document
    have hEnd :
        Step.FailsBare (do
          publishIf c.hasBus
            ⟨.beforeSave, t, e, some document, collection⟩
          return document : Step T K Document) :=
      .bind (.publishIf _ _) fun _ => .pure document
    apply Step.FailsBare.ite
    · exact .bind (.inspect e document collection) fun _ => hEnd
    · exact hEnd
  unfold encode
  apply Step.FailsBare.bind
  · exact .ofResult (c.mapping.descriptor_failsBare t)
  intro d
  apply Step.FailsBare.bind (.publishIf _ _)
  intro _
  apply Step.FailsBare.ite
  · exact .bind (.substitute e collection) fun _ => hConverted d _
  · exact .bind (.pure e) fun _ => hConverted d _

/- So does taking over an answer. -/
theorem Writeback.apply_failsOnly
    (w : Writeback T)
    (e : EntityOf t)
    (document : Document)
    (id : Text)
    (cas : UInt64)
    (result? : Option GetResult)
    (collection : Text) :
    Task.FailsOnly (K := K) Error.IsBare
      (w.apply e document id cas result? collection) := by
  unfold apply
  apply Task.FailsOnly.bind
  · exact .ofResult (w.mapping.descriptor_failsBare t)
  intro d
  apply Task.FailsOnly.bind
  · exact .ofResult (d.withToken_failsBare _ cas)
  intro written
  apply Task.FailsOnly.bind
  · unfold keep
    split
    · exact .bind (.saveResult _) fun key => .pure _
    · exact .pure written
  intro kept
  exact .bind (.ofStep (.publishIf _ _)) fun _ => .pure kept

namespace Repository

variable {repo : Repository T}
variable {scope : CallScope}
variable {intent : WriteIntent}
variable {e : EntityOf t}
variable {before after : ResultRegistry}
variable {transcript : Transcript T K}

------------------------------------------------------------
-- Collaborators
------------------------------------------------------------

/- A name that is not resolved is named in the error. -/
theorem resolve_failsOnly
    (repo : Repository T)
    (name : CollectionName)
    (kind : RequestKind)
    (id : Text) :
    Task.FailsOnly (K := K) (Error.Names · kind id name)
      (repo.resolve name kind id) := by
  unfold resolve
  apply Task.FailsOnly.ite
  · apply Task.FailsOnly.ask_bind
    intro reply hReply
    cases reply with
    | ok resolved => exact .pure resolved
    | failed cause =>
        have hCause : cause.IsBare := hReply
        exact .fail (hCause.ofResolution.names kind id name)
    | threw what =>
        have hBare := Error.isBare_ofException what
        exact .fail (hBare.ofResolution.names kind id name)
  · have hBare :
        (Error.invalidState
          (Text.lit "No collection resolver configured")).IsBare :=
      ⟨rfl, rfl, rfl⟩
    exact .fail (hBare.names kind id name)

/- A request that fails is named in the error. -/
theorem Submission.names
    {request : Request}
    {attempt? : Option Attempt}
    {result : Result StoreRecord}
    (h : Submission repo request attempt? transcript result)
    (hBare : OnlyBare transcript) :
    result.FailsOnly
      (Error.Names · request.kind request.id
        request.collection) := by
  have hNames :
      ∀ {cause : Error}, cause.IsBare →
        (cause.withContext request.kind.name request.id
            request.collection.qualified).Names
          request.kind request.id request.collection := by
    intro cause hCause
    exact hCause.names _ _ _
  cases h with
  | stopped => exact .error (hNames ⟨rfl, rfl, rfl⟩)
  | unconnected hConnects =>
      exact .error (hNames ⟨rfl, rfl, rfl⟩)
  | answered hConnects reply stop =>
      cases stop with
      | true => exact .error (hNames ⟨rfl, rfl, rfl⟩)
      | false =>
          rw [onlyBare_cons_iff, onlyBare_cons_iff] at hBare
          cases reply with
          | ok record => exact .ok record
          | failed cause =>
              have hCause : cause.IsBare := hBare.2.1
              exact .error (hNames hCause.ofExecution)
          | threw what =>
              have hCause := Error.isBare_ofException what
              exact .error (hNames hCause.ofExecution)

theorem submit_failsOnly
    (repo : Repository T)
    (request : Request)
    (attempt? : Option Attempt) :
    Task.FailsOnly (K := K)
      (Error.Names · request.kind request.id request.collection)
      (repo.submit request attempt?) := by
  intro before transcript outcome after h hBare error hError
  rcases ends_submit h with ⟨-, result, hOutcome, hSubmission⟩
  rw [hOutcome] at hError
  cases result with
  | ok record => cases hError
  | error cause =>
      cases hError
      exact hSubmission.names hBare _ rfl

/- Looking for an earlier result does not fail. -/
theorem earlierResult_failsOnly
    {S : Schema}
    {P : Error → Prop}
    (d : Descriptor S)
    (given : Entity S) :
    Task.FailsOnly (K := K) P (earlierResult d given) := by
  unfold earlierResult
  split
  · exact .ite (.bind .registry fun _ => .pure _) (.pure _)
  · exact .pure none

/- Handing over a planned request and taking over its answer. -/
theorem submitPlan_failsOnly
    (repo : Repository T)
    (e : EntityOf t)
    (plan : WritePlan) :
    Task.FailsOnly (K := K)
      (Error.Names · plan.request.kind plan.request.id
        plan.request.collection)
      (do
        let record ← repo.submit plan.request plan.attempt?
        repo.finishWrite e plan record) := by
  apply Task.FailsOnly.bind (submit_failsOnly _ _ _)
  intro record
  apply Task.FailsOnly.inContext
  exact Writeback.apply_failsOnly _ _ _ _ _ _ _

------------------------------------------------------------
-- The Decision
------------------------------------------------------------

/-
  The write is refused as an invalid argument before anybody
  but the provider of attempts is asked, and keeps nothing.
-/
structure RefusedAtOnce
    (error : Error)
    (before after : ResultRegistry)
    (transcript : Transcript T K)
    (outcome : Except Failure (EntityOf t)) : Prop where
  code : error.code = .invalidArgument
  outcome_eq : outcome = .error (.error error)
  asked : OnlyProvider transcript
  kept : after = before

/-
  How a write goes on once its attempt and its token are known.
  Its kind is refused, or its entity has no identifier, or it
  resolves the collection; and every error from then on names
  the kind, the identifier and the resolved collection.
-/
inductive Decided
    (repo : Repository T)
    (intent : WriteIntent)
    (e : EntityOf t)
    (name : CollectionName)
    (token : UInt64)
    (attempt? : Option Attempt)
    (asked : Transcript T K)
    (before : ResultRegistry) :
    Transcript T K →
      Except Failure (EntityOf t) → ResultRegistry → Prop where
  | refused {cause : Error}
      (hKind :
        requestKind intent token attempt?.isSome
            ((repo.mapping.idOf e).getD []) name.qualified =
          .error cause) :
      Decided repo intent e name token attempt? asked before
        asked (.error (.error cause)) before
  | unidentified {kind : RequestKind}
      (hKind :
        requestKind intent token attempt?.isSome
            ((repo.mapping.idOf e).getD []) name.qualified =
          .ok kind)
      (hId : repo.mapping.idOf e = none) :
      Decided repo intent e name token attempt? asked before
        asked (.error (.error (noIdentifier kind))) before
  | resumed {kind : RequestKind}
      {id : Text}
      {tail : CollectionName → Task T K (EntityOf t)}
      {rest : Transcript T K}
      {outcome : Except Failure (EntityOf t)}
      {after : ResultRegistry}
      (hKind :
        requestKind intent token attempt?.isSome
            ((repo.mapping.idOf e).getD []) name.qualified =
          .ok kind)
      (hId : repo.mapping.idOf e = some id)
      (hTail :
        ∀ resolved,
          Task.FailsOnly (Error.Names · kind id resolved)
            (tail resolved))
      (hRest :
        (repo.resolve name kind id >>= tail).Ends before rest
          outcome after) :
      Decided repo intent e name token attempt? asked before
        (asked ++ rest) outcome after

/- A write whose token can be read asks for the attempt first. -/
theorem ends_write_decided
    {d : Descriptor (EntityTypes.schema t)}
    {name : CollectionName}
    {token : UInt64}
    {outcome : Except Failure (EntityOf t)}
    (hDescriptor : repo.mapping.descriptor t = .ok d)
    (hName : name = chosenCollection repo.settings d scope)
    (hConversions : repo.mapping.conversions.FailBare)
    (hToken : repo.mapping.tokenOf e = .ok token)
    (h :
      (repo.write intent e scope).Ends
        before transcript outcome after) :
    ∃ asked attempt?,
      OnlyProvider asked ∧
        repo.IsActive scope asked attempt? ∧
        Decided repo intent e name token attempt? asked before
          transcript outcome after := by
  subst hName
  rw [write_eq] at h
  unfold planWrite at h
  simp only [bind_assoc] at h
  cases ends_decision h with
  | unregistered hError =>
      rw [hDescriptor] at hError
      cases hError
  | unreadable _ hError =>
      rw [hToken] at hError
      cases hError
  | refused hFound hRead hProvider hActive hKind =>
      cases hDescriptor.symm.trans hFound
      cases hToken.symm.trans hRead
      exact ⟨_, _, hProvider, hActive, .refused hKind⟩
  | @decided _ _ attempt? asked _ kind _ _ hFound hRead
      hProvider hActive hKind h₁ =>
      cases hDescriptor.symm.trans hFound
      cases hToken.symm.trans hRead
      refine ⟨asked, attempt?, hProvider, hActive, ?_⟩
      cases hId : repo.mapping.idOf e with
      | none =>
          rw [hId, Task.fail_bind] at h₁
          rcases Task.ends_fail_iff.mp h₁ with ⟨rfl, rfl, rfl⟩
          rw [List.append_nil]
          exact .unidentified hKind hId
      | some id =>
          rw [hId] at h₁
          simp only [bind_assoc, pure_bind] at h₁
          refine .resumed hKind hId ?_ h₁
          intro resolved
          apply Task.FailsOnly.bind
          · apply Task.FailsOnly.inContext
            exact .ofStep (Codec.encode_failsBare hConversions e _)
          intro document
          apply Task.FailsOnly.bind
          · apply Task.FailsOnly.inContext
            exact .ofResult document.toPayload_failsBare
          intro payload
          apply Task.FailsOnly.bind
          · exact .ite (earlierResult_failsOnly d e) (.pure none)
          intro earlier?
          exact submitPlan_failsOnly repo e
            { request :=
                { kind, id
                  payload? := some payload
                  cas := if kind = .replace then token else 0
                  collection := resolved
                  expiry :=
                    writeExpiry repo.settings scope document.expiry
                  durability := scope.durability
                  earlier? }
              attempt?, document
              collection :=
                (chosenCollection repo.settings d
                  scope).collection }

/- A getter of tokens that throws ends the write. -/
theorem ends_write_of_unreadable
    {d : Descriptor (EntityTypes.schema t)}
    {what : Text}
    {outcome : Except Failure (EntityOf t)}
    (hDescriptor : repo.mapping.descriptor t = .ok d)
    (hToken : repo.mapping.tokenOf e = .error what)
    (h :
      (repo.write intent e scope).Ends
        before transcript outcome after) :
    outcome = .error (.thrown what) ∧ transcript = [] ∧
      after = before := by
  unfold write at h
  cases ends_decision h with
  | unregistered hError =>
      rw [hDescriptor] at hError
      cases hError
  | unreadable _ hThrown =>
      cases hToken.symm.trans hThrown
      exact ⟨rfl, rfl, rfl⟩
  | refused _ hRead =>
      rw [hToken] at hRead
      cases hRead
  | decided _ hRead =>
      rw [hToken] at hRead
      cases hRead

------------------------------------------------------------
-- Errors of Writes
------------------------------------------------------------

/-
  An error names the kind, the identifier, and the collection
  that was asked for or the one that the resolver answered.
-/
def NamesWrite
    (error : Error)
    (kind : RequestKind)
    (id : Text)
    (name : CollectionName)
    (transcript : Transcript T K) : Prop :=
  ∃ collection : CollectionName,
    (collection = name ∨
        ⟨.resolve name, .ok collection⟩ ∈ transcript) ∧
      error.Names kind id collection

/- Resolving a collection, and what then names it. -/
theorem resolve_bind_names
    {name : CollectionName}
    {kind : RequestKind}
    {id : Text}
    {tail : CollectionName → Task T K (EntityOf t)}
    {error : Error}
    (hTail :
      ∀ resolved,
        Task.FailsOnly (Error.Names · kind id resolved)
          (tail resolved))
    (h :
      (repo.resolve name kind id >>= tail).Ends
        before transcript (.error (.error error)) after)
    (hBare : OnlyBare transcript) :
    NamesWrite error kind id name transcript := by
  rcases Task.ends_bind_iff.mp h with
    ⟨failure, hResolve, hFailed⟩ |
      ⟨first, resolved, between, later, hSplit, hResolve, hLater⟩
  · cases hFailed
    have hNames :=
      resolve_failsOnly repo name kind id _ _ _ _ hResolve hBare
        error rfl
    exact ⟨name, .inl rfl, hNames⟩
  · rw [hSplit, onlyBare_append_iff] at hBare
    have hNames :=
      hTail resolved _ _ _ _ hLater hBare.2 error rfl
    refine ⟨resolved, .inr ?_, hNames⟩
    rw [hSplit, (ends_resolve_ok hResolve).2]
    simp

/-
  A write that is refused, and every error of a write, goes
  back to the kind that was decided first. Where the version
  getter throws, its exception is all that happens. Else an
  upsert inside an attempt is refused at once, and so is an
  entity without an identifier. Every other error names the
  kind, the identifier, and a collection.
-/
theorem write_errors_named
    {d : Descriptor (EntityTypes.schema t)}
    {name : CollectionName}
    {outcome : Except Failure (EntityOf t)}
    (hDescriptor : repo.mapping.descriptor t = .ok d)
    (hName : name = chosenCollection repo.settings d scope)
    (hConversions : repo.mapping.conversions.FailBare)
    (h :
      (repo.write intent e scope).Ends
        before transcript outcome after)
    (hBare : OnlyBare transcript) :
    (∀ what,
      repo.mapping.tokenOf e = .error what →
        outcome = .error (.thrown what) ∧ transcript = [] ∧
          after = before) ∧
    (∀ token,
      repo.mapping.tokenOf e = .ok token →
        ∃ asked attempt?,
          asked <+: transcript ∧ OnlyProvider asked ∧
            repo.IsActive scope asked attempt? ∧
            (intent = .upsert →
              attempt?.isSome = true →
                RefusedAtOnce
                  (upsertInAttempt.withContext
                    RequestKind.upsert.name
                    ((repo.mapping.idOf e).getD [])
                    name.qualified)
                  before after transcript outcome) ∧
            (repo.mapping.idOf e = none →
              ¬ (intent = .upsert ∧ attempt?.isSome = true) →
                ∃ kind,
                  repo.KindFor attempt? kind
                      (.write intent t e) ∧
                    RefusedAtOnce (noIdentifier kind) before
                      after transcript outcome) ∧
            ∀ error,
              outcome = .error (.error error) →
                ∃ kind,
                  repo.KindFor attempt? kind
                      (.write intent t e) ∧
                    error.operation = kind.name ∧
                    (repo.mapping.idOf e = none ∧
                        error = noIdentifier kind ∨
                      NamesWrite error kind
                        ((repo.mapping.idOf e).getD []) name
                        transcript)) := by
  constructor
  · intro what hToken
    exact ends_write_of_unreadable hDescriptor hToken h
  intro token hToken
  rcases ends_write_decided hDescriptor hName hConversions hToken
      h with
    ⟨asked, attempt?, hProvider, hActive, hDecided⟩
  have hNotRefused :
      ∀ {kind : RequestKind},
        requestKind intent token attempt?.isSome
            ((repo.mapping.idOf e).getD []) name.qualified =
          .ok kind →
        ¬ (intent = .upsert ∧ attempt?.isSome = true) := by
    rintro kind hKind ⟨hIntent, hInside⟩
    rw [requestKind_error_iff.mpr ⟨hIntent, hInside, rfl⟩] at hKind
    cases hKind
  refine ⟨asked, attempt?, ?_⟩
  cases hDecided with
  | @refused cause hKind =>
      -- the upsert check comes first, also without an identifier
      rcases requestKind_error_iff.mp hKind with
        ⟨hIntent, hInside, hCause⟩
      subst hIntent hCause
      have hBareRefusal : upsertInAttempt.IsBare := ⟨rfl, rfl, rfl⟩
      have hNames :=
        hBareRefusal.names .upsert
          ((repo.mapping.idOf e).getD []) name
      refine
        ⟨List.prefix_refl _, hProvider, hActive, ?_, ?_, ?_⟩
      · intro _ _
        exact ⟨rfl, rfl, hProvider, rfl⟩
      · intro _ hOther
        exact absurd ⟨rfl, hInside⟩ hOther
      · intro error hError
        cases hError
        exact
          ⟨.upsert, rfl, hNames.operation,
            .inr ⟨name, .inl rfl, hNames⟩⟩
  | @unidentified kind hKind hId =>
      have hKindFor := (kindFor_write hToken hKind).1
      refine
        ⟨List.prefix_refl _, hProvider, hActive, ?_, ?_, ?_⟩
      · intro hIntent hInside
        exact absurd ⟨hIntent, hInside⟩ (hNotRefused hKind)
      · intro _ _
        exact ⟨kind, hKindFor, rfl, rfl, hProvider, rfl⟩
      · intro error hError
        cases hError
        exact ⟨kind, hKindFor, rfl, .inl ⟨hId, rfl⟩⟩
  | @resumed kind id tail rest outcome after hKind hId hTail
      hRest =>
      have hKindFor := (kindFor_write hToken hKind).1
      refine
        ⟨List.prefix_append _ _, hProvider, hActive, ?_, ?_, ?_⟩
      · intro hIntent hInside
        exact absurd ⟨hIntent, hInside⟩ (hNotRefused hKind)
      · intro hNone
        rw [hId] at hNone
        cases hNone
      · intro error hError
        subst hError
        rw [onlyBare_append_iff] at hBare
        rcases resolve_bind_names hTail hRest hBare.2 with
          ⟨collection, hCollection, hNames⟩
        rw [hId, Option.getD_some]
        refine
          ⟨kind, hKindFor, hNames.operation,
            .inr ⟨collection, ?_, hNames⟩⟩
        exact
          hCollection.imp_right (List.mem_append_right asked)

/-
  Ann is saved inside an attempt, without a token, and an
  auditor objects once she is there. She was to be inserted,
  and that is what the error names.
-/
theorem write_errors_named_of_ann :
    let s := Sample.auditedScene
    let save : Task _ (scriptedHooks _) _ :=
      s.repository.write .save (Sample.someone "p1" 0 "Ann")
        (Sample.inAttempt "T1")
    let name : CollectionName :=
      ⟨Text.lit "_default", Text.lit "_default"⟩
    ∃ error,
      (s.work save).1 = .error (.error error) ∧
        error.code = .invalidState ∧
        NamesWrite error .insert (Text.lit "p1") name
          (s.transcriptOf save) := by
  intro s save name
  let told : Error :=
    { code := .invalidState
      message := Text.lit "audit down"
      operation := Text.lit "insert"
      documentId := Text.lit "p1"
      collection := Text.lit "_default._default" }
  have hTold : (s.work save).1 = .error (.error told) := by
    rw [← Failure.told?_eq_some_iff]
    decide +kernel
  have hBare : OnlyBare (s.transcriptOf save) := by
    decide +kernel
  have hConversions :
      s.repository.mapping.conversions.FailBare :=
    Conversions.standard_failOnlyWith
      ConversionFault.toError_isBare
  have hEnds := Session.ends_work s save
  have hName :
      name =
        chosenCollection s.repository.settings
          (Sample.Declaration.usual .person).descriptor
          (Sample.inAttempt "T1") :=
    rfl
  rcases write_errors_named rfl hName hConversions hEnds
      hBare with
    ⟨-, hReadable⟩
  rcases hReadable 0 rfl with
    ⟨asked, attempt?, -, -, hActive, -, -, hErrors⟩
  have hAttempt : attempt? = some (Text.lit "T1") := hActive
  subst hAttempt
  rcases hErrors told hTold with
    ⟨kind, ⟨token, hToken, hKind⟩, -, hNames⟩
  cases hToken
  have hInsert : kind = .insert := hKind
  subst hInsert
  rcases hNames with ⟨hNone, -⟩ | hNames
  · cases hNone
  · exact ⟨told, hTold, rfl, hNames⟩

/-
  An account whose token cannot be read is not refused when it
  is upserted inside an attempt: the exception of its getter
  comes first.
-/
theorem upsert_inside_of_unreadable :
    let upsert : Task _ (scriptedHooks _) _ :=
      Sample.scene.repository.write .upsert Sample.unreadable
        (Sample.inAttempt "T1")
    Sample.scene.repository.mapping.descriptor
        Sample.EntityType.account =
          .ok (Sample.Declaration.usual .account).descriptor ∧
      (Sample.scene.work upsert).1 =
        .error (.thrown (Text.lit "bad revision")) ∧
      ∀ error,
        (Sample.scene.work upsert).1 ≠ .error (.error error) := by
  intro upsert
  have hThrown :
      (Sample.scene.work upsert).1 =
        .error (.thrown (Text.lit "bad revision")) :=
    rfl
  refine ⟨rfl, hThrown, ?_⟩
  intro error hError
  rw [hThrown] at hError
  cases hError

end Repository

end DocumentMapper
