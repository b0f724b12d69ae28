import DocumentMapper.Proofs.Codec.RoundTrip
import DocumentMapper.Proofs.Repository.Tokens
import DocumentMapper.Proofs.Session.Plain

/-
  Reading what was written.

  Reads and writes agree on where a document is: on the
  collection, on the attempt and on the identifier. What a
  write leaves there is the payload of its entity, and a read
  makes the entity of it again, unless the token that was
  assigned hides the mark of the type.

  Key definitions include:
    * `Steady`
    * `Repository.FoundAsWritten`

  Main statements include:
    * `Repository.Target.SettledIn.agree`
    * `Repository.WriteDispatch.kept`
    * `Repository.outcome_of_kept`
    * `Repository.read_your_writes`
-/

namespace DocumentMapper

variable {T : Type}
variable [EntityTypes T]
variable {K : Hooks T}
variable {t : T}

------------------------------------------------------------
-- Kept Keys
------------------------------------------------------------

section Kept

variable {S : Schema}
variable {d : Descriptor S}

/- Keeping a result does not disturb the identifier. -/
theorem Writeback.idOf_kept
    (h : d.KeyLayout)
    (e : Entity S)
    (registry : ResultRegistry)
    (result? : Option GetResult) :
    d.idOf (Writeback.kept d e registry result?) = d.idOf e := by
  cases result? with
  | none => rfl
  | some result => exact h.idOf_withKey _ _

/- Keeping a result does not disturb the attributes. -/
theorem Writeback.value_kept
    {field : AttributeBinding S}
    (h : d.KeyLayout)
    (hField : field ∈ d.fields)
    (e : Entity S)
    (registry : ResultRegistry)
    (result? : Option GetResult) :
    (Writeback.kept d e registry result?).value field.index =
      e.value field.index := by
  cases result? with
  | none => rfl
  | some result => exact h.value_withKey field hField _ _

end Kept

------------------------------------------------------------
-- Steady Worlds
------------------------------------------------------------

/- Equal names are resolved alike, and the active attempt stays. -/
structure Steady
    (transcript : Transcript T K) : Prop where
  resolver :
    ∀ name reply reply',
      (name, reply) ∈ resolutions transcript →
        (name, reply') ∈ resolutions transcript →
          reply = reply'
  provider :
    ∀ a ∈ providedAttempts transcript,
      ∀ b ∈ providedAttempts transcript, a = b

namespace Repository

variable {repo : Repository T}
variable {scope : CallScope}
variable {before between after : ResultRegistry}
variable {transcript : Transcript T K}

/- In a steady world there is one active attempt. -/
theorem IsActive.eq_of_steady
    {first second : Transcript T K}
    {attempt? other? : Option Attempt}
    (hSteady : Steady transcript)
    (hFirst : first ⊆ transcript)
    (hSecond : second ⊆ transcript)
    (h : repo.IsActive scope first attempt?)
    (hOther : repo.IsActive scope second other?) :
    attempt? = other? := by
  unfold IsActive at h hOther
  cases hScope : scope.attempt? with
  | some attempt =>
      rw [hScope] at h hOther
      exact h.trans hOther.symm
  | none =>
      rw [hScope] at h hOther
      dsimp only at h hOther
      split at h
      · rw [if_pos ‹_›] at hOther
        refine hSteady.provider _ ?_ _ ?_
        · apply List.filterMap_subset _ hFirst
          show _ ∈ providedAttempts first
          rw [h]
          exact List.mem_singleton_self _
        · apply List.filterMap_subset _ hSecond
          show _ ∈ providedAttempts second
          rw [hOther]
          exact List.mem_singleton_self _
      · rw [if_neg ‹_›] at hOther
        exact h.trans hOther.symm

/- In a steady world operations of one scope have one target. -/
theorem Target.SettledIn.agree
    {target other : Target repo t scope}
    {first second : Transcript T K}
    (hSteady : Steady transcript)
    (hFirst : first ⊆ transcript)
    (hSecond : second ⊆ transcript)
    (h : target.SettledIn first)
    (hOther : other.SettledIn second) :
    other.resolved = target.resolved ∧
      other.attempt? = target.attempt? := by
  have hName : other.name = target.name := by
    have hSame : other.descriptor = target.descriptor :=
      Except.ok.inj
        (other.descriptor_eq.symm.trans target.descriptor_eq)
    unfold Target.name
    rw [hSame]
  have hReply :
      (Reply.ok other.resolved : Reply CollectionName) =
        .ok target.resolved := by
    apply hSteady.resolver target.name _ _
    · apply List.filterMap_subset _ hSecond
      show _ ∈ resolutions second
      rw [hOther.resolutions_eq, hName]
      exact List.mem_singleton_self _
    · apply List.filterMap_subset _ hFirst
      show _ ∈ resolutions first
      rw [h.resolutions_eq]
      exact List.mem_singleton_self _
  exact
    ⟨Reply.ok.inj hReply,
      hOther.active.eq_of_steady hSteady hSecond hFirst
        h.active⟩

------------------------------------------------------------
-- What a Write Leaves
------------------------------------------------------------

namespace WriteDispatch

variable {intent : WriteIntent}
variable {e saved : EntityOf t}
variable {submission closing : Transcript T K}
variable {record : StoreRecord}

/- An accepted write has handed over its request and no other. -/
theorem submissions_eq
    (w : WriteDispatch K repo intent e scope)
    (hSubmission :
      Submission repo (w.plan before).request w.attempt?
        submission (.ok record))
    (hClosing : OnlyHooks closing) :
    submissions (w.opening ++ submission ++ closing) =
      [(w.attempt?,
        (w.plan before).request.shownTo w.attempt?)] := by
  have hOpening : submissions w.opening = [] :=
    w.settled.submissions_eq
  rw [hSubmission.of_ok, submissions_append, submissions_append,
    hOpening, hClosing.submissions_eq_nil]
  rfl

/- Its payload is kept under the token that it was answered with. -/
theorem kept
    {shelf shelf' : Shelf}
    (w : WriteDispatch K repo intent e scope)
    (hSubmission :
      Submission repo (w.plan before).request w.attempt?
        submission (.ok record))
    (hClosing : OnlyHooks closing)
    (hRuns :
      shelf.Runs (w.opening ++ submission ++ closing) shelf') :
    record.id = w.id ∧
      shelf' w.attempt? w.resolved.qualified w.id =
        some ⟨w.payload, record.cas⟩ := by
  have hMem :=
    List.mem_append_left closing
      (List.mem_append_right w.opening hSubmission.mem_of_ok)
  have hServes :=
    hRuns.serves (w.submissions_eq hSubmission hClosing) hMem
  exact
    hServes.stores record w.payload
      (requestKind_isWrite w.kind_eq) rfl rfl

/- The entity is returned with its identifier and the new token. -/
theorem saved_eq
    (w : WriteDispatch K repo intent e scope)
    (hId : record.id = w.id)
    (hFinish :
      (repo.finishWrite e (w.plan before) record).Ends
        before closing (.ok saved) after) :
    ∃ written,
      w.descriptor.withToken
          (if w.id = [] then e else w.descriptor.withId e w.id)
          record.cas = .ok written ∧
        saved =
          Writeback.kept w.descriptor written before
            record.result? := by
  rcases ends_finishWrite hFinish with
    ⟨d, id, written, hDescriptor, rfl, hWritten, rfl⟩
  obtain rfl : w.descriptor = d :=
    Except.ok.inj (w.descriptor_eq.symm.trans hDescriptor)
  rw [hId] at hWritten
  have hSame :
      (if w.id = [] then (w.plan before).request.id else w.id) =
        w.id := by
    split
    · rfl
    · rfl
  rw [hSame] at hWritten
  exact ⟨written, hWritten, rfl⟩

end WriteDispatch

------------------------------------------------------------
-- What a Read Shows
------------------------------------------------------------

/- Finding fails where the caller asked to stop. -/
theorem finishFind_stopped
    {plan : Plan}
    {request : Request}
    {moment : String}
    {outcome : Except Failure (Option (EntityOf t))}
    (h :
      (repo.finishFind t plan (.error (stopped request moment)) :
          Task T K (Option (EntityOf t))).Ends
        before transcript outcome after) :
    ∃ error,
      outcome = .error (.error error) ∧
        error.code = .operationCancelled :=
  ⟨_, (Task.ends_fail_iff.mp h).2.1, rfl⟩

/-
  Of what is kept for a target, finding makes an entity, or
  says why it cannot; unless the caller is found to have asked
  to stop.
-/
theorem outcome_of_kept
    {target : Target repo t scope}
    {id : Text}
    {options : ReadOptions}
    {opening submission closing : Transcript T K}
    {answer : Result StoreRecord}
    {outcome : Except Failure (Option (EntityOf t))}
    {shelf shelf' : Shelf}
    {document : StoredDocument}
    (hSettled : target.SettledIn opening)
    (hConnects : repo.Connects target.attempt? = true)
    (hSubmission :
      Submission repo (target.findPlan id options).request
        target.attempt? submission answer)
    (hFinish :
      (repo.finishFind t (target.findPlan id options)
          answer).Ends
        before closing outcome after)
    (hRuns :
      shelf.Runs (opening ++ submission ++ closing) shelf')
    (hKept :
      shelf target.attempt? target.resolved.qualified id =
        some document) :
    (¬ Unstopped (opening ++ submission ++ closing) ∧
      ∃ error,
        outcome = .error (.error error) ∧
          error.code = .operationCancelled) ∨
      ∃ result?,
        outcome =
          match
            repo.codec.decode t id document.payload document.cas
          with
          | .ok decoded =>
              .ok
                (some
                  (Writeback.kept target.descriptor decoded
                    before result?))
          | .error e =>
              .error
                (.error
                  (e.withContext RequestKind.get.name id
                    target.resolved.qualified)) := by
  have hHooks : OnlyHooks closing :=
    finishFind_hooked _ _ _ _ _ _ _ _ hFinish
  cases hSubmission with
  | stopped =>
      refine .inl ⟨fun hNone => ?_, finishFind_stopped hFinish⟩
      cases hNone true (by simp)
  | unconnected hNot =>
      rw [hConnects] at hNot
      cases hNot
  | answered _ reply stop =>
      cases stop with
      | true =>
          refine
            .inl ⟨fun hNone => ?_, finishFind_stopped hFinish⟩
          cases hNone true (by simp)
      | false =>
          have hOne :
              submissions
                  (opening ++
                    [⟨.stopRequested, false⟩,
                      ⟨.submit target.attempt?
                        ((target.findPlan id
                          options).request.shownTo
                            target.attempt?), reply⟩,
                      ⟨.stopRequested, false⟩] ++ closing) =
                [(target.attempt?,
                  (target.findPlan id options).request.shownTo
                    target.attempt?)] := by
            rw [submissions_append, submissions_append,
              hSettled.submissions_eq, hHooks.submissions_eq_nil]
            rfl
          have hServes :
              shelf.Serves target.attempt?
                ((target.findPlan id options).request.shownTo
                  target.attempt?) reply shelf' :=
            hRuns.serves hOne (by simp)
          rcases hServes.shows document rfl hKept with
            ⟨record, rfl, hContent, hCas⟩
          refine .inr ⟨record.result?, ?_⟩
          have hOutcome :=
            outcome_of_finishFind target.descriptor_eq hContent
              hFinish
          rw [hCas] at hOutcome
          exact hOutcome

------------------------------------------------------------
-- Finding What Was Written
------------------------------------------------------------

/-
  What is found has the attributes of the entity, and it has
  the identifier and the token that the write returned.
-/
structure FoundAsWritten
    {S : Schema}
    (d : Descriptor S)
    (e saved found : Entity S)
    (id : Text)
    (token : UInt64) : Prop where
  attributes :
    ∀ field ∈ d.fields,
      FieldType.Alike _ (found.value field.index)
        (e.value field.index)
  identifiers :
    d.TracksId → id ≠ [] →
      d.idOf found = some id ∧ d.idOf saved = some id
  tokens :
    d.TracksVersion →
      d.tokenOf found = .ok (some token) ∧
        d.tokenOf saved = .ok (some token)

/- A decoded entity is found as its original was written. -/
theorem foundAsWritten_of_decode
    {d : Descriptor (EntityTypes.schema t)}
    {e decoded stored : EntityOf t}
    {id payload : Text}
    {token : UInt64}
    {result? result'? : Option GetResult}
    (hKeepable : repo.codec.Keepable d e)
    (hKey : d.KeyLayout)
    (hStored :
      d.withToken (if id = [] then e else d.withId e id) token =
        .ok stored)
    (hDecode :
      repo.codec.decode t id payload token = .ok decoded)
    (hAlike :
      ∀ field ∈ d.fields,
        FieldType.Alike _ (decoded.value field.index)
          (e.value field.index))
    (hId : d.idOf decoded = d.idOf (Codec.started d id)) :
    FoundAsWritten d e
      (Writeback.kept d stored before result?)
      (Writeback.kept d decoded between result'?) id token where
  attributes field hField := by
    rw [Writeback.value_kept hKey hField]
    exact hAlike field hField
  identifiers hTracks hNe := by
    rw [if_neg hNe] at hStored
    constructor
    · rw [Writeback.idOf_kept hKey, hId,
        Codec.idOf_started hTracks hNe]
    · rw [Writeback.idOf_kept hKey,
        hKeepable.layout.idOf_withToken _ _ _ hStored]
      exact hTracks e id hNe
  tokens hTracks := by
    constructor
    · rw [Writeback.tokenOf_kept (.inr hKey.keyApart)]
      exact
        Codec.tokenOf_decode hKeepable.descriptor hTracks hDecode
    · rw [Writeback.tokenOf_kept (.inr hKey.keyApart)]
      exact hTracks _ _ _ hStored

/-
  What a write has left, finding returns right afterwards. If
  the token that was assigned hides the mark of the type, the
  payload is not recognized; else the entity comes back. The
  one other end is that the caller asks to stop.
-/
theorem read_your_writes
    {intent : WriteIntent}
    {d : Descriptor (EntityTypes.schema t)}
    {e saved : EntityOf t}
    {id : Text}
    {options : ReadOptions}
    {written read : Transcript T K}
    {outcome : Except Failure (Option (EntityOf t))}
    {shelf shelf' : Shelf}
    (hKeepable : repo.codec.Keepable d e)
    (hKey : d.KeyLayout)
    (hId : repo.mapping.idOf e = some id)
    (hWrite :
      (repo.write intent e scope).Ends
        before written (.ok saved) between)
    (hUnsubstituted : Codec.Unsubstituted t written)
    (hFind :
      (repo.find t id options scope).Ends
        between read outcome after)
    (hSteady : Steady (written ++ read))
    (hRuns : shelf.Runs (written ++ read) shelf') :
    ∃ attempt? request record,
      ⟨.submit attempt? request, .ok record⟩ ∈ written ∧
        ((¬ Unstopped read ∧
          ∃ error,
            outcome = .error (.error error) ∧
              error.code = .operationCancelled) ∨
        (repo.codec.HidesMark d record.cas →
          outcome =
            .error
              (.error
                ((CodecFault.wrongType id
                  (Text.ofNat record.cas.toNat)
                  d.aliasName).toError.withContext
                    RequestKind.get.name id
                    request.collection.qualified))) ∧
        (¬ repo.codec.HidesMark d record.cas →
          ∃ found,
            outcome = .ok (some found) ∧
              FoundAsWritten d e saved found id
                record.cas)) := by
  rcases ends_write_ok hWrite with
    ⟨w, submission, closing, record, rfl, hSubmission, hFinish⟩
  obtain rfl : w.descriptor = d :=
    Except.ok.inj (w.descriptor_eq.symm.trans hKeepable.descriptor)
  obtain rfl : w.id = id :=
    Option.some.inj (w.id_eq.symm.trans hId)
  have hMem :=
    List.mem_append_left closing
      (List.mem_append_right w.opening hSubmission.mem_of_ok)
  refine ⟨_, _, record, hMem, ?_⟩
  -- the write leaves its payload with the new token
  rcases hRuns.of_append with ⟨middle, hStores, hShows⟩
  rcases w.kept hSubmission
      (finishWrite_hooked _ _ _ _ _ _ _ _ hFinish) hStores with
    ⟨hEcho, hKept⟩
  rcases w.saved_eq hEcho hFinish with ⟨stored, hStored, rfl⟩
  have hDocument :=
    hKeepable.toDocument_of_encode w.encodes
      fun hooks hHook => hUnsubstituted hooks (by
        simp [WriteDispatch.opening, hHook])
  -- the read goes to the same place
  have hOpening : w.toTarget.SettledIn w.opening := w.settled
  have hResolved :
      ∀ reply,
        (chosenCollection repo.settings w.descriptor scope,
            reply) ∈ resolutions read →
          ∃ resolved, reply = .ok resolved := by
    intro reply hReply
    refine ⟨w.resolved, ?_⟩
    apply hSteady.resolver w.toTarget.name _ _
    · rw [resolutions_append]
      exact List.mem_append_right _ hReply
    · simp only [resolutions_append, hOpening.resolutions_eq]
      simp
  rcases ends_find_of_resolved hKeepable.descriptor w.resolver
      hResolved hFind with
    ⟨target, opening, asked, ending, answer, rfl, hSettled, hAsked,
     hEnding⟩
  obtain ⟨hPlace, hAttempt⟩ :=
    hOpening.agree hSteady
      (fun x hx => by simp [hx]) (fun x hx => by simp [hx])
      hSettled
  have hSame : target.descriptor = w.descriptor :=
    Except.ok.inj
      (target.descriptor_eq.symm.trans w.descriptor_eq)
  rw [← hPlace, ← hAttempt] at hKept
  rcases outcome_of_kept hSettled
      (hAttempt ▸ hSubmission.connects_of_ok) hAsked hEnding
      hShows hKept with
    hStopped | ⟨result?, hOutcome⟩
  · exact .inl hStopped
  -- and makes of the payload what can be made of it
  rcases hKeepable.decode_toPayload ⟨_, _, hStored⟩ hDocument
      w.payload_eq w.id with
    ⟨hHidden, hShown⟩
  refine .inr ⟨fun hHides => ?_, fun hHides => ?_⟩
  · rw [hOutcome, hHidden hHides, hPlace]
    rfl
  · rcases hShown hHides with ⟨decoded, hDecode, hAlike, hStarted⟩
    rw [hDecode, hSame] at hOutcome
    exact
      ⟨_, hOutcome,
        foundAsWritten_of_decode hKeepable hKey hStored hDecode
          hAlike hStarted⟩

end Repository

------------------------------------------------------------
-- People Who Are Saved and Found
------------------------------------------------------------

namespace Session

variable {s : Session T}
variable {transcript :
  Transcript T (scriptedHooks T)}

/- Answers of one session are steady. -/
theorem steady_of_answers
    (h : ∀ x ∈ transcript, s.Answers x) :
    Steady transcript where
  resolver name reply reply' hFirst hSecond := by
    rcases List.mem_filterMap.mp hFirst with ⟨x, hx, hReply⟩
    rcases List.mem_filterMap.mp hSecond with ⟨y, hy, hReply'⟩
    rw [(h x hx).resolve name reply hReply,
      (h y hy).resolve name reply' hReply']
  provider a hFirst b hSecond := by
    rcases List.mem_filterMap.mp hFirst with ⟨x, hx, hAttempt⟩
    rcases List.mem_filterMap.mp hSecond with ⟨y, hy, hAttempt'⟩
    rw [(h x hx).attempt a hAttempt,
      (h y hy).attempt b hAttempt']

/- A caller who does not want to stop, is not found to. -/
theorem unstopped_of_answers
    (h : ∀ x ∈ transcript, s.Answers x)
    (hPatient : s.stopRequested = false) :
    Unstopped transcript := by
  intro stop hMem
  rw [(h _ hMem).stop stop rfl]
  exact hPatient

/- Without callbacks a session substitutes nothing. -/
theorem unsubstituted_of_answers
    (h : ∀ x ∈ transcript, s.Answers x)
    (hNone : s.beforeHooks t = []) :
    Codec.Unsubstituted t transcript := by
  intro hooks hMem
  rw [(h _ hMem).before t hooks rfl, hNone]

variable {α β : Type}

/-
  Two tasks in a plain session meet one store in a steady
  world, and the caller waits for both.
-/
theorem work_in_turn
    (hPlain : s.store.IsPlain)
    (hPatient : s.stopRequested = false)
    (x : Task T (scriptedHooks T) α)
    (y : Task T (scriptedHooks T) β) :
    ∃ first second between after shelf,
      x.Ends s.registry first (work x s).1 between ∧
        y.Ends between second (work y (work x s).2).1 after ∧
        Steady (first ++ second) ∧
        Unstopped second ∧
        s.shelf.Runs (first ++ second) shelf ∧
        ∀ t, s.beforeHooks t = [] → Codec.Unsubstituted t first := by
  rcases work_spec hPlain x with ⟨hStays, hFirst, hStores⟩
  rcases work_spec hStays.plain y with ⟨-, hSecond, hShows⟩
  have hLater :
      ∀ z ∈ (work x s).2.transcriptOf y, s.Answers z :=
    fun z hMem => (hSecond z hMem).of_surrounds hStays
  have hAnswers :
      ∀ z ∈ s.transcriptOf x ++ (work x s).2.transcriptOf y,
        s.Answers z := by
    intro z hMem
    rcases List.mem_append.mp hMem with hMem | hMem
    · exact hFirst z hMem
    · exact hLater z hMem
  exact
    ⟨_, _, _, _, _, ends_work s x, ends_work _ y,
      steady_of_answers hAnswers,
      unstopped_of_answers hLater hPatient,
      hStores.append hShows,
      fun t hNone => unsubstituted_of_answers hFirst hNone⟩

end Session

namespace Repository

open Sample in
/-
  Bea is found as she was saved; Ann is not recognized where her
  token hides the mark of her type.
-/
theorem read_your_writes_of_bea :
    (∃ saved found token,
      (Session.work
          (scene.repository.write .save bea {}) scene).1 =
        .ok saved ∧
      (Session.work
          (scene.repository.find .user (Text.lit "u1") {} {})
          (Session.work
            (scene.repository.write .save bea {}) scene).2).1 =
        .ok (some found) ∧
      FoundAsWritten (Declaration.usual .user).descriptor bea
        saved found (Text.lit "u1") token) ∧
    (∃ saved token collection,
      (Session.work
          (hiddenScene.repository.write .upsert ann {})
          hiddenScene).1 =
        .ok saved ∧
      (Session.work
          (hiddenScene.repository.find .person (Text.lit "p1")
            {} {})
          (Session.work
            (hiddenScene.repository.write .upsert ann {})
            hiddenScene).2).1 =
        .error
          (.error
            ((CodecFault.wrongType (Text.lit "p1") token
              (Text.lit "person")).toError.withContext
                RequestKind.get.name (Text.lit "p1")
                collection))) := by
  constructor
  · have hSaves :
        (Session.work
          (scene.repository.write .save bea {}) scene).1.isOk =
            true := by
      decide +kernel
    rcases Session.work_in_turn (s := scene)
        ⟨rfl, rfl, rfl, rfl⟩ rfl
        (scene.repository.write .save bea {})
        (scene.repository.find .user (Text.lit "u1") {} {}) with
      ⟨written, read, between, after, shelf, hWrite, hFind,
       hSteady, hUnstopped, hRuns, hAlone⟩
    generalize
      (Session.work
        (scene.repository.write .save bea {}) scene).1 =
          saved? at hWrite hSaves ⊢
    have hKey : (Declaration.usual .user).descriptor.KeyLayout :=
      Descriptor.keyLayout_of_none rfl
    have hId :
        scene.repository.mapping.idOf bea =
          some (Text.lit "u1") :=
      rfl
    cases saved? with
    | error failure => cases hSaves
    | ok saved =>
        rcases read_your_writes Codec.keepable_bea hKey hId hWrite
            (hAlone _ rfl) hFind hSteady hRuns with
          ⟨-, -, record, -, hStopped | ⟨-, hShown⟩⟩
        · exact absurd hUnstopped hStopped.1
        · have hApart :
              ¬ scene.repository.codec.HidesMark
                (Declaration.usual .user).descriptor record.cas := by
            rintro ⟨-, version, mark, hVersion, hMark⟩
            cases hVersion
            exact
              absurd (Codec.typeMark?_eq_some hMark).1 (by decide)
          rcases hShown hApart with ⟨found, hFound, hSame⟩
          exact ⟨saved, found, record.cas, rfl, hFound, hSame⟩
  · have hSaves :
        (Session.work
          (hiddenScene.repository.write .upsert ann {})
          hiddenScene).1.isOk = true := by
      decide +kernel
    have hFails :
        (Session.work
          (hiddenScene.repository.find .person (Text.lit "p1")
            {} {})
          (Session.work
            (hiddenScene.repository.write .upsert ann {})
            hiddenScene).2).1.isOk = false := by
      decide +kernel
    rcases Session.work_in_turn (s := hiddenScene)
        ⟨rfl, rfl, rfl, rfl⟩ rfl
        (hiddenScene.repository.write .upsert ann {})
        (hiddenScene.repository.find .person (Text.lit "p1")
          {} {}) with
      ⟨written, read, between, after, shelf, hWrite, hFind,
       hSteady, hUnstopped, hRuns, hAlone⟩
    generalize
      (Session.work
        (hiddenScene.repository.find .person (Text.lit "p1")
          {} {})
        (Session.work
          (hiddenScene.repository.write .upsert ann {})
          hiddenScene).2).1 = found? at hFind hFails ⊢
    generalize
      (Session.work
        (hiddenScene.repository.write .upsert ann {})
        hiddenScene).1 = saved? at hWrite hSaves ⊢
    have hKey : hiddenPerson.descriptor.KeyLayout :=
      Descriptor.keyLayout_of_members (m := idMember .person)
        (v := ⟨⟨1, by decide⟩, rfl⟩)
        (b := ⟨.optionalInt64, ⟨⟨3, by decide⟩, rfl⟩⟩)
        rfl rfl rfl (by decide) (by decide)
    have hId :
        hiddenScene.repository.mapping.idOf ann =
          some (Text.lit "p1") :=
      rfl
    cases saved? with
    | error failure => cases hSaves
    | ok saved =>
        rcases read_your_writes Codec.keepable_hidden_ann hKey hId
            hWrite (hAlone _ rfl) hFind hSteady hRuns with
          ⟨_, _, record, -, hStopped | ⟨hHidden, hShown⟩⟩
        · exact absurd hUnstopped hStopped.1
        · by_cases hHides :
              hiddenScene.repository.codec.HidesMark
                hiddenPerson.descriptor record.cas
          · exact ⟨saved, _, _, rfl, hHidden hHides⟩
          · rcases hShown hHides with ⟨found, rfl, -⟩
            cases hFails

end Repository

end DocumentMapper
