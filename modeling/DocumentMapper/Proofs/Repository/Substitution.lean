import DocumentMapper.Proofs.Codec.Showing
import DocumentMapper.Proofs.Dialogue.Replies
import DocumentMapper.Proofs.Mapping
import DocumentMapper.Proofs.Repository.Lifecycle

/-
  How far substitutes reach.

  Callbacks before conversion may put another entity in the
  place of the one that is written. It is converted, and so it
  decides on the payload, and on the identifier of the
  document that listeners and callbacks are shown. Everything
  else in the request, and the entity that is returned, comes
  from the given entity and the answers.

  Key definitions include:
    * `Descriptor.Spares`
    * `Repository.WrittenBack`

  Main statements include:
    * `Writeback.apply_alike`
    * `Repository.WriteDispatch.plan_alike`
    * `Repository.substitution_confined`
    * `Repository.shown_as_converted`
-/

namespace DocumentMapper

variable {T : Type}
variable [EntityTypes T]
variable {K : Hooks T}
variable {t : T}

------------------------------------------------------------
-- Untouched Places
------------------------------------------------------------

namespace Descriptor

variable {S : Schema}
variable {d : Descriptor S}

/- Neither identifier, token nor key of an answer go there. -/
structure Spares
    (d : Descriptor S)
    (i : S.Index) : Prop where
  value_withId :
    ∀ e id, (d.withId e id).value i = e.value i
  value_withToken :
    ∀ e token e',
      d.withToken e token = .ok e' → e'.value i = e.value i
  value_withKey :
    ∀ e key, (d.withKey e key).value i = e.value i

/- Members other than those of the three fields are spared. -/
theorem spares_of_members
    {m : Member S .string}
    {name : Text}
    {type : TokenType}
    {v : Member S type.fieldType}
    {i : S.Index}
    (hId : d.id? = some (.member m))
    (hVersion : d.version? = some ⟨name, .member type v⟩)
    (hIdNe : m.index ≠ i)
    (hVersionNe : v.index ≠ i)
    (hKeyNe : ∀ b, d.key? = some b → b.member.index ≠ i) :
    d.Spares i where
  value_withId e id := by
    simp only [withId, hId]
    exact Entity.value_set_of_ne _ _ hIdNe
  value_withToken _ _ _ hSet :=
    value_withToken_of_ne hVersion hVersionNe hSet
  value_withKey := value_withKey_of_ne hKeyNe

end Descriptor

------------------------------------------------------------
-- Endings
------------------------------------------------------------

/- Keeping a result asks nothing. -/
theorem Writeback.keep_silent
    {S : Schema}
    (d : Descriptor S)
    (e : Entity S)
    (result? : Option GetResult) :
    Task.Silent (keep d e result? : Task T K (Entity S)) :=
  fun _ => ⟨_, _, fun _ _ _ h => ends_keep_iff.mp h⟩

/- The document is for listeners only. -/
theorem Writeback.apply_alike
    (w : Writeback T)
    (e : EntityOf t)
    (document other : Document)
    (id : Text)
    (cas : UInt64)
    (result? : Option GetResult)
    (collection : Text) :
    Task.EndAlike (K := K)
      (w.apply e document id cas result? collection)
      (w.apply e other id cas result? collection) := by
  unfold apply
  refine .bind (.ofResult _) fun d => ?_
  refine .bind (.ofResult _) fun written => ?_
  refine .bind (keep_silent _ _ _) fun saved => ?_
  exact .publishIf rfl rfl _ _

/- The same plan for another document. -/
def WritePlan.withContent
    (plan : WritePlan)
    (document : Document)
    (payload : Text) : WritePlan :=
  { plan with
    request := { plan.request with payload? := some payload }
    document }

namespace Repository

variable {repo : Repository T}
variable {intent : WriteIntent}
variable {e : EntityOf t}
variable {scope : CallScope}
variable {before : ResultRegistry}

/- An answer is taken over alike, whatever was written. -/
theorem finishWrite_alike
    (repo : Repository T)
    (e : EntityOf t)
    (plan : WritePlan)
    (document : Document)
    (payload : Text)
    (result : Result StoreRecord) :
    Task.EndAlike (K := K)
      (Task.ofResult result >>= repo.finishWrite e plan)
      (Task.ofResult result >>=
        repo.finishWrite e
          (plan.withContent document payload)) := by
  refine .bind (.ofResult _) fun record => ?_
  exact (Writeback.apply_alike _ _ _ _ _ _ _ _).inContext _ _ _

/- What comes of an answer does not depend on the payload. -/
theorem answered_withContent
    (plan : WritePlan)
    (document : Document)
    (payload : Text)
    (reply : Reply StoreRecord)
    (stop : Bool) :
    answered (plan.withContent document payload).request reply
        stop =
      answered plan.request reply stop := by
  cases stop with
  | true => rfl
  | false => cases reply <;> rfl

------------------------------------------------------------
-- Plans
------------------------------------------------------------

namespace WriteDispatch

/-
  The document that is sent is that of the entity that was
  converted, and whoever was shown one was shown this one.
-/
theorem document_spec
    (d : WriteDispatch K repo intent e scope) :
    repo.codec.toDocument d.descriptor
        (converted e d.opening) =
      .ok d.document ∧
      ∀ shown ∈ shownDocuments d.opening,
        shown = d.document := by
  rcases Codec.ends_encode_ok d.encodes with
    ⟨found, hDescriptor, hDocument, hShown⟩
  obtain rfl : d.descriptor = found :=
    Except.ok.inj (d.descriptor_eq.symm.trans hDescriptor)
  have hConverted :
      converted e d.opening = converted e d.hooks := by
    unfold converted
    rw [d.returned_opening]
  have hAsked : shownDocuments d.opening = shownDocuments d.hooks := by
    unfold opening
    rcases d.provider with hNone | ⟨attempt?, hOne⟩
    · rw [hNone]
      rfl
    · rw [hOne]
      rfl
  rw [hConverted, hAsked]
  exact ⟨hDocument, hShown⟩

/-
  Two writes of an entity that found the same attempt and the
  same collection have the same plan, for documents of their
  own.
-/
theorem plan_alike
    (d other : WriteDispatch K repo intent e scope)
    (before : ResultRegistry)
    (hAttempt : d.attempt? = other.attempt?)
    (hResolved : d.resolved = other.resolved) :
    other.plan before =
      (d.plan before).withContent other.document
        other.payload := by
  have hDescriptor : d.descriptor = other.descriptor :=
    Except.ok.inj
      (d.descriptor_eq.symm.trans other.descriptor_eq)
  have hName : d.toTarget.name = other.toTarget.name := by
    unfold Target.name
    rw [hDescriptor]
  have hId : d.id = other.id :=
    Option.some.inj (d.id_eq.symm.trans other.id_eq)
  have hToken : d.token = other.token :=
    Except.ok.inj (d.token_eq.symm.trans other.token_eq)
  have hKind : d.kind = other.kind := by
    have hSame := d.kind_eq
    rw [hToken, hAttempt, hId, hName, other.kind_eq] at hSame
    exact (Except.ok.inj hSame).symm
  have hExpiry : d.document.expiry = other.document.expiry := by
    rw [Codec.toDocument_expiry d.document_spec.1,
      Codec.toDocument_expiry other.document_spec.1, hDescriptor]
  simp only [plan, WritePlan.withContent, hDescriptor, hName,
    hId, hToken, hKind, hExpiry, hAttempt, hResolved]

/-
  The request was handed over and answered, and a closing
  followed: what everyone was asked who is not a hook of the
  conversion.
-/
structure Reaches
    (d : WriteDispatch K repo intent e scope)
    (before : ResultRegistry)
    (transcript closing : Transcript T K)
    (reply : Reply StoreRecord)
    (stop : Bool) : Prop where
  submissions_eq :
    submissions transcript =
      [(d.attempt?,
        (d.plan before).request.shownTo d.attempt?)]
  active : repo.IsActive scope transcript d.attempt?
  resolutions_eq :
    resolutions transcript =
      [(d.toTarget.name, .ok d.resolved)]
  replies_eq : replies transcript = [reply]
  stopAnswers_eq : stopAnswers transcript = [false, stop]
  savedReplies_eq :
    savedReplies transcript = savedReplies closing
  returned_eq :
    returned t transcript = returned t d.opening
  shown_eq :
    ∀ shown ∈ shownDocuments transcript, shown = d.document

/- Runs that are answered alike have found and heard the same. -/
theorem Reaches.agree
    {d other : WriteDispatch K repo intent e scope}
    {first second closing ending : Transcript T K}
    {reply answer : Reply StoreRecord}
    {stop halt : Bool}
    (h : d.Reaches before first closing reply stop)
    (hOther : other.Reaches before second ending answer halt)
    (hAlike : AnsweredAlike first second) :
    d.attempt? = other.attempt? ∧
      d.resolved = other.resolved ∧
      reply = answer ∧ stop = halt ∧
      savedReplies closing = savedReplies ending := by
  have hAttempt : d.attempt? = other.attempt? :=
    h.active.unique (hOther.active.of_eq hAlike.attempts)
  have hResolved : d.resolved = other.resolved := by
    have hSame := hAlike.resolutions
    rw [h.resolutions_eq, hOther.resolutions_eq,
      List.cons_eq_cons, Prod.mk.injEq, Reply.ok.injEq] at hSame
    exact hSame.1.2
  have hReply : reply = answer := by
    have hSame := hAlike.replies
    rw [h.replies_eq, hOther.replies_eq] at hSame
    exact List.singleton_inj.mp hSame
  have hStop : stop = halt := by
    have hSame := hAlike.stops
    rw [h.stopAnswers_eq, hOther.stopAnswers_eq] at hSame
    exact (List.cons_eq_cons.mp (List.cons_eq_cons.mp hSame).2).1
  exact
    ⟨hAttempt, hResolved, hReply, hStop,
      h.savedReplies_eq.symm.trans
        (hAlike.savedReplies.trans hOther.savedReplies_eq)⟩

end WriteDispatch

/- The ending of a write shows its document and replaces nothing. -/
theorem finishWrite_shows
    {plan : WritePlan}
    {result : Result StoreRecord}
    {closing : Transcript T K}
    {outcome : Except Failure (EntityOf t)}
    {after : ResultRegistry}
    (h :
      (Task.ofResult result >>= repo.finishWrite e plan).Ends
        before closing outcome after) :
    returned t closing = [] ∧
      ∀ shown ∈ shownDocuments closing,
        shown = plan.document := by
  rcases Task.ends_ofResult_bind_iff.mp h with
    ⟨cause, -, rfl, -⟩ | ⟨record, -, hFinish⟩
  · exact ⟨rfl, nofun⟩
  rcases ends_finishWrite_cases rfl hFinish with
    ⟨rfl, -⟩ | ⟨d, written, saved, r, -, -, -, hTold, -⟩
  · exact ⟨rfl, nofun⟩
  have hAsks :=
    publishIf_asks
      (P := fun q => ∀ given ∈ q.document?,
        given = plan.document)
      nofun
      (fun _ _ hMem => (Option.mem_some_iff.mp hMem).symm)
      _ _ _ hTold
  exact
    ⟨Codec.returned_publishIf hTold,
      fun _ => eq_of_mem_shownDocuments hAsks⟩

/- A write that hands over its request goes on with the answer. -/
theorem exists_reaches
    {transcript : Transcript T K}
    {outcome : Except Failure (EntityOf t)}
    {after : ResultRegistry}
    (h :
      (repo.write intent e scope).Ends
        before transcript outcome after)
    (hReached : submissions transcript ≠ []) :
    ∃ (d : WriteDispatch K repo intent e scope)
      (closing : Transcript T K)
      (reply : Reply StoreRecord)
      (stop : Bool),
      d.Reaches before transcript closing reply stop ∧
        (Task.ofResult
              (answered (d.plan before).request reply stop) >>=
            repo.finishWrite e (d.plan before)).Ends
          before closing outcome after := by
  rcases ends_write_cases h with
    ⟨failure, -, hOnly, -, -⟩ |
      ⟨d, submission, closing, result, rfl, hOnly, hSubmission,
        hClosing⟩
  · exact absurd hOnly.submissions_eq_nil hReached
  have hHooks : OnlyHooks closing :=
    Task.Hooked.bind (.ofResult _) (finishWrite_hooked repo e _)
      _ _ _ _ hClosing
  have hSubmitted :
      submissions (d.opening ++ (submission ++ closing)) =
        submissions submission := by
    rw [submissions_append, submissions_append,
      hOnly.submissions_eq_nil, hHooks.submissions_eq_nil,
      List.append_nil, List.nil_append]
  have hAttempts :
      providedAttempts (d.opening ++ (submission ++ closing)) =
        providedAttempts d.opening := by
    rw [providedAttempts_append, providedAttempts_append,
      hSubmission.providedAttempts_eq_nil,
      hHooks.providedAttempts_eq_nil, List.append_nil,
      List.append_nil]
  have hResolutions :
      resolutions (d.opening ++ (submission ++ closing)) =
        resolutions d.opening := by
    rw [resolutions_append, resolutions_append,
      hSubmission.resolutions_eq_nil, hHooks.resolutions_eq_nil,
      List.append_nil, List.append_nil]
  rw [hSubmitted] at hReached
  rcases finishWrite_shows hClosing with ⟨hReturned, hShown⟩
  cases hSubmission with
  | stopped => exact absurd rfl hReached
  | unconnected hConnects => exact absurd rfl hReached
  | answered hConnects reply stop =>
      refine ⟨d, closing, reply, stop, ?_, hClosing⟩
      exact
        { submissions_eq := hSubmitted
          active := d.settled.active.of_eq hAttempts
          resolutions_eq :=
            hResolutions.trans d.settled.resolutions_eq
          replies_eq := by
            rw [replies_append, replies_append,
              hOnly.replies_eq_nil, hHooks.replies_eq_nil]
            rfl
          stopAnswers_eq := by
            rw [stopAnswers_append, stopAnswers_append,
              hOnly.stopAnswers_eq_nil,
              hHooks.stopAnswers_eq_nil]
            rfl
          savedReplies_eq := by
            rw [savedReplies_append, savedReplies_append,
              hOnly.savedReplies_eq_nil]
            rfl
          returned_eq := by
            rw [returned_append, returned_append, hReturned]
            exact List.append_nil _
          shown_eq := by
            intro shown hMem
            rw [shownDocuments_append, shownDocuments_append,
              List.mem_append, List.mem_append] at hMem
            rcases hMem with hMem | hMem | hMem
            · exact d.document_spec.2 shown hMem
            · cases hMem
            · exact hShown shown hMem }

------------------------------------------------------------
-- What Comes of a Substitute
------------------------------------------------------------

/-
  What is returned is the given entity with identifier, token
  and key of the answer; all else in it stays as it was.
-/
def WrittenBack
    (repo : Repository T)
    (before : ResultRegistry)
    (requested : Text)
    (record : StoreRecord)
    (e saved : EntityOf t) : Prop :=
  ∃ d id written,
    repo.mapping.descriptor t = .ok d ∧
      id = (if record.id = [] then requested else record.id) ∧
      d.withToken (if id = [] then e else d.withId e id)
          record.cas = .ok written ∧
      saved = Writeback.kept d written before record.result? ∧
      ∀ i, d.Spares i → saved.value i = e.value i

/- An ending with a value writes the answer back. -/
theorem writtenBack_of_finishWrite
    {plan : WritePlan}
    {reply : Reply StoreRecord}
    {stop : Bool}
    {closing : Transcript T K}
    {saved : EntityOf t}
    {after : ResultRegistry}
    (h :
      (Task.ofResult (answered plan.request reply stop) >>=
          repo.finishWrite e plan).Ends
        before closing (.ok saved) after) :
    ∃ record,
      reply = .ok record ∧
        repo.WrittenBack before plan.request.id record e
          saved := by
  rcases Task.ends_ofResult_bind_iff.mp h with
    ⟨cause, -, -, hError, -⟩ | ⟨record, hAnswered, hFinish⟩
  · cases hError
  rcases answered_eq_ok_iff.mp hAnswered with ⟨-, rfl⟩
  rcases ends_finishWrite hFinish with
    ⟨d, id, written, hDescriptor, hId, hWritten, rfl⟩
  refine
    ⟨record, rfl, d, id, written, hDescriptor, hId, hWritten,
      rfl, fun i hSpared => ?_⟩
  have hKept :
      (Writeback.kept d written before record.result?).value i =
        written.value i := by
    cases record.result? with
    | none => rfl
    | some result => exact hSpared.value_withKey _ _
  rw [hKept, hSpared.value_withToken _ _ _ hWritten]
  split
  · rfl
  · exact hSpared.value_withId _ _

/-
  Substitutes decide on the payload only. Two runs of a write
  that reach the executor, and in which everyone answers alike
  but the callbacks, hand over the same request up to its
  payload, in the same attempt, and end with the same outcome
  and the same registry. An entity that they return is made
  of the given one and the answer.
-/
theorem substitution_confined
    (repo : Repository T)
    (intent : WriteIntent)
    (e : EntityOf t)
    (scope : CallScope)
    (before : ResultRegistry)
    {first second : Transcript T K}
    {outcome other : Except Failure (EntityOf t)}
    {after later : ResultRegistry}
    (hFirst :
      (repo.write intent e scope).Ends
        before first outcome after)
    (hSecond :
      (repo.write intent e scope).Ends
        before second other later)
    (hFirstReached : submissions first ≠ [])
    (hSecondReached : submissions second ≠ [])
    (hAlike : AnsweredAlike first second) :
    ∃ (attempt? : Option Attempt)
      (request : Request)
      (payload substituted : Text),
      submissions first =
          [(attempt?,
            { request with payload? := some payload })] ∧
        submissions second =
          [(attempt?,
            { request with payload? := some substituted })] ∧
        repo.mapping.idOf e = some request.id ∧
        outcome = other ∧ after = later ∧
        ∀ saved,
          outcome = .ok saved →
            ∃ record,
              replies first = [.ok record] ∧
                repo.WrittenBack before request.id record e
                  saved := by
  rcases exists_reaches hFirst hFirstReached with
    ⟨d, closing, reply, stop, hReaches, hClosing⟩
  rcases exists_reaches hSecond hSecondReached with
    ⟨d', closing', reply', stop', hReaches', hClosing'⟩
  rcases hReaches.agree hReaches' hAlike with
    ⟨hAttempt, hResolved, rfl, rfl, hReplies⟩
  have hPlan := d.plan_alike d' before hAttempt hResolved
  rw [hPlan, answered_withContent] at hClosing'
  rcases finishWrite_alike repo e _ _ _ _ _ _ _ _ _ _ _
      hClosing hClosing' hReplies with
    ⟨rfl, rfl⟩
  refine
    ⟨d.attempt?, (d.plan before).request.shownTo d.attempt?,
      d.payload, d'.payload, hReaches.submissions_eq, ?_,
      d.id_eq, rfl, rfl, ?_⟩
  · rw [hReaches'.submissions_eq, hPlan, ← hAttempt]
    rfl
  · rintro saved rfl
    rcases writtenBack_of_finishWrite hClosing with
      ⟨record, rfl, hWritten⟩
    exact ⟨record, hReaches.replies_eq, hWritten⟩

/- Whoever is converted in her place, it is Ann who is written. -/
theorem substitution_confined_of_ann :
    let watched := Sample.annWatched
    let masked := Sample.annMasked
    let task := watched.repository.write .save Sample.ann {}
    let first := watched.transcriptOf task
    let second := masked.transcriptOf task
    ∃ (attempt? : Option Attempt)
      (request : Request)
      (payload substituted : Text),
      submissions first =
          [(attempt?,
            { request with payload? := some payload })] ∧
        submissions second =
          [(attempt?,
            { request with payload? := some substituted })] ∧
        payload ≠ substituted ∧
        (watched.work task).1 = (masked.work task).1 ∧
        ∀ saved,
          (masked.work task).1 = .ok saved →
            saved.value Sample.nameMember.index =
              Sample.ann.value Sample.nameMember.index := by
  intro watched masked task first second
  have hAlike : AnsweredAlike first second :=
    { attempts := by decide +kernel
      resolutions := by decide +kernel
      stops := by decide +kernel
      replies := by decide +kernel
      savedReplies := by decide +kernel }
  have hReached : submissions first ≠ [] := by decide +kernel
  have hMasked : submissions second ≠ [] := by decide +kernel
  have hDiffer : submissions first ≠ submissions second := by
    decide +kernel
  rcases substitution_confined watched.repository .save
      Sample.ann {} watched.registry
      (Session.ends_work watched task)
      (Session.ends_work masked task) hReached hMasked hAlike
    with
    ⟨attempt?, request, payload, substituted, hFirst, hSecond, -,
      hOutcome, -, hWritten⟩
  refine
    ⟨attempt?, request, payload, substituted, hFirst, hSecond,
      ?_, hOutcome, fun saved hSaved => ?_⟩
  · rintro rfl
    exact hDiffer (hFirst.trans hSecond.symm)
  · rcases hWritten saved (hOutcome.trans hSaved) with
      ⟨record, -, d, -, -, hDescriptor, -, -, -, hKept⟩
    cases Except.ok.inj hDescriptor
    refine
      hKept _
        (Descriptor.spares_of_members rfl rfl ?_ ?_ ?_) <;>
      decide

/-
  Whoever is shown a document is shown the one that is sent.
  Its identifier is that of the entity that was converted,
  while the request is for the given entity: the two agree
  exactly as long as the substitutes keep the identifier.
-/
theorem shown_as_converted
    (repo : Repository T)
    (intent : WriteIntent)
    (e : EntityOf t)
    (scope : CallScope)
    (before : ResultRegistry)
    {transcript : Transcript T K}
    {outcome : Except Failure (EntityOf t)}
    {after : ResultRegistry}
    {attempt? : Option Attempt}
    {request : Request}
    {document : Document}
    (h :
      (repo.write intent e scope).Ends
        before transcript outcome after)
    (hSubmitted :
      (attempt?, request) ∈ submissions transcript)
    (hShown : document ∈ shownDocuments transcript) :
    ∃ d payload,
      repo.mapping.descriptor t = .ok d ∧
        document.toPayload = .ok payload ∧
        request.payload? = some payload ∧
        d.idOf e = some request.id ∧
        document.id =
          (d.idOf (converted e transcript)).getD [] ∧
        (document.id = request.id ↔
          (d.idOf (converted e transcript)).getD [] =
            (d.idOf e).getD []) := by
  rcases exists_reaches h (List.ne_nil_of_mem hSubmitted) with
    ⟨d, closing, reply, stop, hReaches, -⟩
  obtain rfl := hReaches.shown_eq document hShown
  rw [hReaches.submissions_eq] at hSubmitted
  cases List.mem_singleton.mp hSubmitted
  have hConverted :
      converted e transcript = converted e d.opening := by
    unfold converted
    rw [hReaches.returned_eq]
  have hId := Codec.toDocument_id d.document_spec.1
  rw [← hConverted] at hId
  have hOwn : d.descriptor.idOf e = some d.id := by
    rw [← Mapping.idOf_eq d.descriptor_eq]
    exact d.id_eq
  refine
    ⟨d.descriptor, d.payload, d.descriptor_eq, d.payload_eq, rfl,
      hOwn, hId, ?_⟩
  rw [hId, hOwn]
  exact Iff.rfl

/- Ann is written under her identifier, and shown under another one. -/
theorem shown_as_converted_of_ann :
    let s := Sample.annMasked
    let task := s.repository.write .save Sample.ann {}
    let transcript := s.transcriptOf task
    ∃ attempt? request document,
      (attempt?, request) ∈ submissions transcript ∧
        document ∈ shownDocuments transcript ∧
        request.payload? = document.toPayload.toOption ∧
        request.id = Text.lit "p1" ∧
        document.id = Text.lit "other" := by
  intro s task transcript
  have hReached : submissions transcript ≠ [] := by
    decide +kernel
  have hShown : shownDocuments transcript ≠ [] := by
    decide +kernel
  rcases List.exists_mem_of_ne_nil _ hReached with
    ⟨⟨attempt?, request⟩, hRequest⟩
  rcases List.exists_mem_of_ne_nil _ hShown with
    ⟨document, hDocument⟩
  rcases shown_as_converted s.repository .save Sample.ann {}
      s.registry (Session.ends_work s task) hRequest hDocument
    with
    ⟨d, payload, hDescriptor, hPayload, hSent, hOwn, hId, -⟩
  cases Except.ok.inj hDescriptor
  refine
    ⟨attempt?, request, document, hRequest, hDocument, ?_, ?_, ?_⟩
  · rw [hSent, hPayload]
    rfl
  · exact (Option.some.inj hOwn).symm
  · rw [hId]
    decide +kernel

end Repository

end DocumentMapper
