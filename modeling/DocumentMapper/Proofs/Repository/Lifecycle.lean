import DocumentMapper.Proofs.Codec.Course
import DocumentMapper.Proofs.Entity.Layout
import DocumentMapper.Proofs.Repository.Setback
import DocumentMapper.Proofs.Session.Plain
import DocumentMapper.Sample.Scene

/-
  The lifecycle of a write.

  A write calls the resolver, the listeners and the callbacks
  around the conversion, the executor, and the listeners to
  saved entities, in this order and up to the first failure.

  Key definitions include:
    * `Lifecycle`, `Lifecycle.calls`
    * `Lifecycle.Concludes`

  Main statements include:
    * `Repository.course_finishWrite`
    * `Repository.WriteSetback.concludes`
    * `Repository.WriteDispatch.concludes`
    * `Repository.write_lifecycle`
-/

namespace DocumentMapper

variable {T : Type}
variable [EntityTypes T]
variable {K : Hooks T}
variable {t : T}
variable {repo : Repository T}
variable {a : Audience K t}
variable {e : EntityOf t}
variable {scope : CallScope}
variable {before after : ResultRegistry}
variable {transcript : Transcript T K}
variable {outcome : Except Failure (EntityOf t)}

------------------------------------------------------------
-- Lifecycles
------------------------------------------------------------

/-
  What a write is about, in front of an audience: the
  document, the request with its attempt, and the entity that
  is saved. The document is the one of the entity that is
  converted, unless the write does not get beyond the opening
  of the conversion.
-/
structure Lifecycle
    (repo : Repository T)
    (a : Audience K t)
    (e : EntityOf t)
    (scope : CallScope)
    (transcript : Transcript T K) where
  descriptor : Descriptor (EntityTypes.schema t)
  document : Document
  attempt? : Option Attempt
  request : Request
  saved : EntityOf t
  descriptor_eq : repo.mapping.descriptor t = .ok descriptor
  document_eq :
    repo.codec.toDocument descriptor (converted e transcript) =
        .ok document ∨
      questions (observed transcript) <+:
        .resolve (chosenCollection repo.settings descriptor scope) ::
          a.opening e (returned t transcript)
            (chosenCollection repo.settings descriptor
              scope).collection

namespace Lifecycle

/- The name that the resolver is asked for. -/
def name
    (l : Lifecycle repo a e scope transcript) :
    CollectionName :=
  chosenCollection repo.settings l.descriptor scope

/- The name is the one that is chosen with the descriptor. -/
theorem name_eq
    {l : Lifecycle repo a e scope transcript}
    {d : Descriptor (EntityTypes.schema t)}
    (h : l.descriptor = d) :
    l.name = chosenCollection repo.settings d scope := by
  rw [name, h]

/- What a write calls before its executor. -/
def preparation
    (l : Lifecycle repo a e scope transcript) :
    List (Call T K) :=
  .resolve l.name ::
    (a.opening e (returned t transcript) l.name.collection ++
      a.review e l.document l.name.collection)

/- What a write calls after its executor. -/
def farewell
    (l : Lifecycle repo a e scope transcript) :
    List (Call T K) :=
  a.tell
    ⟨.afterSave, t, l.saved, some l.document, l.name.collection⟩

/- Everything that a write calls. -/
def calls
    (l : Lifecycle repo a e scope transcript) :
    List (Call T K) :=
  l.preparation ++
    .submit l.attempt? l.request :: l.farewell

/- The reply is a record whose token fits, and nobody wants to stop. -/
def Grants
    (l : Lifecycle repo a e scope transcript)
    (reply : Reply StoreRecord) : Prop :=
  ∃ record,
    reply = .ok record ∧ Unstopped transcript ∧
      l.descriptor.Holds record.cas

/- The executor is called after all preparation has succeeded. -/
structure Dispatches
    (l : Lifecycle repo a e scope transcript)
    (opening : Transcript T K) : Prop where
  order : questions opening = l.preparation
  flawless : Flawless opening
  document_eq :
    repo.codec.toDocument l.descriptor
        (converted e transcript) =
      .ok l.document
  payload :
    ∃ payload,
      l.document.toPayload = .ok payload ∧
        l.request.payload? = some payload

/-
  The entity that is saved is the given one, with the
  identifier and the token of the record, and with the key of
  a transaction result that came with it.
-/
def Saves
    (l : Lifecycle repo a e scope transcript)
    (before : ResultRegistry)
    (record : StoreRecord) : Prop :=
  let id :=
    if record.id = [] then l.request.id else record.id
  ∃ written,
    l.descriptor.withToken
        (if id = [] then e else l.descriptor.withId e id)
        record.cas =
      .ok written ∧
      l.saved =
        Writeback.kept l.descriptor written before record.result?

/-
  How a write ends. Without a request it fails. With one whose
  answer is not granted, it fails and nobody is told. With one
  that is granted, the farewell takes its course, and decides.
-/
inductive Concludes
    (l : Lifecycle repo a e scope transcript)
    (before : ResultRegistry) :
    Except Failure (EntityOf t) → Prop where
  | withheld
      {failure : Failure}
      (hNone : submissions transcript = [])
      (hOrder : questions (observed transcript) <+: l.preparation) :
      Concludes l before (.error failure)
  | denied
      {opening : Transcript T K}
      {reply : Reply StoreRecord}
      {error : Error}
      (hObserved :
        observed transcript =
          opening ++ [⟨.submit l.attempt? l.request, reply⟩])
      (hDispatches : l.Dispatches opening)
      (hDenied : ¬ l.Grants reply) :
      Concludes l before (.error (.error error))
  | granted
      {opening closing : Transcript T K}
      {record : StoreRecord}
      {outcome : Except Failure (EntityOf t)}
      (hObserved :
        observed transcript =
          opening ++
            ⟨.submit l.attempt? l.request, .ok record⟩ :: closing)
      (hDispatches : l.Dispatches opening)
      (hGrants : l.Grants (.ok record))
      (hSaves : l.Saves before record)
      (hCourse : Course False l.farewell closing outcome)
      (hSaved : ∀ e', outcome = .ok e' → e' = l.saved) :
      Concludes l before outcome

end Lifecycle

------------------------------------------------------------
-- Endings
------------------------------------------------------------

/- Keeping a result asks nothing. -/
theorem Writeback.transcript_of_keep
    {S : Schema}
    {d : Descriptor S}
    {given : Entity S}
    {result? : Option GetResult}
    {kept? : Except Failure (Entity S)}
    (h :
      (keep d given result? : Task T K (Entity S)).Ends
        before transcript kept? after) :
    transcript = [] :=
  (ends_keep_iff.mp h).1

namespace Repository

/-
  The ending of a write tells the listeners to saved entities,
  unless the token does not fit.
-/
theorem course_finishWrite
    (gap : Prop)
    {d : Descriptor (EntityTypes.schema t)}
    {plan : WritePlan}
    {record : StoreRecord}
    {id : Text}
    (hDescriptor : repo.mapping.descriptor t = .ok d)
    (hId :
      id =
        if record.id = [] then plan.request.id else record.id)
    (hAttends : a.Attends repo.codec transcript)
    (h :
      (repo.finishWrite e plan record).Ends
        before transcript outcome after) :
    returned t transcript = [] ∧
      (¬ d.Holds record.cas ∧ observed transcript = [] ∧
          (∃ error, outcome = .error (.error error)) ∨
        ∃ written saved,
          d.withToken (if id = [] then e else d.withId e id)
              record.cas = .ok written ∧
            saved =
              Writeback.kept d written before record.result? ∧
            Course gap
              (a.tell
                ⟨.afterSave, t, saved, some plan.document,
                  plan.collection⟩)
              (observed transcript) outcome ∧
            ∀ e', outcome = .ok e' → e' = saved) := by
  subst hId
  rcases Task.ends_inContext_iff.mp h with ⟨inner, hInner, rfl⟩
  unfold Writeback.apply at hInner
  rw [show repo.writeback.mapping.descriptor t = .ok d from
    hDescriptor] at hInner
  rcases Task.ends_ofResult_bind_iff.mp hInner with
    ⟨cause, hError, -⟩ | ⟨_, hOk, h₁⟩
  · cases hError
  cases hOk
  rcases Task.ends_ofResult_bind_iff.mp h₁ with
    ⟨cause, hNot, rfl, rfl, -⟩ | ⟨written, hWritten, h₂⟩
  · refine ⟨rfl, .inl ⟨fun hHolds => ?_, rfl, _, rfl⟩⟩
    rcases hHolds.withToken_isOk _ with ⟨written, hWritten⟩
    cases hWritten.symm.trans hNot
  rcases Task.ends_bind_iff.mp h₂ with
    ⟨failure, hKeep, -⟩ | ⟨_, saved, _, rest, rfl, hKeep, h₃⟩
  · cases Writeback.ends_keep hKeep
  obtain rfl := Writeback.transcript_of_keep hKeep
  cases Writeback.ends_keep hKeep
  rw [List.nil_append] at hAttends ⊢
  have hTold :
      ∀ {told r},
        (publishIf repo.codec.hasBus
            ⟨.afterSave, t,
              Writeback.kept d written before record.result?,
              some plan.document, plan.collection⟩ :
          Step T K Unit).Ends told r →
        a.Attends repo.codec told →
        returned t told = [] ∧
          Course gap _ (observed told) (Failure.ofResult r) :=
    fun hTell hPart =>
      ⟨Codec.returned_publishIf hTell,
        course_publishIf gap hPart hTell⟩
  rcases Task.ends_bind_iff.mp h₃ with
    ⟨failure, hTell, rfl⟩ | ⟨told, _, _, _, rfl, hTell, hPure⟩
  · rcases Task.ends_ofStep_iff.mp hTell with ⟨r, hStep, hSame, -⟩
    rcases hTold hStep hAttends with ⟨hNone, hCourse⟩
    cases r with
    | ok value => cases hSame
    | error cause =>
        cases hSame
        exact
          ⟨hNone, .inr ⟨written, _, hWritten, rfl,
            hCourse.of_error, nofun⟩⟩
  · rcases Task.ends_pure_iff.mp hPure with ⟨rfl, rfl, -⟩
    rw [List.append_nil] at hAttends ⊢
    rcases hTold (Task.ends_ofStep_ok_iff.mp hTell).1 hAttends with
      ⟨hNone, hCourse⟩
    refine
      ⟨hNone, .inr ⟨written, _, hWritten, rfl,
        (hCourse.of_value _).inContext _ _ _, ?_⟩⟩
    rintro e' ⟨⟩
    rfl

------------------------------------------------------------
-- Setbacks
------------------------------------------------------------

theorem OnlyProvider.observed_eq_nil
    (h : OnlyProvider transcript) :
    observed transcript = [] := by
  rcases h with rfl | ⟨attempt?, rfl⟩ <;> rfl

theorem OnlyProvider.returned_eq_nil
    (h : OnlyProvider transcript) :
    returned t transcript = [] := by
  rcases h with rfl | ⟨attempt?, rfl⟩ <;> rfl

variable {d : Descriptor (EntityTypes.schema t)}
variable {asked hooks : Transcript T K}

/- The resolver is the first that an audience sees called. -/
theorem OnlyProvider.observed_resolution
    (hProvider : OnlyProvider asked)
    (name : CollectionName)
    (reply : Reply CollectionName) :
    observed (asked ++ ⟨.resolve name, reply⟩ :: hooks) =
      ⟨.resolve name, reply⟩ :: observed hooks := by
  rw [observed_append, hProvider.observed_eq_nil]
  rfl

/- Neither the provider nor the resolver returns entities. -/
theorem OnlyProvider.returned_resolution
    (hProvider : OnlyProvider asked)
    (name : CollectionName)
    (reply : Reply CollectionName) :
    returned t (asked ++ ⟨.resolve name, reply⟩ :: hooks) =
      returned t hooks := by
  rw [returned_append, hProvider.returned_eq_nil]
  rfl

/- An encoding after its collection is known, as a lifecycle. -/
theorem lifecycle_of_encode
    (resolved : CollectionName)
    {r : Result Document}
    (hDescriptor : repo.mapping.descriptor t = .ok d)
    (hAttends : a.Attends repo.codec hooks)
    (hEncode :
      (repo.codec.encode e
          (chosenCollection repo.settings d scope).collection).Ends
        hooks r)
    (hReturned : returned t transcript = returned t hooks)
    (hObserved :
      r.isOk = false →
        observed transcript =
          ⟨.resolve (chosenCollection repo.settings d scope),
            .ok resolved⟩ :: observed hooks)
    (attempt? : Option Attempt)
    (request : Request)
    (saved : EntityOf t) :
    ∃ l : Lifecycle repo a e scope transcript,
      l.descriptor = d ∧ l.attempt? = attempt? ∧
        l.request = request ∧ l.saved = saved ∧
        Course True l.preparation
          (⟨.resolve l.name, .ok resolved⟩ :: observed hooks)
          (Failure.ofResult r) ∧
        ∀ given,
          r = .ok given →
            given = l.document ∧
              repo.codec.toDocument d (converted e transcript) =
                .ok l.document := by
  rcases Codec.course_encode hDescriptor hAttends hEncode with
    ⟨document, hCourse, hDocument, hGiven⟩
  have hConverted :
      converted e transcript = converted e hooks := by
    unfold converted
    rw [hReturned]
  rw [← hConverted] at hDocument hGiven
  have hDocument :
      repo.codec.toDocument d (converted e transcript) =
          .ok document ∨
        questions (observed transcript) <+:
          .resolve (chosenCollection repo.settings d scope) ::
            a.opening e (returned t transcript)
              (chosenCollection repo.settings d
                scope).collection := by
    cases r with
    | ok given => exact .inl (hGiven given rfl).2
    | error cause =>
        rw [hObserved rfl, hReturned]
        exact
          hDocument.imp_right fun hOrder =>
            List.cons_prefix_cons.mpr ⟨rfl, hOrder⟩
  refine
    ⟨⟨d, document, attempt?, request, saved, hDescriptor,
        hDocument⟩,
      rfl, rfl, rfl, rfl, ?_, hGiven⟩
  rw [← hReturned] at hCourse
  exact .cons ⟨.resolve _, .ok resolved⟩ rfl hCourse

/- A write whose collection cannot be resolved. -/
theorem lifecycle_of_unresolved
    {reply : Reply CollectionName}
    (hDescriptor : repo.mapping.descriptor t = .ok d)
    (hProvider : OnlyProvider asked)
    (hReply : reply.isOk = false)
    (e : EntityOf t)
    (error : Error) :
    let transcript : Transcript T K :=
      asked ++
        [⟨.resolve (chosenCollection repo.settings d scope),
          reply⟩]
    ∃ l : Lifecycle repo a e scope transcript,
      questions (observed transcript) <+: l.preparation ∧
        Course True l.calls (observed transcript)
          (.error (.error error) : Except _ (EntityOf t)) := by
  intro transcript
  let x : Exchange (Call.Answer (T := T) (K := K)) :=
    ⟨.resolve (chosenCollection repo.settings d scope), reply⟩
  have hObserved : observed transcript = [x] :=
    hProvider.observed_resolution _ _
  have hFailed : failed x = true := by
    simp [failed, x, hReply]
  have hOrder :
      ∀ rest,
        questions (observed transcript) <+: x.question :: rest :=
    fun rest => by
      rw [hObserved]
      exact List.prefix_append [x.question] rest
  -- Nothing is sent: any request will do, and any document.
  let l : Lifecycle repo a e scope transcript :=
    { descriptor := d
      document := Document.ofId []
      attempt? := none
      request := { kind := .get, id := [], collection := ⟨[], []⟩ }
      saved := e
      descriptor_eq := hDescriptor
      document_eq := .inr (hOrder _) }
  refine ⟨l, hOrder _, ?_⟩
  rw [hObserved]
  exact .of_failed x hFailed _

/-
  A write whose collection is resolved, and whose encoding or
  payload fails.
-/
theorem lifecycle_of_resolved
    {resolved : CollectionName}
    {r : Result Document}
    (hDescriptor : repo.mapping.descriptor t = .ok d)
    (hProvider : OnlyProvider asked)
    (hEncode :
      (repo.codec.encode e
          (chosenCollection repo.settings d scope).collection).Ends
        hooks r)
    (hAttends :
      a.Attends repo.codec
        (asked ++
          ⟨.resolve (chosenCollection repo.settings d scope),
            .ok resolved⟩ :: hooks)) :
    let transcript : Transcript T K :=
      asked ++
        ⟨.resolve (chosenCollection repo.settings d scope),
          .ok resolved⟩ :: hooks
    ∃ l : Lifecycle repo a e scope transcript,
      Course True l.preparation (observed transcript)
        (Failure.ofResult r) := by
  intro transcript
  have hObserved :
      observed transcript =
        ⟨.resolve (chosenCollection repo.settings d scope),
          .ok resolved⟩ :: observed hooks :=
    hProvider.observed_resolution _ _
  have hHooks : hooks.Sublist transcript :=
    (List.sublist_cons_self _ _).trans
      (List.sublist_append_right _ _)
  rcases lifecycle_of_encode resolved hDescriptor
      (hAttends.of_sublist hHooks) hEncode
      (hProvider.returned_resolution _ _)
      (fun _ => hObserved) none
      { kind := .get, id := [], collection := ⟨[], []⟩ } e with
    ⟨l, hChosen, -, -, -, hCourse, -⟩
  rw [Lifecycle.name_eq hChosen, ← hObserved] at hCourse
  exact ⟨l, hCourse⟩

/- A setback cuts the lifecycle short, or nothing is called. -/
theorem WriteSetback.concludes
    {intent : WriteIntent}
    {failure : Failure}
    (hAttends : a.Attends repo.codec transcript)
    (hOnly : OnlyPreparation transcript)
    (h : WriteSetback repo intent e scope transcript failure) :
    observed transcript = [] ∨
      ∃ l : Lifecycle repo a e scope transcript,
        Course True l.calls (observed transcript)
            (.error failure : Except _ (EntityOf t)) ∧
          l.Concludes before (.error failure) := by
  have hNone := hOnly.submissions_eq_nil
  cases h with
  | unregistered hDescriptor => exact .inl rfl
  | unreadable hToken => exact .inl rfl
  | refused hToken hProvider hActive hKind =>
      exact .inl hProvider.observed_eq_nil
  | unidentified hProvider hId =>
      exact .inl hProvider.observed_eq_nil
  | unconnected hProvider hResolver =>
      exact .inl hProvider.observed_eq_nil
  | unresolved hDescriptor hProvider hReply =>
      rcases lifecycle_of_unresolved hDescriptor hProvider hReply
          e _ with
        ⟨l, hOrder, hCourse⟩
      exact .inr ⟨l, hCourse, .withheld hNone hOrder⟩
  | unencoded hDescriptor hProvider hEncode =>
      rcases lifecycle_of_resolved hDescriptor hProvider hEncode
          hAttends with
        ⟨l, hCourse⟩
      exact
        .inr ⟨l, hCourse.of_error (β := EntityOf t) |>.extend _,
          .withheld hNone hCourse.order⟩
  | unprintable hDescriptor hProvider hEncode hPayload =>
      rcases lifecycle_of_resolved hDescriptor hProvider hEncode
          hAttends with
        ⟨l, hCourse⟩
      rcases hCourse.of_ok with ⟨hCalls, hFlawless⟩
      exact
        .inr ⟨l,
          .cut trivial (hCalls ▸ List.prefix_append _ _)
            hFlawless,
          .withheld hNone hCourse.order⟩

------------------------------------------------------------
-- Requests
------------------------------------------------------------

/- A request whose answer is not granted ends the lifecycle. -/
theorem course_denied
    {l : Lifecycle repo a e scope transcript}
    {opening : Transcript T K}
    {reply : Reply StoreRecord}
    {error : Error}
    {document : Document}
    (hCourse : Course True l.preparation opening (.ok document)) :
    Course True l.calls
      (opening ++ [⟨.submit l.attempt? l.request, reply⟩])
      (.error (.error error) : Except _ (EntityOf t)) := by
  let x : Exchange (Call.Answer (T := T) (K := K)) :=
    ⟨.submit l.attempt? l.request, reply⟩
  have hLast :
      Course True (x.question :: l.farewell) [x]
        (.error (.error error) : Except _ (EntityOf t)) := by
    cases hFailed : failed x with
    | true => exact .of_failed x hFailed _
    | false =>
        exact
          .cut trivial (List.prefix_append [x.question] _)
            (.cons hFailed .nil)
  exact hCourse.append hLast

namespace WriteDispatch

variable {intent : WriteIntent}

/- The resolver is called first, then the hooks. -/
theorem observed_opening
    (w : WriteDispatch K repo intent e scope) :
    observed w.opening =
      ⟨.resolve w.toTarget.name, .ok w.resolved⟩ ::
        observed w.hooks :=
  w.provider.observed_resolution _ _

/- Only the hooks return entities. -/
theorem returned_opening
    (w : WriteDispatch K repo intent e scope) :
    returned t w.opening = returned t w.hooks :=
  w.provider.returned_resolution _ _

/- The lifecycle of a write that gets as far as its request. -/
theorem exists_lifecycle
    (w : WriteDispatch K repo intent e scope)
    (before : ResultRegistry)
    {rest : Transcript T K}
    (hAttends : a.Attends repo.codec (w.opening ++ rest))
    (hRest : returned t rest = [])
    (saved : EntityOf t) :
    ∃ l : Lifecycle repo a e scope (w.opening ++ rest),
      l.descriptor = w.descriptor ∧
        l.attempt? = w.attempt? ∧
        l.request =
          (w.plan before).request.shownTo w.attempt? ∧
        l.saved = saved ∧ l.document = w.document ∧
        Course True l.preparation (observed w.opening)
          (.ok w.document) ∧
        l.Dispatches (observed w.opening) := by
  have hHooks : w.hooks.Sublist (w.opening ++ rest) :=
    ((List.sublist_cons_self _ _).trans
      (List.sublist_append_right w.asked _)).trans
      (List.sublist_append_left _ _)
  have hReturned :
      returned t (w.opening ++ rest) = returned t w.hooks := by
    rw [returned_append, hRest, List.append_nil,
      w.returned_opening]
  rcases lifecycle_of_encode w.resolved w.descriptor_eq
      (hAttends.of_sublist hHooks) w.encodes hReturned nofun
      w.attempt? ((w.plan before).request.shownTo w.attempt?)
      saved with
    ⟨l, hDescriptor, hAttempt, hRequest, hSaved, hCourse, hGiven⟩
  rcases hGiven w.document rfl with ⟨hDocument, hConverted⟩
  have hName : l.name = w.toTarget.name :=
    Lifecycle.name_eq hDescriptor
  rw [hName, ← w.observed_opening] at hCourse
  refine
    ⟨l, hDescriptor, hAttempt, hRequest, hSaved, hDocument.symm,
      hCourse, ?_⟩
  rcases hCourse.of_ok with ⟨hCalls, hFlawless⟩
  exact
    { order := hCalls
      flawless := hFlawless
      document_eq := hDescriptor ▸ hConverted
      payload :=
        ⟨w.payload, hDocument ▸ w.payload_eq, by rw [hRequest]; rfl⟩ }

variable {w : WriteDispatch K repo intent e scope}
variable {rest : Transcript T K}
variable {reply : Reply StoreRecord}

/- Nothing is handed over. -/
theorem concludes_of_withheld
    {error : Error}
    (hAttends : a.Attends repo.codec (w.opening ++ rest))
    (hOnly : OnlyPreparation w.opening)
    (hReturned : returned t rest = [])
    (hObserved : observed rest = [])
    (hNone : submissions rest = []) :
    ∃ l : Lifecycle repo a e scope (w.opening ++ rest),
      Course True l.calls (observed (w.opening ++ rest))
          (.error (.error error) : Except _ (EntityOf t)) ∧
        l.Concludes before (.error (.error error)) := by
  rcases w.exists_lifecycle before hAttends hReturned e with
    ⟨l, -, -, -, -, -, hCourse, hDispatches⟩
  have hSame :
      observed (w.opening ++ rest) = observed w.opening := by
    rw [observed_append, hObserved, List.append_nil]
  refine ⟨l, ?_, .withheld ?_ (hSame ▸ hCourse.order)⟩
  · rw [hSame]
    exact
      .cut trivial
        (hCourse.order.trans (List.prefix_append _ _))
        hDispatches.flawless
  · rw [submissions_append, hOnly.submissions_eq_nil, hNone]
    rfl

/- The answer to the request is not granted. -/
theorem concludes_of_denied
    {error : Error}
    (hAttends : a.Attends repo.codec (w.opening ++ rest))
    (hReturned : returned t rest = [])
    (hObserved :
      observed rest =
        [⟨.submit w.attempt?
            ((w.plan before).request.shownTo w.attempt?),
          reply⟩])
    (hDenied :
      ∀ record,
        reply = .ok record →
          Unstopped (w.opening ++ rest) →
          ¬ w.descriptor.Holds record.cas) :
    ∃ l : Lifecycle repo a e scope (w.opening ++ rest),
      Course True l.calls (observed (w.opening ++ rest))
          (.error (.error error) : Except _ (EntityOf t)) ∧
        l.Concludes before (.error (.error error)) := by
  rcases w.exists_lifecycle before hAttends hReturned e with
    ⟨l, hDescriptor, hAttempt, hRequest, -, -, hCourse,
      hDispatches⟩
  have hSame :
      observed (w.opening ++ rest) =
        observed w.opening ++
          [⟨.submit l.attempt? l.request, reply⟩] := by
    rw [observed_append, hObserved, hAttempt, hRequest]
  refine ⟨l, ?_, .denied hSame hDispatches ?_⟩
  · rw [hSame]
    exact course_denied hCourse
  · rintro ⟨record, hRecord, hUnstopped, hHolds⟩
    rw [hDescriptor] at hHolds
    exact hDenied record hRecord hUnstopped hHolds

/- The answer to the request is granted. -/
theorem concludes_of_granted
    {record : StoreRecord}
    {written : EntityOf t}
    {told : Transcript T K}
    (hAttends : a.Attends repo.codec (w.opening ++ rest))
    (hReturned : returned t rest = [])
    (hObserved :
      observed rest =
        ⟨.submit w.attempt?
            ((w.plan before).request.shownTo w.attempt?),
          .ok record⟩ :: told)
    (hUnstopped : Unstopped (w.opening ++ rest))
    (hWritten :
      let id := if record.id = [] then w.id else record.id
      w.descriptor.withToken
          (if id = [] then e else w.descriptor.withId e id)
          record.cas =
        .ok written)
    (hCourse :
      Course False
        (a.tell
          ⟨.afterSave, t,
            Writeback.kept w.descriptor written before
              record.result?,
            some w.document, w.toTarget.name.collection⟩)
        told outcome)
    (hSaved :
      ∀ e',
        outcome = .ok e' →
          e' =
            Writeback.kept w.descriptor written before
              record.result?) :
    ∃ l : Lifecycle repo a e scope (w.opening ++ rest),
      Course True l.calls (observed (w.opening ++ rest))
          outcome ∧
        l.Concludes before outcome := by
  rcases w.exists_lifecycle before hAttends hReturned
      (Writeback.kept w.descriptor written before
        record.result?) with
    ⟨l, hDescriptor, hAttempt, hRequest, hKept, hDocument,
      hOpening, hDispatches⟩
  have hSame :
      observed (w.opening ++ rest) =
        observed w.opening ++
          ⟨.submit l.attempt? l.request, .ok record⟩ ::
            told := by
    rw [observed_append, hObserved, hAttempt, hRequest]
  have hName : l.name = w.toTarget.name :=
    Lifecycle.name_eq hDescriptor
  have hFarewell : Course False l.farewell told outcome := by
    unfold Lifecycle.farewell
    rw [hKept, hDocument, hName]
    exact hCourse
  refine
    ⟨l, ?_,
      .granted hSame hDispatches ?_ ?_ hFarewell (hKept ▸ hSaved)⟩
  · rw [hSame]
    exact
      hOpening.append
        (.cons ⟨.submit l.attempt? l.request, .ok record⟩ rfl
          (hFarewell.mono False.elim))
  · refine ⟨record, rfl, hUnstopped, ?_⟩
    rw [hDescriptor]
    exact ⟨_, written, hWritten⟩
  · refine ⟨written, ?_, ?_⟩
    · rw [hDescriptor, hRequest]
      exact hWritten
    · rw [hKept, hDescriptor]

/- A request that is handed over concludes the lifecycle. -/
theorem concludes
    {submission closing : Transcript T K}
    {result : Result StoreRecord}
    (hAttends :
      a.Attends repo.codec
        (w.opening ++ (submission ++ closing)))
    (hOnly : OnlyPreparation w.opening)
    (hSubmission :
      Submission repo (w.plan before).request w.attempt?
        submission result)
    (hClosing :
      (Task.ofResult result >>=
          repo.finishWrite e (w.plan before)).Ends
        before closing outcome after) :
    ∃ l : Lifecycle repo a e scope
        (w.opening ++ (submission ++ closing)),
      Course True l.calls
          (observed (w.opening ++ (submission ++ closing)))
          outcome ∧
        l.Concludes before outcome := by
  cases hSubmission with
  | stopped =>
      rcases Task.ends_fail_iff.mp hClosing with ⟨rfl, rfl, -⟩
      exact concludes_of_withheld hAttends hOnly rfl rfl rfl
  | unconnected hConnects =>
      rcases Task.ends_fail_iff.mp hClosing with ⟨rfl, rfl, -⟩
      exact concludes_of_withheld hAttends hOnly rfl rfl rfl
  | answered hConnects reply stop =>
      generalize hResult :
        answered (w.plan before).request reply stop = result
        at hClosing
      cases result with
      | error cause =>
          rcases Task.ends_fail_iff.mp hClosing with ⟨rfl, rfl, -⟩
          refine concludes_of_denied hAttends rfl rfl ?_
          rintro record rfl hUnstopped -
          obtain rfl := hUnstopped stop (by simp)
          cases hResult
      | ok record =>
          rcases answered_eq_ok_iff.mp hResult with ⟨rfl, rfl⟩
          rcases Task.ends_ofResult_bind_iff.mp hClosing with
            ⟨cause, hError, -⟩ | ⟨_, hOk, hFinish⟩
          · cases hError
          cases hOk
          have hClosingAttends :=
            hAttends.of_sublist
              ((List.sublist_append_right _ closing).trans
                (List.sublist_append_right w.opening _))
          rcases course_finishWrite False w.descriptor_eq rfl
              hClosingAttends hFinish with
            ⟨hReturned, ⟨hNot, hNone, error, rfl⟩ |
              ⟨written, _, hWritten, rfl, hCourse, hSaved⟩⟩
          · apply concludes_of_denied hAttends hReturned
            · exact congrArg (_ :: ·) hNone
            · rintro record ⟨⟩ -
              exact hNot
          · refine
              concludes_of_granted hAttends hReturned rfl ?_
                hWritten hCourse hSaved
            have hHooks :=
              finishWrite_hooked _ _ _ _ _ _ _ _ hFinish
            rw [unstopped_iff, stopAnswers_append,
              stopAnswers_append, hOnly.stopAnswers_eq_nil,
              hHooks.stopAnswers_eq_nil]
            simp [stopAnswers, stopAnswer?]

end WriteDispatch

/-
  For every audience, and whatever its listeners and callbacks
  answer: unless a write fails without calling anybody, it
  takes its course along the calls of its lifecycle, stops at
  the first failing step with an error, and concludes.
-/
theorem write_lifecycle
    {intent : WriteIntent}
    (hAttends : a.Attends repo.codec transcript)
    (h :
      (repo.write intent e scope).Ends
        before transcript outcome after) :
    (observed transcript = [] ∧
        ∃ failure, outcome = .error failure) ∨
      ∃ l : Lifecycle repo a e scope transcript,
        Course True l.calls (observed transcript) outcome ∧
          (∀ earlier x later,
            observed transcript = earlier ++ x :: later →
              failed x = true →
              later = [] ∧ Flawless earlier ∧
                ∃ error, outcome = .error (.error error)) ∧
          l.Concludes before outcome := by
  have hStops :
      ∀ l : Lifecycle repo a e scope transcript,
        Course True l.calls (observed transcript) outcome →
          ∀ earlier x later,
            observed transcript = earlier ++ x :: later →
              failed x = true →
              later = [] ∧ Flawless earlier ∧
                ∃ error, outcome = .error (.error error) :=
    fun l hCourse earlier x later hSame =>
      (hSame ▸ hCourse).stops
  rcases ends_write_cases h with
    ⟨failure, hSetback, hOnly, rfl, rfl⟩ |
      ⟨w, submission, closing, result, rfl, hOnly, hSubmission,
        hClosing⟩
  · rcases hSetback.concludes hAttends hOnly with
      hNone | ⟨l, hCourse, hConcludes⟩
    · exact .inl ⟨hNone, failure, rfl⟩
    · exact .inr ⟨l, hCourse, hStops l hCourse, hConcludes⟩
  · rcases w.concludes hAttends hOnly hSubmission hClosing with
      ⟨l, hCourse, hConcludes⟩
    exact .inr ⟨l, hCourse, hStops l hCourse, hConcludes⟩

/- Saving Ann while she is watched makes eight calls. -/
theorem write_lifecycle_of_ann :
    let s := Sample.annWatched
    let a : Audience (scriptedHooks _) Sample.EntityType.person :=
      ⟨fun _ => s.bus, s.beforeHooks .person,
        s.afterHooks .person⟩
    let task := s.repository.write .save Sample.ann {}
    let transcript := s.transcriptOf task
    a.Attends s.repository.codec transcript ∧
      (observed transcript).length = 8 ∧
      ∃ l : Lifecycle s.repository a Sample.ann {} transcript,
        Course True l.calls (observed transcript)
            (s.work task).1 ∧
          l.Concludes s.registry (s.work task).1 := by
  intro s a task transcript
  have hListeners :
      transcript.filterMap listening? =
        [.beforeConvert, .beforeSave, .afterSave].map
          fun stage => (stage, s.bus.targets stage) := by
    decide +kernel
  have hAfter :
      transcript.filterMap (afterHooks? .person) = [a.after] := by
    decide +kernel
  have hLength : (observed transcript).length = 8 := by
    decide +kernel
  have hAnswers :=
    (Session.work_spec (s := s) ⟨rfl, rfl, rfl, rfl⟩ task).2.1
  have hAttends : a.Attends s.repository.codec transcript :=
    { listeners := by rw [hListeners]; simp [a]
      before := fun hooks hMem =>
        (hAnswers _ (Audience.mem_of_mem_beforeHooks? hMem)).before
          _ _ rfl
      after := by rw [hAfter]; simp
      bus := nofun
      callbacks := nofun }
  refine ⟨hAttends, hLength, ?_⟩
  rcases write_lifecycle hAttends (Session.ends_work s task) with
    ⟨hNone, -⟩ | ⟨l, hCourse, -, hConcludes⟩
  · rw [hNone] at hLength
    cases hLength
  · exact ⟨l, hCourse, hConcludes⟩

end Repository

end DocumentMapper
