import DocumentMapper.Proofs.Error.Relaying
import DocumentMapper.Proofs.Repository.Keeping
import DocumentMapper.Proofs.Session.Runs
import DocumentMapper.Sample.Scene

/-
  Tests for a document, and searches for it, in one state of
  the store.

  Outside of any attempt a test asks whether the document
  exists and gets a flag; inside an attempt it gets the
  document, and a failure that says it is missing is the
  answer. Where all executors answer from one view of the
  store, the test tells what the view says on both routes, and
  a search finds nothing exactly when the test says no.

  Key definitions include:
    * `Holding`, `Holding.Tells`, `Holding.presence`
    * `StoreView`, `StoreView.Tells`, `StoreView.Answers`
    * `StoreView.resolution`, `StoreView.presence`
    * `Error.SameReport`, `Conveys`
    * `Task.EndsIn`
    * `Sample.garbled`, `Sample.delayed`

  Main statements include:
    * `Repository.ends_resolve_of_view`
    * `Repository.ends_answer_of_view`
    * `Repository.isStored_conveys`
    * `Repository.find_none_iff`
    * `Repository.existence_agrees`
-/

namespace DocumentMapper

variable {T : Type}
variable [EntityTypes T]
variable {K : Hooks T}
variable {α : Type}

------------------------------------------------------------
-- Views of a Store
------------------------------------------------------------

/-
  What a store holds of a document: it is there, it is not, or
  the executors fail, and not by saying that it is missing.
-/
inductive Holding where
  | present
  | missing
  | failing (cause : Error) (hCause : ¬ cause.SaysMissing)

namespace Holding

/- The reply to a request of this kind tells what is held. -/
inductive Tells : Holding → RequestKind → Reply StoreRecord → Prop
  | got
      (record : StoreRecord) :
      Tells .present .get (.ok record)
  | gone
      {reply : Reply StoreRecord}
      {cause : Error}
      (hReply : reply.cause? = some cause)
      (hMissing : cause.SaysMissing) :
      Tells .missing .get reply
  | flagged
      {record : StoreRecord}
      (hFlag : record.isPresent = true) :
      Tells .present .exists (.ok record)
  | unflagged
      {record : StoreRecord}
      (hFlag : record.isPresent = false) :
      Tells .missing .exists (.ok record)
  | failed
      {kind : RequestKind}
      {reply : Reply StoreRecord}
      {cause : Error}
      {hCause : ¬ cause.SaysMissing}
      (hReply : reply.cause? = some cause) :
      Tells (.failing cause hCause) kind reply

/- Whether the document is there, or how that cannot be told. -/
def presence : Holding → Result Bool
  | .present => .ok true
  | .missing => .ok false
  | .failing cause _ => .error cause.ofExecution

theorem presence_eq_true_iff
    {holding : Holding} :
    holding.presence = .ok true ↔ holding = .present := by
  cases holding with
  | present => simp [presence]
  | missing => simp [presence]
  | failing cause hCause => simp [presence]

theorem presence_eq_false_iff
    {holding : Holding} :
    holding.presence = .ok false ↔ holding = .missing := by
  cases holding with
  | present => simp [presence]
  | missing => simp [presence]
  | failing cause hCause => simp [presence]

end Holding

/- How names are resolved, and what is held of each document. -/
structure StoreView where
  resolve : CollectionName → Reply CollectionName
  holding : CollectionName → Text → Holding

namespace StoreView

/- The resolver or an executor answers from the view. -/
def Tells
    (view : StoreView) :
    Exchange (Call.Answer (T := T) (K := K)) → Prop
  | ⟨.resolve name, reply⟩ => reply = view.resolve name
  | ⟨.submit _ request, reply⟩ =>
      (view.holding request.collection request.id).Tells
        request.kind reply
  | _ => True

/- Everything is answered from the view. -/
def Answers
    (view : StoreView)
    (transcript : Transcript T K) : Prop :=
  ∀ x ∈ transcript, view.Tells x

theorem Answers.nil
    {view : StoreView} :
    view.Answers ([] : Transcript T K) :=
  List.forall_mem_nil _

theorem Answers.cons
    {view : StoreView}
    {x : Exchange (Call.Answer (T := T) (K := K))}
    {rest : Transcript T K}
    (hFirst : view.Tells x)
    (hRest : view.Answers rest) :
    view.Answers (x :: rest) :=
  List.forall_mem_cons.mpr ⟨hFirst, hRest⟩

/- Parts of what is answered are answered. -/
theorem Answers.left
    {view : StoreView}
    {first second : Transcript T K}
    (h : view.Answers (first ++ second)) :
    view.Answers first :=
  (List.forall_mem_append.mp h).1

theorem Answers.right
    {view : StoreView}
    {first second : Transcript T K}
    (h : view.Answers (first ++ second)) :
    view.Answers second :=
  (List.forall_mem_append.mp h).2

/- What a repository makes of a name. -/
def resolution
    (view : StoreView)
    (repo : Repository T)
    (name : CollectionName) : Result CollectionName :=
  if repo.wiring.resolver then
    match view.resolve name with
    | .ok resolved => .ok resolved
    | .failed e => .error e.ofResolution
    | .threw what => .error (Error.ofException what).ofResolution
  else
    .error
      (.invalidState
        (Text.lit "No collection resolver configured"))

/- Whether there is a document under a name, if that can be told. -/
def presence
    (view : StoreView)
    (repo : Repository T)
    (name : CollectionName)
    (id : Text) : Result Bool := do
  let resolved ← view.resolution repo name
  (view.holding resolved id).presence

/- Under a resolved name, what is held there decides. -/
theorem presence_of_resolution
    {view : StoreView}
    {repo : Repository T}
    {name resolved : CollectionName}
    (hResolved : view.resolution repo name = .ok resolved)
    (id : Text) :
    view.presence repo name id =
      (view.holding resolved id).presence := by
  unfold presence
  rw [hResolved]
  rfl

/- Where the name or the document is out of reach, so is an answer. -/
theorem presence_of_failing
    {view : StoreView}
    {repo : Repository T}
    {name : CollectionName}
    {id : Text}
    (hFails :
      ∀ resolved,
        view.resolution repo name = .ok resolved →
          ∃ cause hCause,
            view.holding resolved id = .failing cause hCause) :
    ∃ cause, view.presence repo name id = .error cause := by
  cases hResolved : view.resolution repo name with
  | error cause =>
      refine ⟨cause, ?_⟩
      unfold presence
      rw [hResolved]
      rfl
  | ok resolved =>
      rcases hFails resolved hResolved with
        ⟨cause, hCause, hHolding⟩
      refine ⟨cause.ofExecution, ?_⟩
      rw [presence_of_resolution hResolved, hHolding]
      rfl

end StoreView

------------------------------------------------------------
-- Outcomes
------------------------------------------------------------

/- Two errors differ in their contexts only. -/
structure Error.SameReport (e cause : Error) : Prop
    extends e.SameKind cause where
  message : e.message = cause.message

theorem Error.SameReport.symm
    {e cause : Error}
    (h : e.SameReport cause) :
    cause.SameReport e where
  code := h.code.symm
  fault := h.fault.symm
  message := h.message.symm

theorem Error.SameReport.trans
    {e cause other : Error}
    (h : e.SameReport cause)
    (hOther : cause.SameReport other) :
    e.SameReport other where
  toSameKind := h.toSameKind.trans hOther.toSameKind
  message := h.message.trans hOther.message

/- Context changes no report. -/
theorem Error.withContext_sameReport
    (e : Error)
    (operation documentId collection : Text) :
    (e.withContext operation documentId collection).SameReport e
    where
  toSameKind := e.withContext_sameKind _ _ _
  message := rfl

/- A task ends with the result, its error in some context. -/
def Conveys
    (outcome : Except Failure α) : Result α → Prop
  | .ok value => outcome = .ok value
  | .error cause =>
      ∃ told : Error,
        outcome = .error (.error told) ∧ told.SameReport cause

/- What is reported is a value exactly when the result is. -/
theorem Conveys.eq_ok_iff
    {outcome : Except Failure α}
    {result : Result α}
    {value : α}
    (h : Conveys outcome result) :
    outcome = .ok value ↔ result = .ok value := by
  cases result with
  | ok given =>
      have hOk : outcome = .ok given := h
      rw [hOk, Except.ok.injEq, Except.ok.injEq]
  | error cause =>
      rcases h with ⟨told, hTold, -⟩
      rw [hTold]
      constructor
      · intro hOk
        cases hOk
      · intro hOk
        cases hOk

/-
  A task ends so while resolver and executors answer from the
  view, and the caller does not ask to stop.
-/
def Task.EndsIn
    (x : Task T K α)
    (view : StoreView)
    (before : ResultRegistry)
    (outcome : Except Failure α)
    (after : ResultRegistry) : Prop :=
  ∃ transcript,
    x.Ends before transcript outcome after ∧
      view.Answers transcript ∧ Unstopped transcript

namespace Repository

variable {repo : Repository T}
variable {t : T}
variable {view : StoreView}
variable {scope : CallScope}
variable {before after : ResultRegistry}
variable {transcript : Transcript T K}
variable {id : Text}

------------------------------------------------------------
-- Reaching a Collection
------------------------------------------------------------

/- Resolving ends as the view resolves the name. -/
theorem ends_resolve_of_view
    {name : CollectionName}
    {kind : RequestKind}
    {outcome : Except Failure CollectionName}
    (hAnswers : view.Answers transcript)
    (h :
      (repo.resolve name kind id).Ends
        before transcript outcome after) :
    Conveys outcome (view.resolution repo name) := by
  unfold resolve at h
  unfold StoreView.resolution
  by_cases hResolver : repo.wiring.resolver = true
  · rw [if_pos hResolver] at h ⊢
    rcases Task.ends_ask_bind_iff.mp h with
      ⟨reply, rest, hSplit, hRest⟩
    rw [hSplit] at hAnswers
    have hReply : reply = view.resolve name :=
      hAnswers _ List.mem_cons_self
    rw [← hReply]
    cases reply with
    | ok resolved => exact (Task.ends_pure_iff.mp hRest).2.1
    | failed e =>
        have hError := (Task.ends_fail_iff.mp hRest).2.1
        exact ⟨_, hError, Error.withContext_sameReport _ _ _ _⟩
    | threw what =>
        have hError := (Task.ends_fail_iff.mp hRest).2.1
        exact ⟨_, hError, Error.withContext_sameReport _ _ _ _⟩
  · rw [if_neg hResolver] at h ⊢
    have hError := (Task.ends_fail_iff.mp h).2.1
    exact ⟨_, hError, Error.withContext_sameReport _ _ _ _⟩

/-
  A read fails as the view fails to resolve the name, or it
  reaches the collection that the view knows.
-/
theorem ends_reach_of_view
    {d : Descriptor (EntityTypes.schema t)}
    {kind : RequestKind}
    {f : Option Attempt × CollectionName → Task T K α}
    {outcome : Except Failure α}
    (hDescriptor : repo.mapping.descriptor t = .ok d)
    (hAnswers : view.Answers transcript)
    (h :
      (repo.reach t kind id scope >>= f).Ends
        before transcript outcome after) :
    (∃ cause,
      view.resolution repo
          (chosenCollection repo.settings d scope) =
        .error cause ∧
        Conveys outcome (.error cause)) ∨
      ∃ resolved attempt? opening closing,
        view.resolution repo
            (chosenCollection repo.settings d scope) =
          .ok resolved ∧
          transcript = opening ++ closing ∧
          (f (attempt?, resolved)).Ends
            before closing outcome after := by
  unfold reach at h
  simp only [bind_assoc, pure_bind] at h
  rcases Task.ends_ofResult_bind_iff.mp h with
    ⟨cause, hCause, -⟩ | ⟨given, hGiven, h₁⟩
  · rw [hDescriptor] at hCause
    cases hCause
  rw [hDescriptor] at hGiven
  have hSame : d = given := Except.ok.inj hGiven
  subst hSame
  rcases (activeAttempt_prepares repo scope).ends_bind h₁ with
    ⟨failure, hAttempt, -⟩ |
      ⟨asked, attempt?, rest, hSplit, -, -, h₂⟩
  · rcases ends_activeAttempt hAttempt with
      ⟨-, -, -, _, hNone, -⟩
    cases hNone
  subst hSplit
  rcases (resolve_prepares repo _ _ _).ends_bind h₂ with
    ⟨failure, hResolve, -, hOutcome, -⟩ |
      ⟨resolving, resolved, closing, hRest, -, hResolve, hClosing⟩
  · have hConveys := ends_resolve_of_view hAnswers.right hResolve
    cases hView :
        view.resolution repo
          (chosenCollection repo.settings d scope) with
    | ok resolved =>
        rw [hView] at hConveys
        cases hConveys
    | error cause =>
        rw [hView] at hConveys
        rcases hConveys with ⟨told, hTold, hReport⟩
        have hFailure : failure = .error told :=
          Except.error.inj hTold
        refine .inl ⟨cause, rfl, told, ?_, hReport⟩
        rw [hOutcome, hFailure]
  · subst hRest
    have hConveys :=
      ends_resolve_of_view hAnswers.right.left hResolve
    refine
      .inr ⟨resolved, attempt?, asked ++ resolving, closing, ?_,
        (List.append_assoc _ _ _).symm, hClosing⟩
    cases hView :
        view.resolution repo
          (chosenCollection repo.settings d scope) with
    | ok known =>
        rw [hView] at hConveys
        rw [Except.ok.inj hConveys]
    | error cause =>
        rw [hView] at hConveys
        rcases hConveys with ⟨told, hTold, -⟩
        cases hTold

/-
  A request that is handed over is answered from the view.
-/
theorem Submission.of_view
    {request : Request}
    {attempt? : Option Attempt}
    {answer : Result StoreRecord}
    (h : Submission repo request attempt? transcript answer)
    (hConnects : repo.Connects attempt? = true)
    (hAnswers : view.Answers transcript)
    (hUnstopped : Unstopped transcript) :
    ∃ reply,
      answer = Repository.answered request reply false ∧
        (view.holding request.collection request.id).Tells
          request.kind reply := by
  cases h with
  | stopped =>
      have hStop := hUnstopped true List.mem_cons_self
      cases hStop
  | unconnected hNone =>
      rw [hConnects] at hNone
      cases hNone
  | answered _ reply stop =>
      have hStop : stop = false := by
        apply hUnstopped
        simp
      subst hStop
      have hTells :=
        hAnswers
          ⟨.submit attempt? (request.shownTo attempt?), reply⟩
          (by simp)
      exact ⟨reply, rfl, hTells⟩

/- What follows a request goes on from an answer of the view. -/
theorem ends_answer_of_view
    {request : Request}
    {attempt? : Option Attempt}
    {f : Result StoreRecord → Task T K α}
    {outcome : Except Failure α}
    (hConnects : repo.Connects attempt? = true)
    (hAnswers : view.Answers transcript)
    (hUnstopped : Unstopped transcript)
    (h :
      (Task.result (repo.submit request attempt?) >>= f).Ends
        before transcript outcome after) :
    ∃ reply ending,
      (view.holding request.collection request.id).Tells
          request.kind reply ∧
        (f (answered request reply false)).Ends
          before ending outcome after := by
  rcases ends_answer_bind h with
    ⟨submission, ending, answer, hSplit, hSubmission, hEnd⟩
  subst hSplit
  have hQuiet : Unstopped submission := by
    intro stop hMem
    exact hUnstopped stop (List.mem_append_left _ hMem)
  rcases hSubmission.of_view hConnects hAnswers.left hQuiet with
    ⟨reply, hAnswer, hTells⟩
  subst hAnswer
  exact ⟨reply, ending, hTells, hEnd⟩

/- A failure of an executor is answered with its report. -/
theorem answered_of_cause
    {request : Request}
    {reply : Reply StoreRecord}
    {cause : Error}
    (hReply : reply.cause? = some cause) :
    answered request reply false =
      .error
        (cause.ofExecution.withContext request.kind.name
          request.id request.collection.qualified) := by
  cases reply with
  | ok record => cases hReply
  | failed e =>
      have hCause : e = cause := Option.some.inj hReply
      rw [← hCause]
      rfl
  | threw what =>
      have hCause : Error.ofException what = cause :=
        Option.some.inj hReply
      rw [← hCause]
      rfl

------------------------------------------------------------
-- Tests
------------------------------------------------------------

/- On either route, what is held decides the test. -/
theorem finishExists_conveys
    {plan : Plan}
    {reply : Reply StoreRecord}
    {holding : Holding}
    {outcome : Except Failure Bool}
    (hKind :
      plan.request.kind =
        if plan.attempt?.isSome then .get else .exists)
    (hTells : holding.Tells plan.request.kind reply)
    (h :
      (finishExists plan
          (answered plan.request reply false) :
        Task T K Bool).Ends before transcript outcome after) :
    Conveys outcome holding.presence := by
  rw [hKind] at hTells
  by_cases hInside : plan.attempt?.isSome = true
  · rw [if_pos hInside] at hTells
    cases hTells with
    | got record =>
        have hOk := (Task.ends_pure_iff.mp h).2.1
        rw [hInside] at hOk
        exact hOk
    | gone hReply hMissing =>
        rw [answered_of_cause hReply] at h
        have hFalse := (ends_finishExists_error h).2.2
        have hSays :=
          (Error.ofExecution_documentNotFound_iff
            plan.request.kind.name plan.request.id
            plan.request.collection.qualified).mpr hMissing
        rw [hInside, hSays, Bool.and_true, if_pos rfl] at hFalse
        exact hFalse
    | failed hReply =>
        rename_i cause hCause
        rw [answered_of_cause hReply] at h
        have hError := (ends_finishExists_error h).2.2
        rw [hInside, Bool.true_and, if_neg
          (mt (Error.ofExecution_documentNotFound_iff _ _ _).mp
            hCause)] at hError
        exact ⟨_, hError, Error.withContext_sameReport _ _ _ _⟩
  · rw [if_neg hInside] at hTells
    have hOutside : plan.attempt?.isSome = false :=
      Bool.not_eq_true _ ▸ hInside
    cases hTells with
    | flagged hFlag =>
        have hOk := (Task.ends_pure_iff.mp h).2.1
        rw [hOutside, hFlag] at hOk
        exact hOk
    | unflagged hFlag =>
        have hOk := (Task.ends_pure_iff.mp h).2.1
        rw [hOutside, hFlag] at hOk
        exact hOk
    | failed hReply =>
        rw [answered_of_cause hReply] at h
        have hError := (ends_finishExists_error h).2.2
        rw [hOutside, Bool.false_and,
          if_neg Bool.false_ne_true] at hError
        exact ⟨_, hError, Error.withContext_sameReport _ _ _ _⟩

/- A test tells what the view says. -/
theorem isStored_conveys
    {d : Descriptor (EntityTypes.schema t)}
    {outcome : Except Failure Bool}
    (hDescriptor : repo.mapping.descriptor t = .ok d)
    (hConnects : ∀ attempt?, repo.Connects attempt? = true)
    (h :
      (repo.isStored t id scope : Task T K Bool).EndsIn view
        before outcome after) :
    Conveys outcome
      (view.presence repo
        (chosenCollection repo.settings d scope) id) := by
  rcases h with ⟨transcript, hEnds, hAnswers, hUnstopped⟩
  rw [isStored_eq] at hEnds
  unfold planExists at hEnds
  simp only [bind_assoc, pure_bind] at hEnds
  unfold StoreView.presence
  rcases ends_reach_of_view hDescriptor hAnswers hEnds with
    ⟨cause, hView, hConveys⟩ |
      ⟨resolved, attempt?, opening, closing, hView, hSplit, hRest⟩
  · rw [hView]
    exact hConveys
  · subst hSplit
    rw [hView]
    have hQuiet : Unstopped closing := by
      intro stop hMem
      exact hUnstopped stop (List.mem_append_right _ hMem)
    rcases ends_answer_of_view (hConnects _) hAnswers.right
        hQuiet hRest with
      ⟨reply, ending, hTells, hEnd⟩
    exact finishExists_conveys rfl hTells hEnd

------------------------------------------------------------
-- Searches
------------------------------------------------------------

/- What is held decides whether a search finds nothing. -/
theorem finishFind_none_iff
    {plan : Plan}
    {reply : Reply StoreRecord}
    {holding : Holding}
    {outcome : Except Failure (Option (EntityOf t))}
    (hKind : plan.request.kind = .get)
    (hTells : holding.Tells plan.request.kind reply)
    (h :
      (repo.finishFind t plan
          (answered plan.request reply false)).Ends
        before transcript outcome after) :
    outcome = .ok none ↔ holding.presence = .ok false := by
  rw [hKind] at hTells
  cases hTells with
  | got record =>
      have hSome := ends_finishFind_ok h
      constructor
      · intro hNone
        subst hNone
        rcases hSome with ⟨e, hFound⟩ | ⟨error, hFound⟩
        · cases hFound
        · cases hFound
      · intro hPresence
        cases hPresence
  | gone hReply hMissing =>
      rw [answered_of_cause hReply] at h
      have hNone := (ends_finishFind_error h).2.2
      rw [if_pos
        ((Error.ofExecution_documentNotFound_iff _ _ _).mpr
          hMissing)] at hNone
      exact ⟨fun _ => rfl, fun _ => hNone⟩
  | failed hReply =>
      rename_i cause hCause
      rw [answered_of_cause hReply] at h
      have hError := (ends_finishFind_error h).2.2
      rw [if_neg
        (mt (Error.ofExecution_documentNotFound_iff _ _ _).mp
          hCause)] at hError
      constructor
      · intro hNone
        rw [hError] at hNone
        cases hNone
      · intro hPresence
        cases hPresence

/- A search finds nothing exactly when the view says no. -/
theorem find_none_iff
    {d : Descriptor (EntityTypes.schema t)}
    {options : ReadOptions}
    {outcome : Except Failure (Option (EntityOf t))}
    (hDescriptor : repo.mapping.descriptor t = .ok d)
    (hConnects : ∀ attempt?, repo.Connects attempt? = true)
    (h :
      (repo.find t id options scope :
          Task T K (Option (EntityOf t))).EndsIn view
        before outcome after) :
    outcome = .ok none ↔
      view.presence repo
          (chosenCollection repo.settings d scope) id =
        .ok false := by
  rcases h with ⟨transcript, hEnds, hAnswers, hUnstopped⟩
  rw [find_eq] at hEnds
  unfold planFind at hEnds
  simp only [bind_assoc, pure_bind] at hEnds
  unfold StoreView.presence
  rcases ends_reach_of_view hDescriptor hAnswers hEnds with
    ⟨cause, hView, hConveys⟩ |
      ⟨resolved, attempt?, opening, closing, hView, hSplit, hRest⟩
  · rw [hView]
    constructor
    · intro hNone
      have hOk := (Conveys.eq_ok_iff hConveys).mp hNone
      cases hOk
    · intro hPresence
      cases hPresence
  · subst hSplit
    rw [hView]
    have hQuiet : Unstopped closing := by
      intro stop hMem
      exact hUnstopped stop (List.mem_append_right _ hMem)
    rcases ends_answer_of_view (hConnects _) hAnswers.right
        hQuiet hRest with
      ⟨reply, ending, hTells, hEnd⟩
    exact finishFind_none_iff rfl hTells hEnd

------------------------------------------------------------
-- Agreement
------------------------------------------------------------

/-
  Tests for a document agree, inside of an attempt and outside
  of any, and with a search for it. A test keeps nothing. It
  says yes exactly for a document that is there; a search
  finds nothing exactly where a test says no; and where the
  resolver fails, or all executors fail alike, two tests end
  with errors that differ in their contexts only.
-/
theorem existence_agrees
    {d : Descriptor (EntityTypes.schema t)}
    {name : CollectionName}
    (hDescriptor : repo.mapping.descriptor t = .ok d)
    (hConnects : ∀ attempt?, repo.Connects attempt? = true)
    (hName : name = chosenCollection repo.settings d scope) :
    (∀ {attempt? before outcome after}
        {transcript : Transcript T K},
      (repo.isStored t id { scope with attempt? }).Ends
          before transcript outcome after →
        after = before) ∧
    (∀ {attempt? before stored after resolved},
      (repo.isStored t id { scope with attempt? } :
          Task T K Bool).EndsIn view before stored after →
        view.resolution repo name = .ok resolved →
          (stored = .ok true ↔
            view.holding resolved id = .present) ∧
          (stored = .ok false ↔
            view.holding resolved id = .missing)) ∧
    (∀ {attempt? before stored after}
        {other? options start found finish},
      (repo.isStored t id { scope with attempt? } :
          Task T K Bool).EndsIn view before stored after →
        (repo.find t id options
              { scope with attempt? := other? } :
            Task T K (Option (EntityOf t))).EndsIn view
          start found finish →
          (found = .ok none ↔ stored = .ok false)) ∧
    (∀ {attempt? before stored after}
        {other? start again finish},
      (repo.isStored t id { scope with attempt? } :
          Task T K Bool).EndsIn view before stored after →
        (repo.isStored t id { scope with attempt? := other? } :
            Task T K Bool).EndsIn view start again finish →
          (∀ resolved,
            view.resolution repo name = .ok resolved →
              ∃ cause hCause,
                view.holding resolved id =
                  .failing cause hCause) →
            ∃ told retold : Error,
              stored = .error (.error told) ∧
                again = .error (.error retold) ∧
                told.SameReport retold) := by
  subst hName
  have hConveys :
      ∀ {attempt? before stored after},
        (repo.isStored t id { scope with attempt? } :
            Task T K Bool).EndsIn view before stored after →
          Conveys stored
            (view.presence repo
              (chosenCollection repo.settings d scope) id) :=
    isStored_conveys hDescriptor hConnects
  refine ⟨isStored_keeps, ?_, ?_, ?_⟩
  · intro attempt? before stored after resolved hTest hResolved
    have hStored := hConveys hTest
    rw [StoreView.presence_of_resolution hResolved] at hStored
    rw [Conveys.eq_ok_iff hStored, Conveys.eq_ok_iff hStored]
    exact
      ⟨Holding.presence_eq_true_iff,
        Holding.presence_eq_false_iff⟩
  · intro attempt? before stored after other? options start found
      finish hTest hSearch
    have hStored := hConveys hTest
    have hFound := find_none_iff hDescriptor hConnects hSearch
    exact hFound.trans (Conveys.eq_ok_iff hStored).symm
  · intro attempt? before stored after other? start again finish
      hTest hAgain hFails
    have hStored := hConveys hTest
    have hRetold := hConveys hAgain
    rcases StoreView.presence_of_failing hFails with
      ⟨cause, hPresence⟩
    rw [hPresence] at hStored hRetold
    rcases hStored with ⟨told, hTold, hReport⟩
    rcases hRetold with ⟨retold, hAgain, hOther⟩
    exact
      ⟨told, retold, hTold, hAgain, hReport.trans hOther.symm⟩

end Repository

------------------------------------------------------------
-- A Document That Cannot Be Read
------------------------------------------------------------

/- What a session answers, it answers from a view. -/
theorem Session.endsIn_work
    (s : Session T)
    {x : Task T (scriptedHooks T) α}
    {view : StoreView}
    (hAnswers : view.Answers (s.transcriptOf x))
    (hStops : ∀ stop ∈ stopAnswers (s.transcriptOf x), stop = false) :
    x.EndsIn view s.registry (s.work x).1 (s.work x).2.registry :=
  ⟨s.transcriptOf x, s.ends_work x, hAnswers,
    unstopped_iff.mpr hStops⟩

namespace Sample

/- Ann is in the store, with a payload that is no document. -/
def garbled : Session EntityType :=
  sceneWith "p1" "oops" 7

/- What that store shows. -/
def garbledView : StoreView where
  resolve := .ok
  holding _ id :=
    if id = Text.lit "p1" then .present else .missing

/- The error of executors that take too long. -/
def tooSlow : Error where
  code := .timeout
  message := Text.lit "too slow"

/- The same store when its executors take too long. -/
def delayed : Session EntityType :=
  { garbled with store.fails? := some tooSlow }

def delayedView : StoreView where
  resolve := .ok
  holding _ _ := .failing tooSlow (by decide)

/- A test for a person. -/
abbrev testFor
    (s : Session EntityType)
    (id : String)
    (scope : CallScope) :
    Task EntityType (scriptedHooks EntityType) Bool :=
  s.repository.isStored .person (Text.lit id) scope

/- A search for a person. -/
abbrev searchFor
    (s : Session EntityType)
    (id : String)
    (scope : CallScope) :
    Task EntityType (scriptedHooks EntityType)
      (Option (EntityOf EntityType.person)) :=
  s.repository.find .person (Text.lit id) {} scope

end Sample

open Sample in
/-
  Ann is in the store on both routes, though nobody can read
  her; nobody else is, and a search for them finds nothing.
  Executors that take too long are reported alike.
-/
theorem Repository.existence_agrees_of_garbled :
    (garbled.work (testFor garbled "p1" {})).1 = .ok true ∧
      (garbled.work (testFor garbled "p1" (inAttempt "T1"))).1 =
        .ok true ∧
      (garbled.work
          (testFor garbled "p1" (inAttempt "T1"))).2.registry =
        garbled.registry ∧
      (garbled.work (testFor garbled "p2" (inAttempt "T1"))).1 =
        .ok false ∧
      (garbled.work (searchFor garbled "p2" {})).1 = .ok none ∧
      ∃ told retold : Error,
        (delayed.work (testFor delayed "p1" {})).1 =
            .error (.error told) ∧
          (delayed.work
              (testFor delayed "p1" (inAttempt "T1"))).1 =
            .error (.error retold) ∧
          told.SameReport retold := by
  have hConnects :
      ∀ attempt?, garbled.repository.Connects attempt? = true := by
    intro attempt?
    cases attempt? with
    | none => rfl
    | some attempt => rfl
  have hDescriptor :
      garbled.repository.mapping.descriptor EntityType.person =
        .ok (Declaration.usual .person).descriptor :=
    rfl
  have hOutside :
      (testFor garbled "p1" {}).EndsIn garbledView _ _ _ :=
    garbled.endsIn_work
      (.cons trivial
        (.cons rfl
          (.cons trivial
            (.cons (.flagged rfl) (.cons trivial .nil)))))
      (by decide +kernel)
  have hInside :
      (testFor garbled "p1" (inAttempt "T1")).EndsIn garbledView
        _ _ _ :=
    garbled.endsIn_work
      (.cons rfl
        (.cons trivial
          (.cons (.got _) (.cons trivial .nil))))
      (by decide +kernel)
  have hNobody :
      (testFor garbled "p2" (inAttempt "T1")).EndsIn garbledView
        _ _ _ :=
    garbled.endsIn_work
      (.cons rfl
        (.cons trivial
          (.cons (.gone rfl (by decide)) (.cons trivial .nil))))
      (by decide +kernel)
  have hSearch :
      (searchFor garbled "p2" {}).EndsIn garbledView _ _ _ :=
    garbled.endsIn_work
      (.cons trivial
        (.cons rfl
          (.cons trivial
            (.cons (.gone rfl (by decide))
              (.cons trivial .nil)))))
      (by decide +kernel)
  have hSlow :
      (testFor delayed "p1" {}).EndsIn delayedView _ _ _ :=
    delayed.endsIn_work
      (.cons trivial
        (.cons rfl
          (.cons trivial
            (.cons (.failed rfl) (.cons trivial .nil)))))
      (by decide +kernel)
  have hSlowInside :
      (testFor delayed "p1" (inAttempt "T1")).EndsIn delayedView
        _ _ _ :=
    delayed.endsIn_work
      (.cons rfl
        (.cons trivial
          (.cons (.failed rfl) (.cons trivial .nil))))
      (by decide +kernel)
  rcases @existence_agrees _ _ (scriptedHooks EntityType)
      garbled.repository _ garbledView {} (Text.lit "p1") _ _
      hDescriptor hConnects rfl with
    ⟨hKeeps, hTold, -, -⟩
  rcases @existence_agrees _ _ (scriptedHooks EntityType)
      garbled.repository _ garbledView {} (Text.lit "p2") _ _
      hDescriptor hConnects rfl with
    ⟨-, hToldNobody, hFound, -⟩
  rcases @existence_agrees _ _ (scriptedHooks EntityType)
      delayed.repository _ delayedView {} (Text.lit "p1") _ _
      hDescriptor hConnects rfl with
    ⟨-, -, -, hFails⟩
  refine ⟨(hTold hOutside rfl).1.mpr rfl,
    (hTold hInside rfl).1.mpr rfl,
    hKeeps (Session.ends_work _ _),
    (hToldNobody hNobody rfl).2.mpr rfl, ?_, ?_⟩
  · apply (hFound hNobody hSearch).mpr
    exact (hToldNobody hNobody rfl).2.mpr rfl
  · apply hFails hSlow hSlowInside
    intro resolved hResolved
    exact ⟨tooSlow, by decide, rfl⟩

end DocumentMapper
