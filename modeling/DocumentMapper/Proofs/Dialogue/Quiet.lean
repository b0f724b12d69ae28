import DocumentMapper.Proofs.Dialogue.Asking

/-
  Steps and tasks that hand over no request.

  Conversions of entities talk to listeners and callbacks
  only, whatever those answer. Everything else that precedes
  a request neither hands one over nor touches the registry.

  Key definitions include:
    * `Call.IsHook`, `OnlyHooks`, `Unstopped`
    * `submissions`, `providedAttempts`, `resolutions`
    * `stopAnswers`, `records`
    * `Step.Hooked`, `Task.Hooked`
    * `Task.Quiet`
    * `Call.IsPreparation`, `Task.Prepares`

  Main statements include:
    * `Codec.encode_hooked`
    * `Task.Prepares.bind`
    * `Task.Prepares.ends_bind`, `Task.Quiet.ends_bind`
-/

namespace DocumentMapper

variable {T : Type}
variable [EntityTypes T]
variable {K : Hooks T}
variable {α β : Type}

------------------------------------------------------------
-- Kinds of Exchanges
------------------------------------------------------------

/- The question is for listeners or callbacks. -/
def Call.IsHook : Call T K → Prop
  | .listeners _ => True
  | .notify _ _ => True
  | .beforeHooks _ => True
  | .runBefore _ _ _ _ => True
  | .afterHooks _ => True
  | .runAfter _ _ _ _ _ => True
  | _ => False

/-
  The question may precede a request: it neither hands one
  over nor concerns what happens afterwards, and it is not
  whether the caller wants to stop.
-/
def Call.IsPreparation : Call T K → Prop
  | .submit _ _ => False
  | .stopRequested => False
  | .listeners stage => stage ≠ .afterSave
  | .notify _ event => event.stage ≠ .afterSave
  | _ => True

/- All questions may precede a request. -/
def OnlyPreparation
    (transcript : Transcript T K) : Prop :=
  ∀ x ∈ transcript, x.question.IsPreparation

/- Nobody but listeners and callbacks is asked. -/
def OnlyHooks
    (transcript : Transcript T K) : Prop :=
  ∀ x ∈ transcript, x.question.IsHook

/- The caller is never found to have asked to stop. -/
def Unstopped
    (transcript : Transcript T K) : Prop :=
  ∀ stop, ⟨.stopRequested, stop⟩ ∈ transcript → stop = false

/- The request that an exchange hands over, and its attempt. -/
def submission?
    (x : Exchange (Call.Answer (T := T) (K := K))) :
    Option (Option Attempt × Request) :=
  match x.question with
  | .submit attempt? request => some (attempt?, request)
  | _ => none

/- The requests that are handed over, with their attempts. -/
def submissions
    (transcript : Transcript T K) :
    List (Option Attempt × Request) :=
  transcript.filterMap submission?

/- The attempt that the provider answered with. -/
def providedAttempt?
    (x : Exchange (Call.Answer (T := T) (K := K))) :
    Option (Option Attempt) :=
  match x with
  | ⟨.currentAttempt, attempt?⟩ => some attempt?
  | _ => none

/- All answers of the provider. -/
def providedAttempts
    (transcript : Transcript T K) : List (Option Attempt) :=
  transcript.filterMap providedAttempt?

/- The name that the resolver was asked for, and its answer. -/
def resolution?
    (x : Exchange (Call.Answer (T := T) (K := K))) :
    Option (CollectionName × Reply CollectionName) :=
  match x with
  | ⟨.resolve name, reply⟩ => some (name, reply)
  | _ => none

/- All names that the resolver was asked for, with its answers. -/
def resolutions
    (transcript : Transcript T K) :
    List (CollectionName × Reply CollectionName) :=
  transcript.filterMap resolution?

/- Whether the caller was found to have asked to stop. -/
def stopAnswer?
    (x : Exchange (Call.Answer (T := T) (K := K))) :
    Option Bool :=
  match x with
  | ⟨.stopRequested, stop⟩ => some stop
  | _ => none

/- All answers of the caller. -/
def stopAnswers
    (transcript : Transcript T K) : List Bool :=
  transcript.filterMap stopAnswer?

/- The record that an exchange got. -/
def record?
    (x : Exchange (Call.Answer (T := T) (K := K))) :
    Option StoreRecord :=
  match x with
  | ⟨.submit _ _, .ok record⟩ => some record
  | _ => none

/- The records that executors answered with. -/
def records
    (transcript : Transcript T K) : List StoreRecord :=
  transcript.filterMap record?

@[simp]
theorem submissions_nil :
    submissions ([] : Transcript T K) = [] :=
  rfl

@[simp]
theorem submissions_append
    (first second : Transcript T K) :
    submissions (first ++ second) =
      submissions first ++ submissions second :=
  List.filterMap_append

@[simp]
theorem submissions_flatten
    (transcripts : List (Transcript T K)) :
    submissions transcripts.flatten =
      transcripts.flatMap submissions := by
  induction transcripts with
  | nil => rfl
  | cons first rest ih =>
      rw [List.flatten_cons, submissions_append, ih,
        List.flatMap_cons]

@[simp]
theorem providedAttempts_append
    (first second : Transcript T K) :
    providedAttempts (first ++ second) =
      providedAttempts first ++ providedAttempts second :=
  List.filterMap_append

@[simp]
theorem resolutions_append
    (first second : Transcript T K) :
    resolutions (first ++ second) =
      resolutions first ++ resolutions second :=
  List.filterMap_append

@[simp]
theorem stopAnswers_append
    (first second : Transcript T K) :
    stopAnswers (first ++ second) =
      stopAnswers first ++ stopAnswers second :=
  List.filterMap_append

@[simp]
theorem records_append
    (first second : Transcript T K) :
    records (first ++ second) =
      records first ++ records second :=
  List.filterMap_append

/- Without a request there is no record. -/
theorem records_eq_nil
    {transcript : Transcript T K}
    (h : submissions transcript = []) :
    records transcript = [] := by
  rw [submissions, List.filterMap_eq_nil_iff] at h
  rw [records, List.filterMap_eq_nil_iff]
  rintro ⟨question, answer⟩ hMem
  have hNone := h _ hMem
  cases question <;> first | rfl | cases hNone

/- Records come from where requests are handed over. -/
theorem records_around
    {opening middle closing : Transcript T K}
    (hOpening : submissions opening = [])
    (hClosing : submissions closing = []) :
    records (opening ++ middle ++ closing) = records middle := by
  rw [records_append, records_append, records_eq_nil hOpening,
    records_eq_nil hClosing, List.nil_append, List.append_nil]

/- The caller never asked to stop if no answer says so. -/
theorem unstopped_iff
    {transcript : Transcript T K} :
    Unstopped transcript ↔
      ∀ stop ∈ stopAnswers transcript, stop = false := by
  unfold Unstopped stopAnswers
  constructor
  · intro h stop hMem
    rcases List.mem_filterMap.mp hMem with
      ⟨⟨question, answer⟩, hMem, hSome⟩
    cases question <;> cases hSome
    exact h stop hMem
  · intro h stop hMem
    exact h stop (List.mem_filterMap.mpr ⟨_, hMem, rfl⟩)

/- A request that is handed over is one of the questions. -/
theorem mem_submissions_iff
    {transcript : Transcript T K}
    {attempt? : Option Attempt}
    {request : Request} :
    (attempt?, request) ∈ submissions transcript ↔
      ∃ reply,
        ⟨.submit attempt? request, reply⟩ ∈ transcript := by
  unfold submissions
  rw [List.mem_filterMap]
  constructor
  · rintro ⟨⟨question, answer⟩, hMem, hSome⟩
    cases question <;> simp only [submission?,
      Option.some.injEq, Prod.mk.injEq, reduceCtorEq] at hSome
    rcases hSome with ⟨rfl, rfl⟩
    exact ⟨answer, hMem⟩
  · rintro ⟨reply, hMem⟩
    exact ⟨_, hMem, rfl⟩

/- Nothing about other questions is found among hooks. -/
theorem OnlyHooks.filterMap_eq_nil
    {transcript : Transcript T K}
    (h : OnlyHooks transcript)
    {f : Exchange (Call.Answer (T := T) (K := K)) → Option α}
    (hNone : ∀ x, x.question.IsHook → f x = none) :
    transcript.filterMap f = [] := by
  rw [List.filterMap_eq_nil_iff]
  exact fun x hMem => hNone x (h x hMem)

/- Listeners and callbacks are handed no request. -/
theorem OnlyHooks.submissions_eq_nil
    {transcript : Transcript T K}
    (h : OnlyHooks transcript) :
    submissions transcript = [] := by
  apply h.filterMap_eq_nil
  rintro ⟨question, answer⟩ hHook
  cases question <;> first | rfl | exact hHook.elim

theorem OnlyPreparation.nil :
    OnlyPreparation ([] : Transcript T K) :=
  fun _ hMem => absurd hMem List.not_mem_nil

/- Nothing is handed over in preparation. -/
theorem OnlyPreparation.submissions_eq_nil
    {transcript : Transcript T K}
    (h : OnlyPreparation transcript) :
    submissions transcript = [] := by
  rw [submissions, List.filterMap_eq_nil_iff]
  rintro ⟨question, answer⟩ hMem
  cases question <;> first | rfl | exact (h _ hMem).elim

/- The caller is not asked in preparation. -/
theorem OnlyPreparation.stopAnswers_eq_nil
    {transcript : Transcript T K}
    (h : OnlyPreparation transcript) :
    stopAnswers transcript = [] := by
  rw [stopAnswers, List.filterMap_eq_nil_iff]
  rintro ⟨question, answer⟩ hMem
  cases question <;> first | rfl | exact (h _ hMem).elim

/- Whether the caller asked to stop is found out afterwards. -/
theorem OnlyPreparation.unstopped_append
    {opening rest : Transcript T K}
    (h : OnlyPreparation opening) :
    Unstopped (opening ++ rest) ↔ Unstopped rest := by
  rw [unstopped_iff, unstopped_iff, stopAnswers_append,
    h.stopAnswers_eq_nil, List.nil_append]

/- Listeners and callbacks are not asked whether to stop. -/
theorem OnlyHooks.stopAnswers_eq_nil
    {transcript : Transcript T K}
    (h : OnlyHooks transcript) :
    stopAnswers transcript = [] := by
  apply h.filterMap_eq_nil
  rintro ⟨question, answer⟩ hHook
  cases question <;> first | rfl | exact hHook.elim

/- Listeners and callbacks are asked for no attempt. -/
theorem OnlyHooks.providedAttempts_eq_nil
    {transcript : Transcript T K}
    (h : OnlyHooks transcript) :
    providedAttempts transcript = [] := by
  apply h.filterMap_eq_nil
  rintro ⟨question, answer⟩ hHook
  cases question <;> first | rfl | exact hHook.elim

/- Listeners and callbacks are asked for no collection. -/
theorem OnlyHooks.resolutions_eq_nil
    {transcript : Transcript T K}
    (h : OnlyHooks transcript) :
    resolutions transcript = [] := by
  apply h.filterMap_eq_nil
  rintro ⟨question, answer⟩ hHook
  cases question <;> first | rfl | exact hHook.elim

/- An empty transcript has no questions. -/
theorem OnlyHooks.nil :
    OnlyHooks ([] : Transcript T K) :=
  fun _ hMem => absurd hMem List.not_mem_nil

------------------------------------------------------------
-- Steps That Ask Hooks Only
------------------------------------------------------------

/- Whatever it is answered, the step asks hooks only. -/
def Step.Hooked
    (x : Step T K α) : Prop :=
  ∀ transcript outcome,
    x.Ends transcript outcome → OnlyHooks transcript

/- A question of a conversion is for hooks. -/
theorem Call.IsConversion.isHook
    {c : Call T K}
    (h : c.IsConversion) :
    c.IsHook := by
  cases c <;> trivial

/- A question of a conversion may precede a request. -/
theorem Call.IsConversion.isPreparation
    {c : Call T K}
    (h : c.IsConversion) :
    c.IsPreparation := by
  cases c <;> trivial

/- Publishing asks the listeners. -/
theorem publishIf_hooked
    (hasBus : Bool)
    (event : Event T) :
    Step.Hooked (publishIf hasBus event : Step T K Unit) :=
  publishIf_asks trivial (fun _ => trivial) hasBus

/- Encoding asks in preparation only. -/
theorem Codec.encode_prepares
    {t : T}
    (c : Codec T)
    (e : EntityOf t)
    (collection : Text) :
    (c.encode e collection : Step T K Document).Asks
      Call.IsPreparation :=
  (c.encode_asks e collection).mono fun _ h => h.isPreparation

/- Encoding talks to listeners and callbacks only. -/
theorem Codec.encode_hooked
    {t : T}
    (c : Codec T)
    (e : EntityOf t)
    (collection : Text) :
    Step.Hooked (c.encode e collection : Step T K Document) :=
  (c.encode_asks e collection).mono fun _ h => h.isHook

------------------------------------------------------------
-- Tasks That Ask Hooks Only
------------------------------------------------------------

/- Whatever it is answered, the task asks hooks only. -/
def Task.Hooked
    (x : Task T K α) : Prop :=
  ∀ before transcript outcome after,
    x.Ends before transcript outcome after →
      OnlyHooks transcript

namespace Task

theorem Hooked.pure
    (value : α) :
    Hooked (Pure.pure value : Task T K α) := by
  intro before transcript outcome after h
  rcases ends_pure_iff.mp h with ⟨rfl, -, -⟩
  exact .nil

theorem Hooked.fail
    (e : Error) :
    Hooked (Task.fail e : Task T K α) := by
  intro before transcript outcome after h
  rcases ends_fail_iff.mp h with ⟨rfl, -, -⟩
  exact .nil

theorem Hooked.ofResult
    (r : Result α) :
    Hooked (Task.ofResult r : Task T K α) := by
  intro before transcript outcome after h
  rcases ends_ofResult_iff.mp h with ⟨rfl, -, -⟩
  exact .nil

theorem Hooked.ofStep
    {x : Step T K α}
    (hHooked : x.Hooked) :
    Hooked (Task.ofStep x) := by
  intro before transcript outcome after h
  rcases ends_ofStep_iff.mp h with ⟨r, hStep, -, -⟩
  exact hHooked _ _ hStep

theorem Hooked.inContext
    {x : Task T K α}
    (hHooked : Hooked x)
    (kind : RequestKind)
    (id collection : Text) :
    Hooked (Task.inContext kind id collection x) := by
  intro before transcript outcome after h
  rcases ends_inContext_iff.mp h with ⟨inner, hInner, -⟩
  exact hHooked _ _ _ _ hInner

theorem Hooked.bind
    {x : Task T K α}
    {f : α → Task T K β}
    (hFirst : Hooked x)
    (hSecond : ∀ value, Hooked (f value)) :
    Hooked (x >>= f) := by
  intro before transcript outcome after h
  rcases ends_bind_iff.mp h with
    ⟨failure, hEnds, -⟩ |
      ⟨first, value, between, second, rfl, h₁, h₂⟩
  · exact hFirst _ _ _ _ hEnds
  · intro x hx
    rcases List.mem_append.mp hx with hx | hx
    · exact hFirst _ _ _ _ h₁ x hx
    · exact hSecond value _ _ _ _ h₂ x hx

end Task

------------------------------------------------------------
-- Quiet Tasks
------------------------------------------------------------

/-
  Whatever it is answered, the task hands over no request and
  leaves the registry alone.
-/
def Task.Quiet
    (x : Task T K α) : Prop :=
  ∀ before transcript outcome after,
    x.Ends before transcript outcome after →
      submissions transcript = [] ∧ after = before

/-
  Whatever it is answered, the task asks in preparation only,
  and leaves the registry alone.
-/
def Task.Prepares
    (x : Task T K α) : Prop :=
  ∀ before transcript outcome after,
    x.Ends before transcript outcome after →
      OnlyPreparation transcript ∧ after = before

namespace Task

/- In preparation everything is quiet. -/
theorem Prepares.quiet
    {x : Task T K α}
    (hPrepares : Prepares x) :
    Quiet x := by
  intro before transcript outcome after h
  rcases hPrepares _ _ _ _ h with ⟨hOnly, rfl⟩
  exact ⟨hOnly.submissions_eq_nil, rfl⟩

theorem Prepares.pure
    (value : α) :
    Prepares (Pure.pure value : Task T K α) := by
  intro before transcript outcome after h
  rcases ends_pure_iff.mp h with ⟨rfl, -, rfl⟩
  exact ⟨.nil, rfl⟩

theorem Prepares.fail
    (e : Error) :
    Prepares (Task.fail e : Task T K α) := by
  intro before transcript outcome after h
  rcases ends_fail_iff.mp h with ⟨rfl, -, rfl⟩
  exact ⟨.nil, rfl⟩

theorem Prepares.ask
    {c : Call T K}
    (hCall : c.IsPreparation) :
    Prepares (Task.ask c) := by
  intro before transcript outcome after h
  rcases ends_ask_iff.mp h with ⟨answer, rfl, -, rfl⟩
  refine ⟨?_, rfl⟩
  intro x hx
  rcases List.mem_singleton.mp hx with rfl
  exact hCall

theorem Prepares.ofResult
    (r : Result α) :
    Prepares (Task.ofResult r : Task T K α) := by
  intro before transcript outcome after h
  rcases ends_ofResult_iff.mp h with ⟨rfl, -, rfl⟩
  exact ⟨.nil, rfl⟩

theorem Prepares.ofAccessor
    (r : Except Text α) :
    Prepares (Task.ofAccessor r : Task T K α) := by
  intro before transcript outcome after h
  rcases ends_ofAccessor_iff.mp h with ⟨rfl, -, rfl⟩
  exact ⟨.nil, rfl⟩

theorem Prepares.ofStep
    {x : Step T K α}
    (hAsks : x.Asks Call.IsPreparation) :
    Prepares (Task.ofStep x) := by
  intro before transcript outcome after h
  rcases ends_ofStep_iff.mp h with ⟨r, hStep, -, rfl⟩
  exact ⟨hAsks _ _ hStep, rfl⟩

theorem Prepares.inContext
    {x : Task T K α}
    (hPrepares : Prepares x)
    (kind : RequestKind)
    (id collection : Text) :
    Prepares (Task.inContext kind id collection x) := by
  intro before transcript outcome after h
  rcases ends_inContext_iff.mp h with ⟨inner, hInner, -⟩
  exact hPrepares _ _ _ _ hInner

theorem Prepares.ite
    {p : Prop}
    [Decidable p]
    {x y : Task T K α}
    (hThen : Prepares x)
    (hElse : Prepares y) :
    Prepares (if p then x else y) := by
  split
  · exact hThen
  · exact hElse

theorem Prepares.bind
    {x : Task T K α}
    {f : α → Task T K β}
    (hFirst : Prepares x)
    (hSecond : ∀ value, Prepares (f value)) :
    Prepares (x >>= f) := by
  intro before transcript outcome after h
  rcases ends_bind_iff.mp h with
    ⟨failure, hEnds, -⟩ |
      ⟨first, value, between, second, rfl, h₁, h₂⟩
  · exact hFirst _ _ _ _ hEnds
  · rcases hFirst _ _ _ _ h₁ with ⟨hFirstOnly, rfl⟩
    rcases hSecond value _ _ _ _ h₂ with ⟨hSecondOnly, rfl⟩
    exact
      ⟨List.forall_mem_append.mpr ⟨hFirstOnly, hSecondOnly⟩, rfl⟩

/- It failed without a request, and left the registry alone. -/
def FailsQuietly
    (before : ResultRegistry)
    (transcript : Transcript T K)
    (outcome : Except Failure α)
    (after : ResultRegistry) : Prop :=
  submissions transcript = [] ∧ after = before ∧
    ∃ failure, outcome = .error failure

/- A preparation before another task fails, or ends with a value. -/
theorem Prepares.ends_bind
    {x : Task T K α}
    {f : α → Task T K β}
    {before after : ResultRegistry}
    {transcript : Transcript T K}
    {outcome : Except Failure β}
    (hPrepares : Prepares x)
    (h : Ends (x >>= f) before transcript outcome after) :
    (∃ failure,
        Ends x before transcript (.error failure) before ∧
          OnlyPreparation transcript ∧
          outcome = .error failure ∧ after = before) ∨
      ∃ first value second,
        transcript = first ++ second ∧
          OnlyPreparation first ∧
          Ends x before first (.ok value) before ∧
          Ends (f value) before second outcome after := by
  rcases ends_bind_iff.mp h with
    ⟨failure, hEnds, rfl⟩ |
      ⟨first, value, between, second, rfl, h₁, h₂⟩
  · rcases hPrepares _ _ _ _ hEnds with ⟨hOnly, rfl⟩
    exact .inl ⟨failure, hEnds, hOnly, rfl, rfl⟩
  · rcases hPrepares _ _ _ _ h₁ with ⟨hOnly, rfl⟩
    exact .inr ⟨first, value, second, rfl, hOnly, h₁, h₂⟩

/- A quiet task before another one fails, or ends with a value. -/
theorem Quiet.ends_bind
    {x : Task T K α}
    {f : α → Task T K β}
    {before after : ResultRegistry}
    {transcript : Transcript T K}
    {outcome : Except Failure β}
    (hQuiet : Quiet x)
    (h : Ends (x >>= f) before transcript outcome after) :
    FailsQuietly before transcript outcome after ∨
      ∃ first value second,
        transcript = first ++ second ∧
          submissions first = [] ∧
          Ends x before first (.ok value) before ∧
          Ends (f value) before second outcome after := by
  rcases ends_bind_iff.mp h with
    ⟨failure, hEnds, rfl⟩ |
      ⟨first, value, between, second, rfl, h₁, h₂⟩
  · rcases hQuiet _ _ _ _ hEnds with ⟨hNone, rfl⟩
    exact .inl ⟨hNone, rfl, failure, rfl⟩
  · rcases hQuiet _ _ _ _ h₁ with ⟨hNone, rfl⟩
    exact .inr ⟨first, value, second, rfl, hNone, h₁, h₂⟩

/- With a value in the end, no part has failed. -/
theorem Quiet.ends_bind_ok
    {x : Task T K α}
    {f : α → Task T K β}
    {before after : ResultRegistry}
    {transcript : Transcript T K}
    {value : β}
    (hQuiet : Quiet x)
    (h : Ends (x >>= f) before transcript (.ok value) after) :
    ∃ first middle second,
      transcript = first ++ second ∧
        submissions first = [] ∧
        Ends x before first (.ok middle) before ∧
        Ends (f middle) before second (.ok value) after := by
  rcases hQuiet.ends_bind h with
    ⟨-, -, failure, hError⟩ | hParts
  · cases hError
  · exact hParts

end Task

end DocumentMapper
