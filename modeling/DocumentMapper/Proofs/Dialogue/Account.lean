import DocumentMapper.Event.Hooks
import DocumentMapper.Proofs.Dialogue.Outcome
import DocumentMapper.Proofs.Error.Taxonomy
import DocumentMapper.Proofs.Result

/-
  Where the errors of steps and tasks come from.

  An error comes from a listener who failed, and says what
  that listener said, or it has its origin in the step or task
  itself. Nothing comes of a conversation after a listener has
  failed but this error.

  Key definitions include:
    * `listenerErrors`
    * `Account`
    * `Step.Accounts`, `Task.Accounts`

  Main statements include:
    * `Step.Accounts.bind`, `Task.Accounts.bind`
    * `Step.Accounts.publishIf`
    * `Task.Accounts.inContext`
-/

namespace DocumentMapper

variable {T : Type}
variable [EntityTypes T]
variable {K : Hooks T}
variable {α β : Type}

------------------------------------------------------------
-- Errors of Listeners
------------------------------------------------------------

/- The error of a listener; one whose code is success is none. -/
def listenerError?
    (x : Exchange (Call.Answer (T := T) (K := K))) :
    Option Error :=
  match x with
  | ⟨.notify _ _, .failed e⟩ =>
      if Status.isOk ⟨e⟩ then none else some e
  | _ => none

/- All errors of listeners. -/
def listenerErrors
    (transcript : Transcript T K) : List Error :=
  transcript.filterMap listenerError?

@[simp]
theorem listenerErrors_nil :
    listenerErrors ([] : Transcript T K) = [] :=
  rfl

@[simp]
theorem listenerErrors_append
    (first second : Transcript T K) :
    listenerErrors (first ++ second) =
      listenerErrors first ++ listenerErrors second :=
  List.filterMap_append

------------------------------------------------------------
-- Accounts
------------------------------------------------------------

/-
  How an outcome is accounted for: no listener failed, and an
  error or an exception is one of its own; or one listener
  failed, and the error says what the listener said.
-/
inductive Account
    (Own : Error → Prop)
    (Thrown : Text → Prop) :
    List Error → Except Failure α → Prop where
  | value (value : α) :
      Account Own Thrown [] (.ok value)
  | own
      {e : Error}
      (hOwn : Own e) :
      Account Own Thrown [] (.error (.error e))
  | thrown
      {what : Text}
      (hThrown : Thrown what) :
      Account Own Thrown [] (.error (.thrown what))
  | relayed
      {e cause : Error}
      (hKind : e.SameKind cause)
      (hMessage : e.message = cause.message) :
      Account Own Thrown [cause] (.error (.error e))

namespace Account

variable {Own : Error → Prop}
variable {Thrown : Text → Prop}
variable {errors : List Error}

/- With a value in the end no listener has failed. -/
theorem of_ok
    {value : α}
    (h : Account Own Thrown errors (.ok value)) :
    errors = [] := by
  cases h
  rfl

/- A failure is accounted for whatever a value would be. -/
theorem of_error
    {failure : Failure}
    (h :
      Account Own Thrown errors
        (.error failure : Except Failure α)) :
    Account Own Thrown errors
      (.error failure : Except Failure β) := by
  cases h with
  | own hOwn => exact .own hOwn
  | thrown hThrown => exact .thrown hThrown
  | relayed hKind hMessage => exact .relayed hKind hMessage

/- A result is accounted for by its own errors. -/
theorem of_result
    {r : Result α}
    (h : Result.FailsOnly Own r) :
    Account Own Thrown [] (Failure.ofResult r) := by
  cases r with
  | ok value => exact .value value
  | error e => exact .own (h e rfl)

/- What is thrown by nobody, is not thrown. -/
theorem weaken
    {outcome : Except Failure α}
    (h : Account Own (fun _ => False) errors outcome) :
    Account Own Thrown errors outcome := by
  cases h with
  | value value => exact .value value
  | own hOwn => exact .own hOwn
  | thrown hNever => exact hNever.elim
  | relayed hKind hMessage => exact .relayed hKind hMessage

/- Context does not touch what an error says. -/
theorem inContext
    {outcome : Except Failure α}
    (hContext :
      ∀ {e cause : Error},
        Own cause → e.SameKind cause → Own e)
    (kind : RequestKind)
    (id collection : Text)
    (h : Account Own Thrown errors outcome) :
    Account Own Thrown errors
      (outcome.mapError
        (Failure.inContext kind id collection)) := by
  have hSame := Error.withContext_sameKind
  cases h with
  | value value => exact .value value
  | own hOwn => exact .own (hContext hOwn (hSame _ _ _ _))
  | thrown hThrown => exact .thrown hThrown
  | relayed hKind hMessage =>
      exact .relayed ((hSame _ _ _ _).trans hKind) hMessage

/-
  With an error in the end it is one of its own, or says what
  the failing listener said.
-/
theorem cases_error
    {e : Error}
    (h :
      Account Own Thrown errors
        (.error (.error e) : Except Failure α)) :
    (errors = [] ∧ Own e) ∨
      ∃ cause,
        errors = [cause] ∧ e.SameKind cause ∧
          e.message = cause.message := by
  cases h with
  | own hOwn => exact .inl ⟨rfl, hOwn⟩
  | relayed hKind hMessage => exact .inr ⟨_, rfl, hKind, hMessage⟩

/- The error of a listener is what the outcome says. -/
theorem of_mem
    {cause : Error}
    {outcome : Except Failure α}
    (h : Account Own Thrown errors outcome)
    (hMem : cause ∈ errors) :
    ∃ e,
      outcome = .error (.error e) ∧ e.SameKind cause ∧
        e.message = cause.message := by
  cases h with
  | relayed hKind hMessage =>
      rcases List.mem_singleton.mp hMem with rfl
      exact ⟨_, rfl, hKind, hMessage⟩
  | _ => cases hMem

end Account

------------------------------------------------------------
-- Steps
------------------------------------------------------------

/- Whatever it is answered, the outcome is accounted for. -/
def Step.Accounts
    (Own : Error → Prop)
    (x : Step T K α) : Prop :=
  ∀ transcript outcome,
    x.Ends transcript outcome →
      Account Own (fun _ => False) (listenerErrors transcript)
        (Failure.ofResult outcome)

namespace Step

variable {Own : Error → Prop}

theorem Accounts.pure
    (value : α) :
    Accounts Own (Pure.pure value : Step T K α) := by
  intro transcript outcome h
  rcases ends_pure_iff.mp h with ⟨rfl, rfl⟩
  exact .value value

theorem Accounts.throw
    {e : Error}
    (hOwn : Own e) :
    Accounts Own (MonadExcept.throw e : Step T K α) := by
  intro transcript outcome h
  rcases ends_throw_iff.mp h with ⟨rfl, rfl⟩
  exact .own hOwn

theorem Accounts.ofResult
    {r : Result α}
    (hFails : r.FailsOnly Own) :
    Accounts Own (Step.ofResult r : Step T K α) := by
  intro transcript outcome h
  rcases ends_ofResult_iff.mp h with ⟨rfl, rfl⟩
  exact .of_result hFails

theorem Accounts.ask
    {c : Call T K}
    (hCall : ∀ answer, listenerError? ⟨c, answer⟩ = none) :
    Accounts Own (Step.ask c) := by
  intro transcript outcome h
  rcases ends_ask_iff.mp h with ⟨answer, rfl, rfl⟩
  rw [listenerErrors, List.filterMap_cons_none (hCall answer)]
  exact .value answer

theorem Accounts.bind
    {x : Step T K α}
    {f : α → Step T K β}
    (hFirst : Accounts Own x)
    (hSecond : ∀ value, Accounts Own (f value)) :
    Accounts Own (x >>= f) := by
  intro transcript outcome h
  rcases ends_bind_iff.mp h with
    ⟨e, hEnds, rfl⟩ | ⟨first, value, second, rfl, h₁, h₂⟩
  · exact (hFirst _ _ hEnds).of_error
  · rw [listenerErrors_append, (hFirst _ _ h₁).of_ok]
    exact hSecond value _ _ h₂

theorem Accounts.ite
    {p : Prop}
    [Decidable p]
    {x y : Step T K α}
    (hThen : Accounts Own x)
    (hElse : Accounts Own y) :
    Accounts Own (if p then x else y) := by
  split
  · exact hThen
  · exact hElse

/-
  Delivery ends with the error of the listener who failed. A
  listener who threw is reported with an error of the bus.
-/
theorem ends_deliver_account
    {event : Event T}
    {stage : Stage}
    {targets : List K.Listener}
    {transcript : Transcript T K}
    {outcome : Result (Result Unit)}
    (hThrew : ∀ what, Own (listenerThrew stage what))
    (h :
      (deliver
          (fun listener =>
            (Step.ask (.notify listener event) :
              Step T K (Reply Unit)))
          stage targets).Ends transcript outcome) :
    ∃ r,
      outcome = .ok r ∧
        Account Own (fun _ => False)
          (listenerErrors transcript)
          (Failure.ofResult r) := by
  induction targets generalizing transcript with
  | nil =>
      rcases ends_pure_iff.mp h with ⟨rfl, rfl⟩
      exact ⟨_, rfl, .value ()⟩
  | cons listener rest ih =>
      rcases ends_bind_iff.mp h with
        ⟨e, hAsk, -⟩ | ⟨first, reply, second, rfl, hAsk, hRest⟩
      · rcases ends_ask_iff.mp hAsk with ⟨answer, -, hOk⟩
        cases hOk
      rcases ends_ask_iff.mp hAsk with ⟨answer, rfl, hOk⟩
      cases hOk
      rcases reply with ⟨⟨⟩⟩ | cause | what
      · have hAccount := ih hRest
        exact hAccount
      · by_cases hPasses : Status.isOk ⟨cause⟩ = true
        · have hNone :
              listenerErrors
                  (⟨.notify listener event, .failed cause⟩ ::
                    second) =
                listenerErrors second :=
            List.filterMap_cons_none (if_pos hPasses)
          simp only [Reply.ofListener, Status.toResult, hPasses,
            if_true] at hRest
          rw [List.singleton_append, hNone]
          exact ih hRest
        · have hSome :
              listenerErrors
                  (⟨.notify listener event, .failed cause⟩ ::
                    second) =
                cause :: listenerErrors second :=
            List.filterMap_cons_some (if_neg hPasses)
          simp only [Reply.ofListener, Status.toResult, hPasses,
            if_false, Bool.false_eq_true] at hRest
          rcases ends_pure_iff.mp hRest with ⟨rfl, rfl⟩
          rw [List.singleton_append, hSome]
          exact ⟨_, rfl, .relayed (.refl cause) rfl⟩
      · rcases ends_pure_iff.mp hRest with ⟨rfl, rfl⟩
        exact ⟨_, rfl, .own (hThrew what)⟩

/- Publishing ends with the error of the listener who failed. -/
theorem Accounts.publishIf
    {event : Event T}
    (hThrew : ∀ what, Own (listenerThrew event.stage what))
    (hasBus : Bool) :
    Accounts Own
      (DocumentMapper.publishIf hasBus event :
        Step T K Unit) := by
  unfold DocumentMapper.publishIf
  refine .ite (.bind (.ask fun _ => rfl) fun targets => ?_) (.pure ())
  intro transcript outcome h
  rcases ends_bind_iff.mp h with
    ⟨e, hDeliver, -⟩ | ⟨first, r, second, rfl, hDeliver, hResult⟩
  · rcases ends_deliver_account hThrew hDeliver with ⟨r, hOk, -⟩
    cases hOk
  · rcases ends_deliver_account hThrew hDeliver with
      ⟨_, hOk, hAccount⟩
    cases hOk
    rcases ends_ofResult_iff.mp hResult with ⟨rfl, rfl⟩
    rw [List.append_nil]
    exact hAccount

/- Callbacks that substitute an entity fail in one way. -/
theorem Accounts.substitute
    {t : T}
    (hFailed :
      ∀ message, Own (callbackFailed "before-convert" message))
    (e : EntityOf t)
    (collection : Text) :
    Accounts Own
      (DocumentMapper.substitute e collection :
        Step T K (EntityOf t)) := by
  refine .bind (.ask fun _ => rfl) fun hooks => ?_
  induction hooks generalizing e with
  | nil => exact .pure e
  | cons hook rest ih =>
      refine .bind (.ask fun _ => rfl) fun reply => ?_
      cases reply with
      | ok e => exact ih e
      | failed cause => exact .throw (hFailed _)
      | threw what => exact .throw (hFailed _)

/- Callbacks that see a document fail in one way. -/
theorem Accounts.inspect
    {t : T}
    (hFailed :
      ∀ message, Own (callbackFailed "after-convert" message))
    (e : EntityOf t)
    (document : Document)
    (collection : Text) :
    Accounts Own
      (DocumentMapper.inspect e document collection :
        Step T K Unit) := by
  refine .bind (.ask fun _ => rfl) fun hooks => ?_
  induction hooks with
  | nil => exact .pure ()
  | cons hook rest ih =>
      refine .bind (.ask fun _ => rfl) fun reply => ?_
      rcases reply with ⟨⟨⟩⟩ | cause | what
      · exact ih
      · exact .ite ih (.throw (hFailed _))
      · exact .throw (hFailed _)

end Step

------------------------------------------------------------
-- Tasks
------------------------------------------------------------

/- Whatever it is answered, the outcome is accounted for. -/
def Task.Accounts
    (Own : Error → Prop)
    (Thrown : Text → Prop)
    (x : Task T K α) : Prop :=
  ∀ before transcript outcome after,
    x.Ends before transcript outcome after →
      Account Own Thrown (listenerErrors transcript) outcome

namespace Task

variable {Own : Error → Prop}
variable {Thrown : Text → Prop}

theorem Accounts.pure
    (value : α) :
    Accounts Own Thrown (Pure.pure value : Task T K α) := by
  intro before transcript outcome after h
  rcases ends_pure_iff.mp h with ⟨rfl, rfl, -⟩
  exact .value value

theorem Accounts.fail
    {e : Error}
    (hOwn : Own e) :
    Accounts Own Thrown (Task.fail e : Task T K α) := by
  intro before transcript outcome after h
  rcases ends_fail_iff.mp h with ⟨rfl, rfl, -⟩
  exact .own hOwn

theorem Accounts.ask
    {c : Call T K}
    (hCall : ∀ answer, listenerError? ⟨c, answer⟩ = none) :
    Accounts Own Thrown (Task.ask c) := by
  intro before transcript outcome after h
  rcases ends_ask_iff.mp h with ⟨answer, rfl, rfl, -⟩
  rw [listenerErrors, List.filterMap_cons_none (hCall answer)]
  exact .value answer

theorem Accounts.registry :
    Accounts Own Thrown
      (Task.registry : Task T K ResultRegistry) := by
  intro before transcript outcome after h
  rcases ends_registry_iff.mp h with ⟨rfl, rfl, -⟩
  exact .value before

theorem Accounts.saveResult
    (result : GetResult) :
    Accounts Own Thrown
      (Task.saveResult result : Task T K Int64) := by
  intro before transcript outcome after h
  rcases ends_saveResult_iff.mp h with ⟨rfl, rfl, -⟩
  exact .value _

theorem Accounts.ofResult
    {r : Result α}
    (hFails : r.FailsOnly Own) :
    Accounts Own Thrown (Task.ofResult r : Task T K α) := by
  intro before transcript outcome after h
  rcases ends_ofResult_iff.mp h with ⟨rfl, rfl, -⟩
  exact .of_result hFails

theorem Accounts.ofAccessor
    {r : Except Text α}
    (hThrows : ∀ what, r = .error what → Thrown what) :
    Accounts Own Thrown (Task.ofAccessor r : Task T K α) := by
  intro before transcript outcome after h
  rcases ends_ofAccessor_iff.mp h with ⟨rfl, rfl, -⟩
  cases r with
  | ok value => exact .value value
  | error what => exact .thrown (hThrows what rfl)

theorem Accounts.ofStep
    {x : Step T K α}
    (hAccounts : x.Accounts Own) :
    Accounts Own Thrown (Task.ofStep x) := by
  intro before transcript outcome after h
  rcases ends_ofStep_iff.mp h with ⟨r, hStep, rfl, -⟩
  exact (hAccounts _ _ hStep).weaken

theorem Accounts.inContext
    {x : Task T K α}
    (hContext :
      ∀ {e cause : Error},
        Own cause → e.SameKind cause → Own e)
    (hAccounts : Accounts Own Thrown x)
    (kind : RequestKind)
    (id collection : Text) :
    Accounts Own Thrown
      (Task.inContext kind id collection x) := by
  intro before transcript outcome after h
  rcases ends_inContext_iff.mp h with ⟨inner, hInner, rfl⟩
  exact (hAccounts _ _ _ _ hInner).inContext hContext _ _ _

theorem Accounts.bind
    {x : Task T K α}
    {f : α → Task T K β}
    (hFirst : Accounts Own Thrown x)
    (hSecond : ∀ value, Accounts Own Thrown (f value)) :
    Accounts Own Thrown (x >>= f) := by
  intro before transcript outcome after h
  rcases ends_bind_iff.mp h with
    ⟨failure, hEnds, rfl⟩ |
      ⟨first, value, between, second, rfl, h₁, h₂⟩
  · exact (hFirst _ _ _ _ hEnds).of_error
  · rw [listenerErrors_append, (hFirst _ _ _ _ h₁).of_ok]
    exact hSecond value _ _ _ _ h₂

theorem Accounts.ite
    {p : Prop}
    [Decidable p]
    {x y : Task T K α}
    (hThen : Accounts Own Thrown x)
    (hElse : Accounts Own Thrown y) :
    Accounts Own Thrown (if p then x else y) := by
  split
  · exact hThen
  · exact hElse

end Task

end DocumentMapper
