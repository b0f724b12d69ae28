import DocumentMapper.Event.Hooks
import DocumentMapper.Proofs.Dialogue.Outcome
import DocumentMapper.Proofs.Error.Relaying
import DocumentMapper.Proofs.Result

/-
  Errors without a context, and errors that are given one.

  An error may name an operation, a document and a collection.
  Where collaborators name none of these, neither do the
  errors of steps; and a task in a context fails with errors
  that name exactly this context.

  Key definitions include:
    * `Error.IsBare`, `Error.Names`
    * `AnsweredBare`, `OnlyBare`
    * `Step.FailsBare`, `Task.FailsOnly`

  Main statements include:
    * `Error.IsBare.names`
    * `Step.FailsBare.bind`, `Task.FailsOnly.bind`
    * `Step.FailsBare.publishIf`
    * `Task.FailsOnly.inContext`
-/

namespace DocumentMapper

variable {T : Type}
variable [EntityTypes T]
variable {K : Hooks T}
variable {α β : Type}

------------------------------------------------------------
-- Errors
------------------------------------------------------------

namespace Error

variable {e : Error}

/- The error names no operation, no document, no collection. -/
structure IsBare (e : Error) : Prop where
  operation : e.operation = []
  documentId : e.documentId = []
  collection : e.collection = []

instance
    (e : Error) :
    Decidable e.IsBare :=
  decidable_of_iff
    (e.operation = [] ∧ e.documentId = [] ∧ e.collection = [])
    ⟨fun ⟨hOperation, hId, hCollection⟩ =>
        ⟨hOperation, hId, hCollection⟩,
      fun h => ⟨h.operation, h.documentId, h.collection⟩⟩

/- The error names an operation, its document and a collection. -/
structure Names
    (e : Error)
    (kind : RequestKind)
    (id : Text)
    (collection : CollectionName) : Prop where
  operation : e.operation = kind.name
  documentId : e.documentId = id
  collection : e.collection = collection.qualified

/- A bare error names the context that it is given. -/
theorem IsBare.names
    (hBare : e.IsBare)
    (kind : RequestKind)
    (id : Text)
    (collection : CollectionName) :
    (e.withContext kind.name id collection.qualified).Names
      kind id collection where
  operation := if_pos hBare.operation
  documentId := if_pos hBare.documentId
  collection := if_pos hBare.collection

/- Reclassifying an error adds no context. -/
theorem IsBare.ofExecution
    (hBare : e.IsBare) :
    e.ofExecution.IsBare := by
  rw [ofExecution_eq]
  exact ⟨hBare.operation, hBare.documentId, hBare.collection⟩

theorem IsBare.ofResolution
    (hBare : e.IsBare) :
    e.ofResolution.IsBare := by
  rw [ofResolution_eq]
  exact ⟨hBare.operation, hBare.documentId, hBare.collection⟩

/- What stands for an exception is bare. -/
theorem isBare_ofException
    (what : Text) :
    (ofException what).IsBare :=
  ⟨rfl, rfl, rfl⟩

end Error

------------------------------------------------------------
-- Answers
------------------------------------------------------------

/- A collaborator who fails does so with a bare error. -/
def AnsweredBare :
    Exchange (Call.Answer (T := T) (K := K)) → Prop
  | ⟨.resolve _, .failed e⟩ => e.IsBare
  | ⟨.submit _ _, .failed e⟩ => e.IsBare
  | ⟨.notify _ _, .failed e⟩ => e.IsBare
  | _ => True

instance :
    DecidablePred (AnsweredBare (T := T) (K := K)) := by
  intro x
  unfold AnsweredBare
  split <;> infer_instance

/- All collaborators who fail do so with bare errors. -/
def OnlyBare
    (transcript : Transcript T K) : Prop :=
  ∀ x ∈ transcript, AnsweredBare x

instance
    (transcript : Transcript T K) :
    Decidable (OnlyBare transcript) :=
  inferInstanceAs (Decidable (∀ x ∈ transcript, AnsweredBare x))

/- Both parts of such a conversation are such. -/
theorem onlyBare_append_iff
    {first second : Transcript T K} :
    OnlyBare (first ++ second) ↔
      OnlyBare first ∧ OnlyBare second :=
  List.forall_mem_append

theorem onlyBare_cons_iff
    {x : Exchange (Call.Answer (T := T) (K := K))}
    {rest : Transcript T K} :
    OnlyBare (x :: rest) ↔ AnsweredBare x ∧ OnlyBare rest :=
  List.forall_mem_cons

------------------------------------------------------------
-- Steps
------------------------------------------------------------

/- Where collaborators fail barely, so does the step. -/
def Step.FailsBare
    (x : Step T K α) : Prop :=
  ∀ transcript outcome,
    x.Ends transcript outcome →
      OnlyBare transcript →
        Result.FailsOnly Error.IsBare outcome

namespace Step

theorem FailsBare.pure
    (value : α) :
    FailsBare (Pure.pure value : Step T K α) := by
  intro transcript outcome h _
  rw [(ends_pure_iff.mp h).2]
  exact .ok value

theorem FailsBare.throw
    {e : Error}
    (hBare : e.IsBare) :
    FailsBare (MonadExcept.throw e : Step T K α) := by
  intro transcript outcome h _
  rw [(ends_throw_iff.mp h).2]
  exact .error hBare

theorem FailsBare.ofResult
    {r : Result α}
    (hFails : r.FailsOnly Error.IsBare) :
    FailsBare (Step.ofResult r : Step T K α) := by
  intro transcript outcome h _
  rw [(ends_ofResult_iff.mp h).2]
  exact hFails

theorem FailsBare.bind
    {x : Step T K α}
    {f : α → Step T K β}
    (hFirst : FailsBare x)
    (hSecond : ∀ value, FailsBare (f value)) :
    FailsBare (x >>= f) := by
  intro transcript outcome h hBare
  rcases ends_bind_iff.mp h with
    ⟨e, hEnds, hOutcome⟩ |
      ⟨first, value, second, hSplit, -, hRest⟩
  · rw [hOutcome]
    exact .error (hFirst _ _ hEnds hBare e rfl)
  · rw [hSplit, onlyBare_append_iff] at hBare
    exact hSecond value _ _ hRest hBare.2

/- What follows a question may rely on its answer. -/
theorem FailsBare.ask_bind
    {c : Call T K}
    {f : c.Answer → Step T K α}
    (hNext :
      ∀ reply, AnsweredBare ⟨c, reply⟩ → FailsBare (f reply)) :
    FailsBare (Step.ask c >>= f) := by
  intro transcript outcome h hBare
  rcases ends_bind_iff.mp h with
    ⟨e, hAsk, -⟩ | ⟨first, reply, second, hSplit, hAsk, hRest⟩
  · rcases ends_ask_iff.mp hAsk with ⟨reply, -, hOk⟩
    cases hOk
  · rcases ends_ask_iff.mp hAsk with ⟨given, hFirst, hOk⟩
    cases hOk
    rw [hSplit, hFirst, List.singleton_append,
      onlyBare_cons_iff] at hBare
    exact hNext reply hBare.1 _ _ hRest hBare.2

theorem FailsBare.ite
    {p : Prop}
    [Decidable p]
    {x y : Step T K α}
    (hThen : FailsBare x)
    (hElse : FailsBare y) :
    FailsBare (if p then x else y) := by
  split
  · exact hThen
  · exact hElse

/- The error of a listener is kept; one that threw has a bare one. -/
theorem ofListener_failsBare
    {listener : K.Listener}
    {event : Event T}
    {reply : Reply Unit}
    (hReply : AnsweredBare ⟨.notify listener event, reply⟩)
    (stage : Stage) :
    (reply.ofListener stage).FailsOnly Error.IsBare := by
  cases reply with
  | ok done => exact .ok ()
  | failed cause =>
      have hCause : cause.IsBare := hReply
      unfold Reply.ofListener Status.toResult
      dsimp only
      split
      · exact .ok ()
      · exact .error hCause
  | threw what => exact .error ⟨rfl, rfl, rfl⟩

/- Delivery ends with the bare error of a listener, if any. -/
theorem FailsBare.deliver
    (event : Event T)
    (stage : Stage)
    (targets : List K.Listener) :
    FailsBare (do
      let outcome ←
        DocumentMapper.deliver
          (fun listener =>
            (Step.ask (.notify listener event) :
              Step T K (Reply Unit)))
          stage targets
      Step.ofResult outcome) := by
  induction targets with
  | nil => exact .ofResult (.ok ())
  | cons listener rest ih =>
      unfold DocumentMapper.deliver
      rw [bind_assoc]
      apply FailsBare.ask_bind
      intro reply hReply
      have hFails := ofListener_failsBare hReply stage
      cases hOutcome : reply.ofListener stage with
      | ok done => exact ih
      | error cause =>
          rw [pure_bind]
          exact .ofResult (.error (hFails cause hOutcome))

theorem FailsBare.publishIf
    (hasBus : Bool)
    (event : Event T) :
    FailsBare
      (DocumentMapper.publishIf hasBus event :
        Step T K Unit) := by
  apply FailsBare.ite
  · apply FailsBare.ask_bind
    intro targets _
    exact .deliver event event.stage targets
  · exact .pure ()

/- Callbacks that substitute an entity fail barely. -/
theorem FailsBare.substitute
    {t : T}
    (e : EntityOf t)
    (collection : Text) :
    FailsBare
      (DocumentMapper.substitute e collection :
        Step T K (EntityOf t)) := by
  apply FailsBare.ask_bind
  intro hooks _
  induction hooks generalizing e with
  | nil => exact .pure e
  | cons hook rest ih =>
      apply FailsBare.ask_bind
      intro reply _
      cases reply with
      | ok converted => exact ih converted trivial
      | failed cause => exact .throw ⟨rfl, rfl, rfl⟩
      | threw what => exact .throw ⟨rfl, rfl, rfl⟩

/- So do callbacks that see a document. -/
theorem FailsBare.inspect
    {t : T}
    (e : EntityOf t)
    (document : Document)
    (collection : Text) :
    FailsBare
      (DocumentMapper.inspect e document collection :
        Step T K Unit) := by
  apply FailsBare.ask_bind
  intro hooks _
  induction hooks with
  | nil => exact .pure ()
  | cons hook rest ih =>
      apply FailsBare.ask_bind
      intro reply _
      cases reply with
      | ok done => exact ih trivial
      | failed cause =>
          exact .ite (ih trivial) (.throw ⟨rfl, rfl, rfl⟩)
      | threw what => exact .throw ⟨rfl, rfl, rfl⟩

end Step

------------------------------------------------------------
-- Tasks
------------------------------------------------------------

/- Where collaborators fail barely, the task has such errors only. -/
def Task.FailsOnly
    (P : Error → Prop)
    (x : Task T K α) : Prop :=
  ∀ before transcript outcome after,
    x.Ends before transcript outcome after →
      OnlyBare transcript →
        ∀ e, outcome = .error (.error e) → P e

namespace Task

variable {P : Error → Prop}

theorem FailsOnly.pure
    (value : α) :
    FailsOnly P (Pure.pure value : Task T K α) := by
  intro before transcript outcome after h _ e hError
  rw [(ends_pure_iff.mp h).2.1] at hError
  cases hError

theorem FailsOnly.fail
    {e : Error}
    (hError : P e) :
    FailsOnly P (Task.fail e : Task T K α) := by
  intro before transcript outcome after h _ error hFailed
  rw [(ends_fail_iff.mp h).2.1] at hFailed
  cases hFailed
  exact hError

theorem FailsOnly.ofResult
    {r : Result α}
    (hFails : r.FailsOnly P) :
    FailsOnly P (Task.ofResult r : Task T K α) := by
  cases r with
  | ok value => exact .pure value
  | error e => exact .fail (hFails e rfl)

theorem FailsOnly.registry :
    FailsOnly P (Task.registry : Task T K ResultRegistry) := by
  intro before transcript outcome after h _ e hError
  rw [(ends_registry_iff.mp h).2.1] at hError
  cases hError

theorem FailsOnly.saveResult
    (result : GetResult) :
    FailsOnly P (Task.saveResult result : Task T K Int64) := by
  intro before transcript outcome after h _ e hError
  rw [(ends_saveResult_iff.mp h).2.1] at hError
  cases hError

theorem FailsOnly.ofStep
    {x : Step T K α}
    (hFails : x.FailsBare) :
    FailsOnly Error.IsBare (Task.ofStep x) := by
  intro before transcript outcome after h hBare e hError
  rcases ends_ofStep_iff.mp h with ⟨r, hStep, hOutcome, -⟩
  apply hFails _ _ hStep hBare
  rw [hOutcome] at hError
  cases r with
  | ok value => cases hError
  | error cause =>
      cases hError
      rfl

theorem FailsOnly.bind
    {x : Task T K α}
    {f : α → Task T K β}
    (hFirst : FailsOnly P x)
    (hSecond : ∀ value, FailsOnly P (f value)) :
    FailsOnly P (x >>= f) := by
  intro before transcript outcome after h hBare e hError
  rcases ends_bind_iff.mp h with
    ⟨failure, hEnds, hOutcome⟩ |
      ⟨first, value, between, second, hSplit, -, hRest⟩
  · apply hFirst _ _ _ _ hEnds hBare
    rw [hOutcome] at hError
    cases hError
    rfl
  · rw [hSplit, onlyBare_append_iff] at hBare
    exact hSecond value _ _ _ _ hRest hBare.2 e hError

/- What follows a question may rely on its answer. -/
theorem FailsOnly.ask_bind
    {c : Call T K}
    {f : c.Answer → Task T K α}
    (hNext :
      ∀ reply, AnsweredBare ⟨c, reply⟩ → FailsOnly P (f reply)) :
    FailsOnly P (Task.ask c >>= f) := by
  intro before transcript outcome after h hBare e hError
  rcases ends_ask_bind_iff.mp h with ⟨reply, rest, hSplit, hRest⟩
  rw [hSplit, onlyBare_cons_iff] at hBare
  exact hNext reply hBare.1 _ _ _ _ hRest hBare.2 e hError

theorem FailsOnly.ite
    {p : Prop}
    [Decidable p]
    {x y : Task T K α}
    (hThen : FailsOnly P x)
    (hElse : FailsOnly P y) :
    FailsOnly P (if p then x else y) := by
  split
  · exact hThen
  · exact hElse

/- In a context, a bare error names that context. -/
theorem FailsOnly.inContext
    {x : Task T K α}
    (hBare : FailsOnly Error.IsBare x)
    (kind : RequestKind)
    (id : Text)
    (collection : CollectionName) :
    FailsOnly (Error.Names · kind id collection)
      (Task.inContext kind id collection.qualified x) := by
  intro before transcript outcome after h hOnly e hError
  rcases ends_inContext_iff.mp h with ⟨inner, hInner, hOutcome⟩
  rw [hOutcome] at hError
  cases inner with
  | ok value => cases hError
  | error failure =>
      cases failure with
      | thrown what => cases hError
      | error cause =>
          cases hError
          have hCause :=
            hBare _ _ _ _ hInner hOnly cause rfl
          exact hCause.names kind id collection

end Task

end DocumentMapper
