import DocumentMapper.Proofs.Dialogue.Transcript
import DocumentMapper.Repository.Task

/-
  Outcomes of steps and tasks.

  A step ends with a value or an error. A task moreover ends
  with an exception, and leaves a registry behind. For every
  way of building steps and tasks, a law says how the
  transcript and the outcome of the whole come from those of
  the parts.

  Key definitions include:
    * `Transcript`
    * `Step.Ends`
    * `Task.Ends`

  Main statements include:
    * `Step.ends_bind_iff`
    * `Task.ends_bind_iff`
    * `Task.ends_ofStep_iff`
    * `Task.ends_inContext_iff`
-/

namespace DocumentMapper

variable {T : Type}
variable [EntityTypes T]
variable {K : Hooks T}
variable {α β : Type}

/- What the world was asked and how it answered. -/
abbrev Transcript
    (T : Type)
    [EntityTypes T]
    (K : Hooks T) : Type :=
  List (Exchange (Call.Answer (T := T) (K := K)))

------------------------------------------------------------
-- Steps
------------------------------------------------------------

namespace Step

/- The step can have this transcript and this outcome. -/
def Ends
    (x : Step T K α)
    (transcript : Transcript T K)
    (outcome : Result α) : Prop :=
  Dialogue.Ends x.run transcript outcome

variable {x : Step T K α}
variable {f : α → Step T K β}
variable {transcript : Transcript T K}

/- A value needs no questions. -/
@[simp]
theorem ends_pure_iff
    {value : α}
    {outcome : Result α} :
    Ends (pure value : Step T K α) transcript outcome ↔
      transcript = [] ∧ outcome = .ok value :=
  Dialogue.ends_done_iff

/- A result needs no questions. -/
@[simp]
theorem ends_ofResult_iff
    {r outcome : Result α} :
    Ends (ofResult r : Step T K α) transcript outcome ↔
      transcript = [] ∧ outcome = r :=
  Dialogue.ends_done_iff

/- Throwing needs no questions. -/
@[simp]
theorem ends_throw_iff
    {e : Error}
    {outcome : Result α} :
    Ends (throw e : Step T K α) transcript outcome ↔
      transcript = [] ∧ outcome = .error e :=
  Dialogue.ends_done_iff

/- A question ends with its answer. -/
theorem ends_ask_iff
    {c : Call T K}
    {outcome : Result c.Answer} :
    Ends (ask c) transcript outcome ↔
      ∃ answer,
        transcript = [⟨c, answer⟩] ∧
          outcome = .ok answer := by
  change
    Dialogue.Ends
        (Dialogue.question c >>= fun answer =>
          .done (.ok answer)) transcript outcome ↔ _
  rw [Dialogue.ends_bind_iff]
  constructor
  · rintro ⟨first, answer, second, rfl, hFirst, hSecond⟩
    rcases Dialogue.ends_question_iff.mp hFirst with rfl
    rcases Dialogue.ends_done_iff.mp hSecond with ⟨rfl, rfl⟩
    exact ⟨answer, rfl, rfl⟩
  · rintro ⟨answer, rfl, rfl⟩
    exact
      ⟨[⟨c, answer⟩], answer, [], rfl,
        Dialogue.ends_question_iff.mpr rfl, .done _⟩

/- The second part of a sequence is reached with a value only. -/
theorem ends_bind_iff
    {outcome : Result β} :
    Ends (x >>= f) transcript outcome ↔
      (∃ e,
        Ends x transcript (.error e) ∧
          outcome = .error e) ∨
      ∃ first value second,
        transcript = first ++ second ∧
          Ends x first (.ok value) ∧
          Ends (f value) second outcome := by
  change
    Dialogue.Ends (x.run >>= ExceptT.bindCont f)
      transcript outcome ↔ _
  rw [Dialogue.ends_bind_iff]
  constructor
  · rintro ⟨first, r, second, rfl, hFirst, hSecond⟩
    cases r with
    | error e =>
        rcases Dialogue.ends_done_iff.mp hSecond with ⟨rfl, rfl⟩
        rw [List.append_nil]
        exact .inl ⟨e, hFirst, rfl⟩
    | ok value =>
        exact .inr ⟨first, value, second, rfl, hFirst, hSecond⟩
  · rintro (⟨e, hFirst, rfl⟩ |
      ⟨first, value, second, rfl, hFirst, hSecond⟩)
    · exact
        ⟨transcript, .error e, [], by simp, hFirst, .done _⟩
    · exact ⟨first, .ok value, second, rfl, hFirst, hSecond⟩

/- With a value in the end, no part has failed. -/
theorem ends_bind_ok_iff
    {value : β} :
    Ends (x >>= f) transcript (.ok value) ↔
      ∃ first middle second,
        transcript = first ++ second ∧
          Ends x first (.ok middle) ∧
          Ends (f middle) second (.ok value) := by
  rw [ends_bind_iff]
  constructor
  · rintro (⟨e, -, hError⟩ | hParts)
    · cases hError
    · exact hParts
  · exact .inr

/- The value of a result is that of the step. -/
theorem ends_ofResult_ok_iff
    {r : Result α}
    {value : α} :
    Ends (ofResult r : Step T K α) transcript (.ok value) ↔
      transcript = [] ∧ r = .ok value := by
  rw [ends_ofResult_iff, eq_comm (a := r)]

end Step

------------------------------------------------------------
-- Tasks
------------------------------------------------------------

/- A result as the outcome of a task. -/
def Failure.ofResult
    (r : Result α) : Except Failure α :=
  match r with
  | .ok value => .ok value
  | .error e => .error (.error e)

/- The outcome of a task whose error becomes part of its value. -/
def Failure.caught
    (outcome : Except Failure α) :
    Except Failure (Result α) :=
  match outcome with
  | .ok value => .ok (.ok value)
  | .error (.error e) => .ok (.error e)
  | .error (.thrown what) => .error (.thrown what)

/- The error with which a task failed, if it failed with one. -/
def Failure.told?
    (outcome : Except Failure α) : Option Error :=
  match outcome with
  | .error (.error e) => some e
  | _ => none

theorem Failure.told?_eq_some_iff
    {outcome : Except Failure α}
    {e : Error} :
    Failure.told? outcome = some e ↔
      outcome = .error (.error e) := by
  unfold Failure.told?
  split
  · simp
  · rename_i hOther
    refine ⟨nofun, fun hError => ?_⟩
    exact absurd hError (hOther e)

/- Fill in context where a task failed with an error. -/
def Failure.inContext
    (kind : RequestKind)
    (id collection : Text) : Failure → Failure
  | .error e => .error (e.withContext kind.name id collection)
  | .thrown what => .thrown what

namespace Task

/-
  The task can have this transcript and this outcome, and
  turn the registry before into the one after.
-/
def Ends
    (x : Task T K α)
    (before : ResultRegistry)
    (transcript : Transcript T K)
    (outcome : Except Failure α)
    (after : ResultRegistry) : Prop :=
  Dialogue.Ends (x.run.run before) transcript
    (outcome, after)

variable {x : Task T K α}
variable {f : α → Task T K β}
variable {before after : ResultRegistry}
variable {transcript : Transcript T K}

/- A value needs no questions. -/
@[simp]
theorem ends_pure_iff
    {value : α}
    {outcome : Except Failure α} :
    Ends (pure value : Task T K α)
        before transcript outcome after ↔
      transcript = [] ∧ outcome = .ok value ∧
        after = before := by
  rw [← Prod.mk.injEq]
  exact Dialogue.ends_done_iff

/- An error needs no questions. -/
@[simp]
theorem ends_fail_iff
    {e : Error}
    {outcome : Except Failure α} :
    Ends (fail e : Task T K α)
        before transcript outcome after ↔
      transcript = [] ∧ outcome = .error (.error e) ∧
        after = before := by
  rw [← Prod.mk.injEq]
  exact Dialogue.ends_done_iff

/- A result needs no questions. -/
@[simp]
theorem ends_ofResult_iff
    {r : Result α}
    {outcome : Except Failure α} :
    Ends (ofResult r : Task T K α)
        before transcript outcome after ↔
      transcript = [] ∧ outcome = Failure.ofResult r ∧
        after = before := by
  cases r with
  | ok value => exact ends_pure_iff
  | error e => exact ends_fail_iff

/- An accessor asks nothing. -/
@[simp]
theorem ends_ofAccessor_iff
    {r : Except Text α}
    {outcome : Except Failure α} :
    Ends (ofAccessor r : Task T K α)
        before transcript outcome after ↔
      transcript = [] ∧
        outcome = Except.mapError Failure.thrown r ∧
        after = before := by
  cases r with
  | ok value => exact ends_pure_iff
  | error what =>
      rw [← Prod.mk.injEq]
      exact Dialogue.ends_done_iff

/- Looking at the registry asks nothing. -/
@[simp]
theorem ends_registry_iff
    {outcome : Except Failure ResultRegistry} :
    Ends (registry : Task T K ResultRegistry)
        before transcript outcome after ↔
      transcript = [] ∧ outcome = .ok before ∧
        after = before := by
  rw [← Prod.mk.injEq]
  exact Dialogue.ends_done_iff

/- Keeping a result asks nothing. -/
@[simp]
theorem ends_saveResult_iff
    {result : GetResult}
    {outcome : Except Failure Int64} :
    Ends (saveResult result : Task T K Int64)
        before transcript outcome after ↔
      transcript = [] ∧
        outcome = .ok (before.save (some result)).1 ∧
        after = (before.save (some result)).2 := by
  rw [← Prod.mk.injEq]
  exact Dialogue.ends_done_iff

/- A question ends with its answer. -/
theorem ends_ask_iff
    {c : Call T K}
    {outcome : Except Failure c.Answer} :
    Ends (ask c) before transcript outcome after ↔
      ∃ answer,
        transcript = [⟨c, answer⟩] ∧
          outcome = .ok answer ∧ after = before := by
  change
    Dialogue.Ends
        ((Dialogue.question c >>= fun answer =>
            .done (answer, before)) >>= fun r =>
          .done (.ok r.1, r.2)) transcript (outcome, after) ↔ _
  simp only [Dialogue.ends_bind_iff,
    Dialogue.ends_question_iff, Dialogue.ends_done_iff]
  constructor
  · rintro ⟨first, r, second, rfl,
      ⟨_, answer, _, rfl, rfl, rfl, rfl⟩, rfl, hPair⟩
    rcases Prod.mk.inj hPair with ⟨rfl, rfl⟩
    exact ⟨answer, rfl, rfl, rfl⟩
  · rintro ⟨answer, rfl, rfl, rfl⟩
    exact
      ⟨[⟨c, answer⟩], (answer, after), [], rfl,
        ⟨[⟨c, answer⟩], answer, [], rfl, rfl, rfl, rfl⟩,
        rfl, rfl⟩

/- The second part of a sequence is reached with a value only. -/
theorem ends_bind_iff
    {outcome : Except Failure β} :
    Ends (x >>= f) before transcript outcome after ↔
      (∃ failure,
        Ends x before transcript (.error failure) after ∧
          outcome = .error failure) ∨
      ∃ first value between second,
        transcript = first ++ second ∧
          Ends x before first (.ok value) between ∧
          Ends (f value) between second outcome after := by
  change
    Dialogue.Ends (x.run.run before >>= fun r =>
        (ExceptT.bindCont f r.1).run r.2)
      transcript (outcome, after) ↔ _
  rw [Dialogue.ends_bind_iff]
  constructor
  · rintro ⟨first, ⟨r, between⟩, second, rfl, hFirst, hSecond⟩
    cases r with
    | error failure =>
        rcases Dialogue.ends_done_iff.mp hSecond with ⟨rfl, hPair⟩
        rcases Prod.mk.inj hPair with ⟨rfl, rfl⟩
        rw [List.append_nil]
        exact .inl ⟨failure, hFirst, rfl⟩
    | ok value =>
        exact
          .inr ⟨first, value, between, second, rfl, hFirst,
            hSecond⟩
  · rintro (⟨failure, hFirst, rfl⟩ |
      ⟨first, value, between, second, rfl, hFirst, hSecond⟩)
    · exact
        ⟨transcript, (.error failure, after), [], by simp,
          hFirst, .done _⟩
    · exact
        ⟨first, (.ok value, between), second, rfl, hFirst,
          hSecond⟩

/- Nothing follows an error. -/
@[simp]
theorem fail_bind
    (e : Error)
    (f : α → Task T K β) :
    (fail e >>= f) = fail e :=
  rfl

/- After a question comes what its answer leads to. -/
theorem ends_ask_bind_iff
    {c : Call T K}
    {f : c.Answer → Task T K β}
    {outcome : Except Failure β} :
    Ends (ask c >>= f) before transcript outcome after ↔
      ∃ answer rest,
        transcript = ⟨c, answer⟩ :: rest ∧
          Ends (f answer) before rest outcome after := by
  rw [ends_bind_iff]
  constructor
  · rintro (⟨failure, hAsk, -⟩ |
      ⟨first, answer, between, rest, rfl, hAsk, hRest⟩)
    · rcases ends_ask_iff.mp hAsk with ⟨_, -, hOk, -⟩
      cases hOk
    · rcases ends_ask_iff.mp hAsk with ⟨_, rfl, hOk, rfl⟩
      cases hOk
      exact ⟨answer, rest, rfl, hRest⟩
  · rintro ⟨answer, rest, rfl, hRest⟩
    exact
      .inr ⟨[⟨c, answer⟩], answer, before, rest, rfl,
        ends_ask_iff.mpr ⟨answer, rfl, rfl, rfl⟩, hRest⟩

/- After a result comes what its value leads to. -/
theorem ends_ofResult_bind_iff
    {r : Result α}
    {outcome : Except Failure β} :
    Ends (ofResult r >>= f) before transcript outcome after ↔
      (∃ e, r = .error e ∧ transcript = [] ∧
        outcome = .error (.error e) ∧ after = before) ∨
      ∃ value, r = .ok value ∧
        Ends (f value) before transcript outcome after := by
  cases r with
  | error e =>
      rw [ofResult, fail_bind, ends_fail_iff]
      simp
  | ok value =>
      rw [ofResult, pure_bind]
      simp

/- After an accessor comes what its value leads to. -/
theorem ends_ofAccessor_bind_iff
    {r : Except Text α}
    {outcome : Except Failure β} :
    Ends (ofAccessor r >>= f) before transcript outcome after ↔
      (∃ what, r = .error what ∧ transcript = [] ∧
        outcome = .error (.thrown what) ∧ after = before) ∨
      ∃ value, r = .ok value ∧
        Ends (f value) before transcript outcome after := by
  cases r with
  | error what =>
      have hThrown :
          Ends (ofAccessor (.error what) >>= f)
              before transcript outcome after ↔
            transcript = [] ∧
              (outcome, after) =
                (.error (.thrown what), before) :=
        Dialogue.ends_done_iff
      simp [hThrown]
  | ok value =>
      rw [ofAccessor, pure_bind]
      simp

/- A step leaves the registry alone. -/
theorem ends_ofStep_iff
    {y : Step T K α}
    {outcome : Except Failure α} :
    Ends (ofStep y) before transcript outcome after ↔
      ∃ r,
        y.Ends transcript r ∧
          outcome = Failure.ofResult r ∧ after = before := by
  have hLift :
      ∀ {first between}
        {inner : Except Failure (Result α)},
        Ends (ExceptT.lift (StateT.lift y.run) :
            Task T K (Result α)) before first inner between ↔
          ∃ r, y.Ends first r ∧ inner = .ok r ∧
            between = before := by
    intro first between inner
    change
      Dialogue.Ends
          ((y.run >>= fun r => .done (r, before)) >>= fun r =>
            .done (.ok r.1, r.2)) first (inner, between) ↔ _
    simp only [Dialogue.ends_bind_iff, Dialogue.ends_done_iff]
    constructor
    · rintro ⟨_, _, _, rfl, ⟨_, r, _, rfl, hStep, rfl, rfl⟩,
        rfl, hPair⟩
      rcases Prod.mk.inj hPair with ⟨rfl, rfl⟩
      refine ⟨r, ?_, rfl, rfl⟩
      rwa [List.append_nil, List.append_nil]
    · rintro ⟨r, hStep, rfl, rfl⟩
      exact
        ⟨first, (r, between), [], by simp,
          ⟨first, r, [], by simp, hStep, rfl, rfl⟩, rfl, rfl⟩
  unfold ofStep
  rw [ends_bind_iff]
  constructor
  · rintro (⟨failure, hFirst, rfl⟩ |
      ⟨first, r, between, second, rfl, hFirst, hSecond⟩)
    · rcases hLift.mp hFirst with ⟨r, -, hError, -⟩
      cases hError
    · rcases hLift.mp hFirst with ⟨r, hStep, hOk, rfl⟩
      cases hOk
      rcases ends_ofResult_iff.mp hSecond with ⟨rfl, rfl, rfl⟩
      exact ⟨r, by simpa using hStep, rfl, rfl⟩
  · rintro ⟨r, hStep, rfl, rfl⟩
    exact
      .inr ⟨transcript, r, after, [], by simp,
        hLift.mpr ⟨r, hStep, rfl, rfl⟩,
        ends_ofResult_iff.mpr ⟨rfl, rfl, rfl⟩⟩

/- An error becomes part of the value, an exception does not. -/
theorem ends_result_iff
    {outcome : Except Failure (Result α)} :
    Ends (result x) before transcript outcome after ↔
      ∃ inner,
        Ends x before transcript inner after ∧
          outcome = Failure.caught inner := by
  change
    Dialogue.Ends (x.run.run before >>= _)
      transcript (outcome, after) ↔ _
  rw [Dialogue.ends_bind_iff]
  constructor
  · rintro ⟨first, ⟨inner, between⟩, second, rfl, hFirst,
      hSecond⟩
    refine ⟨inner, ?_⟩
    rcases inner with (e | what) | value <;>
    · rcases Dialogue.ends_done_iff.mp hSecond with ⟨rfl, hPair⟩
      rcases Prod.mk.inj hPair with ⟨rfl, rfl⟩
      exact ⟨(List.append_nil first).symm ▸ hFirst, rfl⟩
  · rintro ⟨inner, hFirst, rfl⟩
    refine ⟨transcript, (inner, after), [], by simp, hFirst, ?_⟩
    rcases inner with (e | what) | value <;> exact .done _

/- Context is filled in where there is an error. -/
theorem ends_inContext_iff
    {kind : RequestKind}
    {id collection : Text}
    {outcome : Except Failure α} :
    Ends (inContext kind id collection x)
        before transcript outcome after ↔
      ∃ inner,
        Ends x before transcript inner after ∧
          outcome =
            inner.mapError
              (Failure.inContext kind id collection) := by
  unfold inContext mapError
  simp only [ends_bind_iff, ends_result_iff,
    ends_ofResult_iff]
  constructor
  · rintro (⟨failure, ⟨inner, hInner, hFailure⟩, rfl⟩ |
      ⟨first, value, between, second, rfl,
        ⟨inner, hInner, hValue⟩, rfl, rfl, rfl⟩)
    · refine ⟨inner, hInner, ?_⟩
      rcases inner with (e | what) | value <;> cases hFailure
      rfl
    · rw [List.append_nil]
      refine ⟨inner, hInner, ?_⟩
      rcases inner with (e | what) | value <;> cases hValue
      · rfl
      · rfl
  · rintro ⟨inner, hInner, rfl⟩
    rcases inner with (e | what) | value
    · exact
        .inr ⟨transcript, .error e, after, [], by simp,
          ⟨_, hInner, rfl⟩, rfl, rfl, rfl⟩
    · exact .inl ⟨.thrown what, ⟨_, hInner, rfl⟩, rfl⟩
    · exact
        .inr ⟨transcript, .ok value, after, [], by simp,
          ⟨_, hInner, rfl⟩, rfl, rfl, rfl⟩

------------------------------------------------------------
-- Tasks That End With a Value
------------------------------------------------------------

/- The value of a result is that of the task. -/
theorem ends_ofResult_ok_iff
    {r : Result α}
    {value : α} :
    Ends (ofResult r : Task T K α)
        before transcript (.ok value) after ↔
      transcript = [] ∧ r = .ok value ∧ after = before := by
  rw [ends_ofResult_iff]
  cases r with
  | ok given =>
      simp [Failure.ofResult, eq_comm]
  | error e => simp [Failure.ofResult]

/- A result that has led to a value was one itself. -/
theorem ends_ofResult_bind_ok_iff
    {r : Result α}
    {value : β} :
    Ends (ofResult r >>= f) before transcript (.ok value) after ↔
      ∃ given, r = .ok given ∧
        Ends (f given) before transcript (.ok value) after := by
  rw [ends_ofResult_bind_iff]
  constructor
  · rintro (⟨e, -, -, hError, -⟩ | hGiven)
    · cases hError
    · exact hGiven
  · exact .inr

/- An accessor that has led to a value has given one. -/
theorem ends_ofAccessor_bind_ok_iff
    {r : Except Text α}
    {value : β} :
    Ends (ofAccessor r >>= f)
        before transcript (.ok value) after ↔
      ∃ given, r = .ok given ∧
        Ends (f given) before transcript (.ok value) after := by
  rw [ends_ofAccessor_bind_iff]
  constructor
  · rintro (⟨what, -, -, hError, -⟩ | hGiven)
    · cases hError
    · exact hGiven
  · exact .inr

/- The value of a step is that of the task. -/
theorem ends_ofStep_ok_iff
    {y : Step T K α}
    {value : α} :
    Ends (ofStep y) before transcript (.ok value) after ↔
      y.Ends transcript (.ok value) ∧ after = before := by
  rw [ends_ofStep_iff]
  constructor
  · rintro ⟨r, hStep, hValue, rfl⟩
    cases r with
    | ok given =>
        cases hValue
        exact ⟨hStep, rfl⟩
    | error e => cases hValue
  · rintro ⟨hStep, rfl⟩
    exact ⟨_, hStep, rfl, rfl⟩

/- Context does not matter to a value. -/
theorem ends_inContext_ok_iff
    {kind : RequestKind}
    {id collection : Text}
    {value : α} :
    Ends (inContext kind id collection x)
        before transcript (.ok value) after ↔
      Ends x before transcript (.ok value) after := by
  rw [ends_inContext_iff]
  constructor
  · rintro ⟨inner, hInner, hValue⟩
    cases inner with
    | ok given =>
        cases hValue
        exact hInner
    | error failure => cases hValue
  · intro hInner
    exact ⟨_, hInner, rfl⟩

------------------------------------------------------------
-- Tasks in a Context That Fail
------------------------------------------------------------

/- A step that fails in a context has failed by itself. -/
theorem ends_inContext_ofStep_error
    {y : Step T K α}
    {kind : RequestKind}
    {id collection : Text}
    {failure : Failure}
    (h :
      Ends (inContext kind id collection (ofStep y))
        before transcript (.error failure) after) :
    ∃ cause error,
      y.Ends transcript (.error cause) ∧
        failure = .error error := by
  rcases ends_inContext_iff.mp h with ⟨inner, hInner, hSame⟩
  rcases ends_ofStep_iff.mp hInner with ⟨r, hStep, rfl, -⟩
  cases r with
  | ok value => cases hSame
  | error cause =>
      cases hSame
      exact ⟨cause, _, hStep, rfl⟩

/- A result that fails in a context is an error. -/
theorem ends_inContext_ofResult_error
    {r : Result α}
    {kind : RequestKind}
    {id collection : Text}
    {failure : Failure}
    (h :
      Ends (inContext kind id collection (ofResult r))
        before transcript (.error failure) after) :
    transcript = [] ∧
      ∃ cause error, r = .error cause ∧ failure = .error error := by
  rcases ends_inContext_iff.mp h with ⟨inner, hInner, hSame⟩
  rcases ends_ofResult_iff.mp hInner with ⟨rfl, rfl, -⟩
  cases r with
  | ok value => cases hSame
  | error cause =>
      cases hSame
      exact ⟨rfl, cause, _, rfl, rfl⟩

end Task

end DocumentMapper
