import DocumentMapper.Proofs.Dialogue.Quiet

/-
  Who answers what in a dialogue.

  What becomes of an event depends on what its listeners
  reply, and not on who they are or what they are told. Tasks
  that differ only in what they tell listeners to saved
  entities end alike if those reply alike.

  Key definitions include:
    * `replies`, `savedReplies`
    * `AnsweredAlike`
    * `verdict`
    * `Task.Silent`, `Task.EndAlike`

  Main statements include:
    * `ends_publishIf_verdict`
    * `Task.EndAlike.bind`
-/

namespace DocumentMapper

variable {T : Type}
variable [EntityTypes T]
variable {K : Hooks T}

------------------------------------------------------------
-- Replies
------------------------------------------------------------

deriving instance DecidableEq for Reply

/- The reply of an executor. -/
def reply?
    (x : Exchange (Call.Answer (T := T) (K := K))) :
    Option (Reply StoreRecord) :=
  match x with
  | ⟨.submit _ _, reply⟩ => some reply
  | _ => none

/- All replies of executors. -/
def replies
    (transcript : Transcript T K) : List (Reply StoreRecord) :=
  transcript.filterMap reply?

/- The reply of a listener who is told of a saved entity. -/
def savedReply?
    (x : Exchange (Call.Answer (T := T) (K := K))) :
    Option (Reply Unit) :=
  match x with
  | ⟨.notify _ event, reply⟩ =>
      if event.stage = .afterSave then some reply else none
  | _ => none

/- All replies of listeners who are told of saved entities. -/
def savedReplies
    (transcript : Transcript T K) : List (Reply Unit) :=
  transcript.filterMap savedReply?

@[simp]
theorem replies_append
    (first second : Transcript T K) :
    replies (first ++ second) =
      replies first ++ replies second :=
  List.filterMap_append

@[simp]
theorem savedReplies_append
    (first second : Transcript T K) :
    savedReplies (first ++ second) =
      savedReplies first ++ savedReplies second :=
  List.filterMap_append

/- No executor is asked in preparation. -/
theorem OnlyPreparation.replies_eq_nil
    {transcript : Transcript T K}
    (h : OnlyPreparation transcript) :
    replies transcript = [] := by
  rw [replies, List.filterMap_eq_nil_iff]
  rintro ⟨question, answer⟩ hMem
  cases question <;> first | rfl | exact (h _ hMem).elim

/- Listeners and callbacks are no executors. -/
theorem OnlyHooks.replies_eq_nil
    {transcript : Transcript T K}
    (h : OnlyHooks transcript) :
    replies transcript = [] := by
  apply h.filterMap_eq_nil
  rintro ⟨question, answer⟩ hHook
  cases question <;> first | rfl | exact hHook.elim

/- Nobody is told of a saved entity in preparation. -/
theorem OnlyPreparation.savedReplies_eq_nil
    {transcript : Transcript T K}
    (h : OnlyPreparation transcript) :
    savedReplies transcript = [] := by
  rw [savedReplies, List.filterMap_eq_nil_iff]
  rintro ⟨question, answer⟩ hMem
  cases question with
  | notify listener event => exact if_neg (h _ hMem)
  | _ => rfl

/-
  Two dialogues in which the provider, the resolver, the
  caller who may want to stop, the executors and the listeners
  to saved entities answer alike. Of callbacks and of all
  other listeners nothing is said.
-/
structure AnsweredAlike
    (first second : Transcript T K) : Prop where
  attempts : providedAttempts first = providedAttempts second
  resolutions : resolutions first = resolutions second
  stops : stopAnswers first = stopAnswers second
  replies : replies first = replies second
  savedReplies : savedReplies first = savedReplies second

------------------------------------------------------------
-- Verdicts
------------------------------------------------------------

/- What becomes of an event: the first reply that fails decides. -/
def verdict
    (stage : Stage) : List (Reply Unit) → Result Unit
  | [] => .ok ()
  | reply :: rest =>
      match reply.ofListener stage with
      | .ok () => verdict stage rest
      | .error e => .error e

variable {event : Event T}
variable {transcript : Transcript T K}

/- Delivery ends with the verdict of the listeners. -/
theorem ends_deliver_verdict
    {targets : List K.Listener}
    {outcome : Result (Result Unit)}
    (hStage : event.stage = .afterSave)
    (h :
      (deliver
          (fun listener =>
            (Step.ask (.notify listener event) :
              Step T K (Reply Unit)))
          .afterSave targets).Ends
        transcript outcome) :
    outcome =
      .ok (verdict .afterSave (savedReplies transcript)) := by
  induction targets generalizing transcript with
  | nil =>
      rcases Step.ends_pure_iff.mp h with ⟨rfl, rfl⟩
      rfl
  | cons listener rest ih =>
      rcases Step.ends_bind_iff.mp h with
        ⟨e, hAsk, -⟩ | ⟨_, reply, later, rfl, hAsk, hRest⟩
      · rcases Step.ends_ask_iff.mp hAsk with ⟨_, -, hOk⟩
        cases hOk
      · rcases Step.ends_ask_iff.mp hAsk with ⟨_, rfl, hOk⟩
        cases hOk
        have hReply :
            savedReplies
                ([⟨.notify listener event, reply⟩] ++ later) =
              reply :: savedReplies later := by
          simp [savedReplies, savedReply?, hStage]
        rw [hReply, verdict]
        cases hPasses : reply.ofListener .afterSave with
        | ok value =>
            rw [hPasses] at hRest
            exact ih hRest
        | error e =>
            rw [hPasses] at hRest
            exact (Step.ends_pure_iff.mp hRest).2

/- Publishing that an entity is saved ends with the verdict. -/
theorem ends_publishIf_verdict
    {hasBus : Bool}
    {r : Result Unit}
    (hStage : event.stage = .afterSave)
    (h :
      (publishIf hasBus event : Step T K Unit).Ends
        transcript r) :
    r = verdict .afterSave (savedReplies transcript) := by
  unfold publishIf at h
  split at h
  · unfold publish at h
    rw [hStage] at h
    rcases Step.ends_bind_iff.mp h with
      ⟨e, hAsk, -⟩ | ⟨_, targets, later, rfl, hAsk, hRest⟩
    · rcases Step.ends_ask_iff.mp hAsk with ⟨_, -, hOk⟩
      cases hOk
    · rcases Step.ends_ask_iff.mp hAsk with ⟨_, rfl, hOk⟩
      cases hOk
      rcases Step.ends_bind_iff.mp hRest with
        ⟨e, hDeliver, -⟩ | ⟨told, own, _, rfl, hDeliver, hResult⟩
      · cases ends_deliver_verdict hStage hDeliver
      · cases ends_deliver_verdict hStage hDeliver
        rcases Step.ends_ofResult_iff.mp hResult with ⟨rfl, rfl⟩
        rw [List.append_nil]
        rfl
  · rcases Step.ends_pure_iff.mp h with ⟨rfl, rfl⟩
    rfl

------------------------------------------------------------
-- Tasks That End Alike
------------------------------------------------------------

namespace Task

variable {α β : Type}

/- The task asks nothing, and there is one way in which it ends. -/
def Silent
    (x : Task T K α) : Prop :=
  ∀ before,
    ∃ outcome after,
      ∀ transcript given later,
        x.Ends before transcript given later →
          transcript = [] ∧ given = outcome ∧ later = after

theorem Silent.ofResult
    (r : Result α) :
    Silent (Task.ofResult r : Task T K α) :=
  fun before =>
    ⟨_, before, fun _ _ _ h => ends_ofResult_iff.mp h⟩

/-
  From the same registry both tasks end with the same outcome
  and the same registry, if the listeners to saved entities
  reply alike.
-/
def EndAlike
    (x y : Task T K α) : Prop :=
  ∀ before first second outcome other after later,
    x.Ends before first outcome after →
      y.Ends before second other later →
        savedReplies first = savedReplies second →
          outcome = other ∧ after = later

/- What asks nothing leads to the same value in both tasks. -/
theorem EndAlike.bind
    {x : Task T K α}
    {f g : α → Task T K β}
    (hSilent : Silent x)
    (hRest : ∀ value, EndAlike (f value) (g value)) :
    EndAlike (x >>= f) (x >>= g) := by
  intro before first second outcome other after later h₁ h₂
    hReplies
  rcases hSilent before with ⟨own, between, hOnly⟩
  rcases ends_bind_iff.mp h₁ with
    ⟨failure, hEnds, rfl⟩ | ⟨_, value, _, _, rfl, hEnds, hFirst⟩
  · rcases hOnly _ _ _ hEnds with ⟨rfl, rfl, rfl⟩
    rcases ends_bind_iff.mp h₂ with
      ⟨_, hAgain, rfl⟩ | ⟨_, _, _, _, rfl, hAgain, -⟩
    · rcases hOnly _ _ _ hAgain with ⟨-, hSame, rfl⟩
      cases hSame
      exact ⟨rfl, rfl⟩
    · cases (hOnly _ _ _ hAgain).2.1
  · rcases hOnly _ _ _ hEnds with ⟨rfl, rfl, rfl⟩
    rcases ends_bind_iff.mp h₂ with
      ⟨_, hAgain, rfl⟩ | ⟨_, _, _, _, rfl, hAgain, hSecond⟩
    · cases (hOnly _ _ _ hAgain).2.1
    · rcases hOnly _ _ _ hAgain with ⟨rfl, hSame, rfl⟩
      cases hSame
      exact hRest value _ _ _ _ _ _ _ hFirst hSecond hReplies

/- A context is added to the same errors. -/
theorem EndAlike.inContext
    {x y : Task T K α}
    (h : EndAlike x y)
    (kind : RequestKind)
    (id collection : Text) :
    EndAlike (Task.inContext kind id collection x)
      (Task.inContext kind id collection y) := by
  intro before first second outcome other after later h₁ h₂
    hReplies
  rcases ends_inContext_iff.mp h₁ with ⟨inner, hFirst, rfl⟩
  rcases ends_inContext_iff.mp h₂ with ⟨again, hSecond, rfl⟩
  rcases h _ _ _ _ _ _ _ hFirst hSecond hReplies with
    ⟨rfl, rfl⟩
  exact ⟨rfl, rfl⟩

/- The replies to a saved entity decide whether it is returned. -/
theorem ends_publishIf_bind_verdict
    {hasBus : Bool}
    {value : α}
    {before after : ResultRegistry}
    {outcome : Except Failure α}
    (hStage : event.stage = .afterSave)
    (h :
      Ends
        (Task.ofStep (publishIf hasBus event) >>= fun _ =>
          Pure.pure value)
        before transcript outcome after) :
    outcome =
        Failure.ofResult
          ((verdict .afterSave (savedReplies transcript)).map
            fun _ => value) ∧
      after = before := by
  rcases ends_bind_iff.mp h with
    ⟨failure, hTell, rfl⟩ | ⟨told, _, _, _, rfl, hTell, hPure⟩
  · rcases ends_ofStep_iff.mp hTell with ⟨r, hStep, hSame, rfl⟩
    rw [← ends_publishIf_verdict hStage hStep]
    cases r with
    | ok value => cases hSame
    | error cause =>
        cases hSame
        exact ⟨rfl, rfl⟩
  · rcases ends_ofStep_ok_iff.mp hTell with ⟨hStep, rfl⟩
    rcases ends_pure_iff.mp hPure with ⟨rfl, rfl, rfl⟩
    rw [List.append_nil, ← ends_publishIf_verdict hStage hStep]
    exact ⟨rfl, rfl⟩

/- Whatever the listeners are told of, their replies decide. -/
theorem EndAlike.publishIf
    {other : Event T}
    (hStage : event.stage = .afterSave)
    (hOther : other.stage = .afterSave)
    (hasBus : Bool)
    (value : α) :
    EndAlike (K := K)
      (Task.ofStep (DocumentMapper.publishIf hasBus event) >>=
        fun _ => Pure.pure value)
      (Task.ofStep (DocumentMapper.publishIf hasBus other) >>=
        fun _ => Pure.pure value) := by
  intro before first second outcome given after later h₁ h₂
    hReplies
  rcases ends_publishIf_bind_verdict hStage h₁ with ⟨rfl, rfl⟩
  rcases ends_publishIf_bind_verdict hOther h₂ with ⟨rfl, rfl⟩
  rw [hReplies]
  exact ⟨rfl, rfl⟩

end Task

end DocumentMapper
