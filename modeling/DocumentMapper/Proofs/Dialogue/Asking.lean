import DocumentMapper.Codec
import DocumentMapper.Proofs.Dialogue.Outcome

/-
  Steps that ask questions of one kind only.

  Whatever a step is answered, its questions are of a kind if
  the questions of its parts are. Encoding an entity asks
  those who are concerned with a conversion, and nobody of
  what happens afterwards.

  Key definitions include:
    * `Call.IsConversion`
    * `Step.Asks`

  Main statements include:
    * `Step.Asks.bind`
    * `publishIf_asks`, `substitute_asks`, `inspect_asks`
    * `Codec.encode_asks`
-/

namespace DocumentMapper

variable {T : Type}
variable [EntityTypes T]
variable {K : Hooks T}
variable {α β : Type}

/-
  The question is for callbacks, or for listeners to a stage
  before the entity is saved.
-/
def Call.IsConversion : Call T K → Prop
  | .listeners stage => stage ≠ .afterSave
  | .notify _ event => event.stage ≠ .afterSave
  | .beforeHooks _ => True
  | .runBefore _ _ _ _ => True
  | .afterHooks _ => True
  | .runAfter _ _ _ _ _ => True
  | _ => False

/- Whatever it is answered, the step asks such questions only. -/
def Step.Asks
    (P : Call T K → Prop)
    (x : Step T K α) : Prop :=
  ∀ transcript outcome,
    x.Ends transcript outcome →
      ∀ y ∈ transcript, P y.question

------------------------------------------------------------
-- Building Blocks
------------------------------------------------------------

namespace Step

variable {P Q : Call T K → Prop}

theorem Asks.mono
    {x : Step T K α}
    (hAsks : Asks P x)
    (hKind : ∀ c, P c → Q c) :
    Asks Q x := by
  intro transcript outcome h y hy
  exact hKind _ (hAsks _ _ h y hy)

theorem Asks.pure
    (value : α) :
    Asks P (Pure.pure value : Step T K α) := by
  intro transcript outcome h
  rcases ends_pure_iff.mp h with ⟨rfl, -⟩
  exact fun _ hMem => absurd hMem List.not_mem_nil

theorem Asks.ofResult
    (r : Result α) :
    Asks P (Step.ofResult r : Step T K α) := by
  intro transcript outcome h
  rcases ends_ofResult_iff.mp h with ⟨rfl, -⟩
  exact fun _ hMem => absurd hMem List.not_mem_nil

theorem Asks.throw
    (e : Error) :
    Asks P (MonadExcept.throw e : Step T K α) := by
  intro transcript outcome h
  rcases ends_throw_iff.mp h with ⟨rfl, -⟩
  exact fun _ hMem => absurd hMem List.not_mem_nil

theorem Asks.ask
    {c : Call T K}
    (hCall : P c) :
    Asks P (Step.ask c) := by
  intro transcript outcome h
  rcases ends_ask_iff.mp h with ⟨answer, rfl, -⟩
  intro x hx
  rcases List.mem_singleton.mp hx with rfl
  exact hCall

theorem Asks.bind
    {x : Step T K α}
    {f : α → Step T K β}
    (hFirst : Asks P x)
    (hSecond : ∀ value, Asks P (f value)) :
    Asks P (x >>= f) := by
  intro transcript outcome h
  rcases ends_bind_iff.mp h with
    ⟨e, hEnds, -⟩ | ⟨first, value, second, rfl, h₁, h₂⟩
  · exact hFirst _ _ hEnds
  · intro x hx
    rcases List.mem_append.mp hx with hx | hx
    · exact hFirst _ _ h₁ x hx
    · exact hSecond value _ _ h₂ x hx

theorem Asks.ite
    {p : Prop}
    [Decidable p]
    {x y : Step T K α}
    (hThen : Asks P x)
    (hElse : Asks P y) :
    Asks P (if p then x else y) := by
  split
  · exact hThen
  · exact hElse

end Step

------------------------------------------------------------
-- Events and Callbacks
------------------------------------------------------------

open Step

variable {P : Call T K → Prop}

/- Delivery asks the listeners. -/
theorem deliver_asks
    {event : Event T}
    (hNotify : ∀ listener, P (.notify listener event))
    (stage : Stage)
    (targets : List K.Listener) :
    Asks P
      (deliver
        (fun listener =>
          (Step.ask (.notify listener event) :
            Step T K (Reply Unit)))
        stage targets) := by
  induction targets with
  | nil => exact .pure _
  | cons listener rest ih =>
      refine .bind (.ask (hNotify listener)) fun reply => ?_
      cases reply.ofListener stage with
      | ok value => exact ih
      | error e => exact .pure _

/- Publishing asks who listens, and then the listeners. -/
theorem publishIf_asks
    {event : Event T}
    (hListeners : P (.listeners event.stage))
    (hNotify : ∀ listener, P (.notify listener event))
    (hasBus : Bool) :
    Asks P (publishIf hasBus event : Step T K Unit) := by
  unfold publishIf
  split
  · exact
      .bind (.ask hListeners) fun targets =>
        .bind (deliver_asks hNotify _ targets) fun outcome =>
          .ofResult outcome
  · exact .pure ()

/- Substitution asks the callbacks before conversion. -/
theorem substitute_asks
    {t : T}
    (hHooks : P (.beforeHooks t))
    (hRun :
      ∀ hook e collection, P (.runBefore t hook e collection))
    (e : EntityOf t)
    (collection : Text) :
    Asks P (substitute e collection :
      Step T K (EntityOf t)) := by
  refine .bind (.ask hHooks) fun hooks => ?_
  induction hooks generalizing e with
  | nil => exact .pure e
  | cons hook rest ih =>
      refine .bind (.ask (hRun hook e collection)) fun reply => ?_
      cases reply with
      | ok e => exact ih e
      | failed cause => exact .throw _
      | threw what => exact .throw _

/- Inspection asks the callbacks after conversion. -/
theorem inspect_asks
    {t : T}
    {e : EntityOf t}
    {document : Document}
    {collection : Text}
    (hHooks : P (.afterHooks t))
    (hRun :
      ∀ hook, P (.runAfter t hook e document collection)) :
    Asks P (inspect e document collection :
      Step T K Unit) := by
  refine .bind (.ask hHooks) fun hooks => ?_
  induction hooks with
  | nil => exact .pure ()
  | cons hook rest ih =>
      refine .bind (.ask (hRun hook)) fun reply => ?_
      rcases reply with ⟨⟨⟩⟩ | cause | what
      · exact ih
      · dsimp only
        split
        · exact ih
        · exact .throw _
      · exact .throw _

/- Encoding asks nobody who is told of a saved entity. -/
theorem Codec.encode_asks
    {t : T}
    (c : Codec T)
    (e : EntityOf t)
    (collection : Text) :
    Asks Call.IsConversion
      (c.encode e collection : Step T K Document) := by
  unfold encode
  refine .bind (.ofResult _) fun d => ?_
  refine .bind
    (publishIf_asks (by simp [Call.IsConversion])
      (by simp [Call.IsConversion]) _)
    fun _ => ?_
  have hEnd :
      ∀ document : Document,
        Asks Call.IsConversion (do
          publishIf c.hasBus
            ⟨.beforeSave, t, e, some document, collection⟩
          return document : Step T K Document) :=
    fun document =>
      .bind
        (publishIf_asks (by simp [Call.IsConversion])
          (by simp [Call.IsConversion]) _)
        fun _ => .pure _
  refine
    .ite (.bind (substitute_asks trivial (fun _ _ _ => trivial)
        _ _) ?_)
      (.bind (.pure _) ?_) <;>
  · intro converted
    refine .bind (.ofResult _) fun document => ?_
    exact
      .ite
        (.bind (inspect_asks trivial fun _ => trivial)
          fun _ => hEnd _)
        (hEnd _)

end DocumentMapper
