import DocumentMapper.Proofs.Codec.Encoding
import DocumentMapper.Proofs.Dialogue.Course

/-
  The course of encoding.

  Listeners are told before the conversion and again when the
  document is there; callbacks run around the conversion. The
  first callback before conversion gets the entity itself,
  every other one what the callback before it returned, and
  the entity that the last one returned is converted.

  Key definitions include:
    * `Audience`, `Audience.Attends`
    * `Audience.tell`, `Audience.substitute`, `Audience.inspect`
    * `returned`, `converted`

  Main statements include:
    * `ends_publishIf`, `course_publishIf`
    * `course_substituteBy`, `course_inspectBy`
    * `Codec.course_encode`
-/

namespace DocumentMapper

variable {T : Type}
variable [EntityTypes T]
variable {K : Hooks T}
variable {t : T}

------------------------------------------------------------
-- Audiences
------------------------------------------------------------

/-
  Who is there when an entity of a type is written. The bus
  may be another one at every stage.
-/
structure Audience (K : Hooks T) (t : T) where
  bus : Stage → EventBus K.Listener := fun _ => {}
  before : List (K.Before t) := []
  after : List (K.After t) := []

/- A stage, and who was found to listen to it. -/
def listening?
    (x : Exchange (Call.Answer (T := T) (K := K))) :
    Option (Stage × List K.Listener) :=
  match x with
  | ⟨.listeners stage, targets⟩ => some (stage, targets)
  | _ => none

/- The callbacks that were found to run before conversion. -/
def beforeHooks?
    (t : T)
    (x : Exchange (Call.Answer (T := T) (K := K))) :
    Option (List (K.Before t)) :=
  match x with
  | ⟨.beforeHooks type, hooks⟩ =>
      if h : type = t then some (h ▸ hooks) else none
  | _ => none

/- The callbacks that were found to run after conversion. -/
def afterHooks?
    (t : T)
    (x : Exchange (Call.Answer (T := T) (K := K))) :
    Option (List (K.After t)) :=
  match x with
  | ⟨.afterHooks type, hooks⟩ =>
      if h : type = t then some (h ▸ hooks) else none
  | _ => none

/- The entity that a callback before conversion returned. -/
def returned?
    (t : T)
    (x : Exchange (Call.Answer (T := T) (K := K))) :
    Option (EntityOf t) :=
  match x with
  | ⟨.runBefore type _ _ _, .ok e⟩ =>
      if h : type = t then some (h ▸ e) else none
  | _ => none

/- All entities that callbacks returned, in order. -/
def returned
    (t : T)
    (transcript : Transcript T K) : List (EntityOf t) :=
  transcript.filterMap (returned? t)

/- The entity that is converted in place of `e`. -/
def converted
    (e : EntityOf t)
    (transcript : Transcript T K) : EntityOf t :=
  (returned t transcript).getLastD e

@[simp]
theorem returned_nil :
    returned t ([] : Transcript T K) = [] :=
  rfl

@[simp]
theorem returned_append
    (first second : Transcript T K) :
    returned t (first ++ second) =
      returned t first ++ returned t second :=
  List.filterMap_append

/- A callback before conversion is called. -/
def Call.IsSubstitution : Call T K → Prop
  | .runBefore _ _ _ _ => True
  | _ => False

/- Nobody else returns entities. -/
theorem returned_eq_nil
    {transcript : Transcript T K}
    (h : ∀ x ∈ transcript, ¬ x.question.IsSubstitution) :
    returned t transcript = [] := by
  rw [returned, List.filterMap_eq_nil_iff]
  rintro ⟨question, answer⟩ hMem
  cases question <;> first | rfl | exact (h _ hMem trivial).elim

namespace Audience

/-
  Whoever is asked for listeners and callbacks answers with
  those of the audience. Without a bus there are no listeners,
  and without callbacks none.
-/
structure Attends
    (a : Audience K t)
    (c : Codec T)
    (transcript : Transcript T K) : Prop where
  listeners :
    ∀ x ∈ transcript.filterMap listening?,
      x.2 = (a.bus x.1).targets x.1
  before :
    ∀ hooks ∈ transcript.filterMap (beforeHooks? t),
      hooks = a.before
  after :
    ∀ hooks ∈ transcript.filterMap (afterHooks? t),
      hooks = a.after
  bus : c.hasBus = false → ∀ stage, a.bus stage = {}
  callbacks :
    c.hasCallbacks = false → a.before = [] ∧ a.after = []

/- Callbacks that were found are an answer. -/
theorem mem_of_mem_beforeHooks?
    {transcript : Transcript T K}
    {hooks : List (K.Before t)}
    (hMem : hooks ∈ transcript.filterMap (beforeHooks? t)) :
    ⟨.beforeHooks t, hooks⟩ ∈ transcript := by
  rcases List.mem_filterMap.mp hMem with
    ⟨⟨question, answer⟩, hIn, hSome⟩
  cases question with
  | beforeHooks type =>
      by_cases hType : type = t
      · subst hType
        simp only [beforeHooks?, dite_true,
          Option.some.injEq] at hSome
        exact hSome ▸ hIn
      · simp [beforeHooks?, hType] at hSome
  | _ => cases hSome

/- Every part of what it attends is attended. -/
theorem Attends.of_sublist
    {a : Audience K t}
    {c : Codec T}
    {part transcript : Transcript T K}
    (h : a.Attends c transcript)
    (hPart : part.Sublist transcript) :
    a.Attends c part where
  listeners x hMem :=
    h.listeners x ((hPart.filterMap _).subset hMem)
  before hooks hMem :=
    h.before hooks ((hPart.filterMap _).subset hMem)
  after hooks hMem :=
    h.after hooks ((hPart.filterMap _).subset hMem)
  bus := h.bus
  callbacks := h.callbacks

/- Whoever listens to its stage is told of an event, in order. -/
def tell
    (a : Audience K t)
    (event : Event T) : List (Call T K) :=
  ((a.bus event.stage).targets event.stage).map
    (.notify · event)

/-
  The callbacks before conversion run in order, each one on
  the entity that the one before it returned.
-/
def substitute
    (a : Audience K t)
    (e : EntityOf t)
    (returned : List (EntityOf t))
    (collection : Text) : List (Call T K) :=
  List.zipWith
    (fun hook given => .runBefore t hook given collection)
    a.before (e :: returned)

/- The callbacks after conversion run in order. -/
def inspect
    (a : Audience K t)
    (e : EntityOf t)
    (document : Document)
    (collection : Text) : List (Call T K) :=
  a.after.map (.runAfter t · e document collection)

/- What precedes the conversion. -/
def opening
    (a : Audience K t)
    (e : EntityOf t)
    (returned : List (EntityOf t))
    (collection : Text) : List (Call T K) :=
  a.tell ⟨.beforeConvert, t, e, none, collection⟩ ++
    a.substitute e returned collection

/- What follows when the document is there. -/
def review
    (a : Audience K t)
    (e : EntityOf t)
    (document : Document)
    (collection : Text) : List (Call T K) :=
  a.inspect e document collection ++
    a.tell ⟨.beforeSave, t, e, some document, collection⟩

end Audience

------------------------------------------------------------
-- Events
------------------------------------------------------------

variable (gap : Prop)
variable {a : Audience K t}
variable {c : Codec T}
variable {transcript : Transcript T K}

/- Listeners are told one after the other. -/
theorem course_deliver
    {event : Event T}
    {targets : List K.Listener}
    {outcome : Result (Result Unit)}
    (h :
      (deliver
          (fun listener =>
            (Step.ask (.notify listener event) :
              Step T K (Reply Unit)))
          event.stage targets).Ends
        transcript outcome) :
    ∃ r,
      outcome = .ok r ∧
        Course gap (targets.map (.notify · event))
          (observed transcript) (Failure.ofResult r) := by
  induction targets generalizing transcript with
  | nil =>
      rcases Step.ends_pure_iff.mp h with ⟨rfl, rfl⟩
      exact ⟨_, rfl, .nil⟩
  | cons listener rest ih =>
      rcases Step.ends_bind_iff.mp h with
        ⟨e, hAsk, -⟩ | ⟨_, reply, later, rfl, hAsk, hRest⟩
      · rcases Step.ends_ask_iff.mp hAsk with ⟨_, -, hOk⟩
        cases hOk
      · rcases Step.ends_ask_iff.mp hAsk with ⟨_, rfl, hOk⟩
        cases hOk
        have hPasses := Reply.ofListener_isOk reply event.stage
        cases hReply : reply.ofListener event.stage with
        | ok value =>
            rw [hReply] at hRest hPasses
            rcases ih hRest with ⟨r, rfl, hCourse⟩
            refine
              ⟨r, rfl,
                Course.cons ⟨.notify listener event, reply⟩ ?_
                  hCourse⟩
            simp [failed, ← hPasses, Result.isOk]
        | error e =>
            rw [hReply] at hRest hPasses
            rcases Step.ends_pure_iff.mp hRest with ⟨rfl, rfl⟩
            refine
              ⟨_, rfl,
                Course.of_failed
                  ⟨.notify listener event, reply⟩ ?_ _⟩
            simp [failed, ← hPasses, Result.isOk]

/-
  Without a bus nobody is told. With one it is asked who
  listens, and those are told.
-/
theorem ends_publishIf
    {hasBus : Bool}
    {event : Event T}
    {r : Result Unit}
    (h :
      (publishIf hasBus event : Step T K Unit).Ends
        transcript r) :
    (hasBus = false ∧ transcript = [] ∧ r = .ok ()) ∨
      ∃ targets told,
        transcript = ⟨.listeners event.stage, targets⟩ :: told ∧
          Course gap (targets.map (.notify · event))
            (observed told) (Failure.ofResult r) := by
  unfold publishIf at h
  split at h
  · rcases Step.ends_bind_iff.mp h with
      ⟨e, hAsk, -⟩ | ⟨_, targets, later, rfl, hAsk, hRest⟩
    · rcases Step.ends_ask_iff.mp hAsk with ⟨_, -, hOk⟩
      cases hOk
    · rcases Step.ends_ask_iff.mp hAsk with ⟨_, rfl, hOk⟩
      cases hOk
      refine .inr ⟨targets, later, rfl, ?_⟩
      rcases Step.ends_bind_iff.mp hRest with
        ⟨e, hDeliver, -⟩ | ⟨told, _, _, rfl, hDeliver, hResult⟩
      · rcases course_deliver gap hDeliver with ⟨_, hOk, -⟩
        cases hOk
      · rcases course_deliver gap hDeliver with
          ⟨own, hOk, hCourse⟩
        cases hOk
        rcases Step.ends_ofResult_iff.mp hResult with ⟨rfl, rfl⟩
        rw [List.append_nil]
        exact hCourse
  · rename_i hNoBus
    rcases Step.ends_pure_iff.mp h with ⟨rfl, rfl⟩
    exact .inl ⟨Bool.not_eq_true _ ▸ hNoBus, rfl, rfl⟩

/- Publishing tells the audience. -/
theorem course_publishIf
    {event : Event T}
    {r : Result Unit}
    (hAttends : a.Attends c transcript)
    (h :
      (publishIf c.hasBus event : Step T K Unit).Ends
        transcript r) :
    Course gap (a.tell event) (observed transcript)
      (Failure.ofResult r) := by
  unfold Audience.tell
  rcases ends_publishIf gap h with
    ⟨hNoBus, rfl, rfl⟩ | ⟨targets, told, rfl, hCourse⟩
  · rw [hAttends.bus hNoBus]
    exact .nil
  · rw [← hAttends.listeners (event.stage, targets)
      List.mem_cons_self]
    exact hCourse

------------------------------------------------------------
-- Callbacks
------------------------------------------------------------

/-
  Callbacks before conversion run one after the other, and
  each gets what the one before it returned.
-/
theorem course_substituteBy
    {e : EntityOf t}
    {collection : Text}
    {hooks : List (K.Before t)}
    {r : Result (EntityOf t)}
    (h :
      (substituteBy collection e hooks :
          Step T K (EntityOf t)).Ends
        transcript r) :
    Course gap
        (List.zipWith
          (fun hook given => .runBefore t hook given collection)
          hooks (e :: returned t transcript))
        (observed transcript) (Failure.ofResult r) ∧
      ∀ last, r = .ok last → last = converted e transcript := by
  induction hooks generalizing e transcript with
  | nil =>
      rcases Step.ends_pure_iff.mp h with ⟨rfl, rfl⟩
      refine ⟨.nil, ?_⟩
      rintro last ⟨⟩
      rfl
  | cons hook rest ih =>
      rcases Step.ends_bind_iff.mp h with
        ⟨cause, hAsk, -⟩ | ⟨_, reply, later, rfl, hAsk, hRest⟩
      · rcases Step.ends_ask_iff.mp hAsk with ⟨_, -, hOk⟩
        cases hOk
      · rcases Step.ends_ask_iff.mp hAsk with ⟨_, rfl, hOk⟩
        cases hOk
        cases reply with
        | ok next =>
            have hReturned :
                returned t
                    ([⟨.runBefore t hook e collection,
                        .ok next⟩] ++ later) =
                  next :: returned t later := by
              simp [returned, returned?]
            rcases ih hRest with ⟨hCourse, hLast⟩
            refine ⟨?_, fun last hOk => ?_⟩
            · rw [hReturned]
              exact
                Course.cons ⟨.runBefore t hook e collection, _⟩ rfl
                  hCourse
            · rw [hLast last hOk, converted, converted, hReturned,
                List.getLastD_cons]
        | failed cause =>
            rcases Step.ends_throw_iff.mp hRest with ⟨rfl, rfl⟩
            exact
              ⟨Course.of_failed
                  ⟨.runBefore t hook e collection, _⟩ rfl _,
                nofun⟩
        | threw what =>
            rcases Step.ends_throw_iff.mp hRest with ⟨rfl, rfl⟩
            exact
              ⟨Course.of_failed
                  ⟨.runBefore t hook e collection, _⟩ rfl _,
                nofun⟩

/- Callbacks after conversion run one after the other. -/
theorem course_inspectBy
    {e : EntityOf t}
    {document : Document}
    {collection : Text}
    {hooks : List (K.After t)}
    {r : Result Unit}
    (h :
      (inspectBy e document collection hooks :
          Step T K Unit).Ends
        transcript r) :
    Course gap
      (hooks.map (.runAfter t · e document collection))
      (observed transcript) (Failure.ofResult r) := by
  induction hooks generalizing transcript with
  | nil =>
      rcases Step.ends_pure_iff.mp h with ⟨rfl, rfl⟩
      exact .nil
  | cons hook rest ih =>
      rcases Step.ends_bind_iff.mp h with
        ⟨cause, hAsk, -⟩ | ⟨_, reply, later, rfl, hAsk, hRest⟩
      · rcases Step.ends_ask_iff.mp hAsk with ⟨_, -, hOk⟩
        cases hOk
      · rcases Step.ends_ask_iff.mp hAsk with ⟨_, rfl, hOk⟩
        cases hOk
        let shown
            (reply : Reply Unit) : Exchange Call.Answer :=
          ⟨.runAfter t hook e document collection, reply⟩
        rcases reply with ⟨⟨⟩⟩ | cause | what
        · exact Course.cons (shown (.ok ())) rfl (ih hRest)
        · dsimp only at hRest
          split at hRest
          · refine
              Course.cons (shown (.failed cause)) ?_ (ih hRest)
            simp [failed, shown, Reply.passes, *]
          · rcases Step.ends_throw_iff.mp hRest with ⟨rfl, rfl⟩
            refine Course.of_failed (shown (.failed cause)) ?_ _
            simp [failed, shown, Reply.passes, *]
        · rcases Step.ends_throw_iff.mp hRest with ⟨rfl, rfl⟩
          exact Course.of_failed (shown (.threw what)) rfl _

------------------------------------------------------------
-- Encoding
------------------------------------------------------------

namespace Codec

/- Let callbacks replace an entity, if there are callbacks. -/
def substituteIf
    (c : Codec T)
    (e : EntityOf t)
    (collection : Text) : Step T K (EntityOf t) :=
  if c.hasCallbacks then substitute e collection else pure e

/- Show callbacks a document, if there are callbacks. -/
def inspectIf
    (c : Codec T)
    (e : EntityOf t)
    (document : Document)
    (collection : Text) : Step T K Unit :=
  if c.hasCallbacks then
    inspect e document collection
  else
    pure ()

/- What precedes the conversion. -/
def prepare
    (c : Codec T)
    (e : EntityOf t)
    (collection : Text) : Step T K (EntityOf t) := do
  publishIf c.hasBus
    ⟨.beforeConvert, t, e, none, collection⟩
  c.substituteIf e collection

/- What follows when the document is there. -/
def present
    (c : Codec T)
    (e : EntityOf t)
    (document : Document)
    (collection : Text) : Step T K Document := do
  c.inspectIf e document collection
  publishIf c.hasBus
    ⟨.beforeSave, t, e, some document, collection⟩
  return document

/- Encoding converts between two parts that may fail. -/
theorem encode_eq
    (c : Codec T)
    (e : EntityOf t)
    (collection : Text) :
    (c.encode e collection : Step T K Document) =
      (do
        let d ← Step.ofResult (c.mapping.descriptor t)
        let converted ← c.prepare e collection
        let document ← Step.ofResult (c.toDocument d converted)
        c.present e document collection) := by
  unfold encode prepare present substituteIf inspectIf
  simp only [bind_assoc]
  cases c.hasCallbacks with
  | true => rfl
  | false => rfl

/- Only the callbacks before conversion return entities. -/
theorem returned_publishIf
    {hasBus : Bool}
    {event : Event T}
    {r : Result Unit}
    (h :
      (publishIf hasBus event : Step T K Unit).Ends
        transcript r) :
    returned t transcript = [] :=
  returned_eq_nil
    (publishIf_asks
      (P := (¬ Call.IsSubstitution ·)) nofun (fun _ => nofun)
      hasBus _ _ h)

/- The entity is replaced, or stays as it is. -/
theorem course_substituteIf
    {e : EntityOf t}
    {collection : Text}
    {r : Result (EntityOf t)}
    (hAttends : a.Attends c transcript)
    (h :
      (c.substituteIf e collection :
          Step T K (EntityOf t)).Ends
        transcript r) :
    Course gap
        (a.substitute e (returned t transcript) collection)
        (observed transcript) (Failure.ofResult r) ∧
      ∀ last, r = .ok last → last = converted e transcript := by
  unfold substituteIf at h
  unfold Audience.substitute
  split at h
  · rcases Step.ends_bind_iff.mp h with
      ⟨cause, hAsk, -⟩ | ⟨_, hooks, later, rfl, hAsk, hRest⟩
    · rcases Step.ends_ask_iff.mp hAsk with ⟨_, -, hOk⟩
      cases hOk
    · rcases Step.ends_ask_iff.mp hAsk with ⟨_, rfl, hOk⟩
      cases hOk
      have hHooks : hooks = a.before :=
        hAttends.before hooks
          (by simp [beforeHooks?])
      have hCourse := course_substituteBy gap hRest
      rw [hHooks] at hCourse
      exact hCourse
  · rename_i hNone
    rcases Step.ends_pure_iff.mp h with ⟨rfl, rfl⟩
    rw [(hAttends.callbacks (Bool.not_eq_true _ ▸ hNone)).1]
    refine ⟨.nil, ?_⟩
    rintro last ⟨⟩
    rfl

/- Callbacks are shown the document, and return nothing. -/
theorem course_inspectIf
    {e : EntityOf t}
    {document : Document}
    {collection : Text}
    {r : Result Unit}
    (hAttends : a.Attends c transcript)
    (h :
      (c.inspectIf e document collection :
          Step T K Unit).Ends
        transcript r) :
    Course gap (a.inspect e document collection)
        (observed transcript) (Failure.ofResult r) ∧
      returned t transcript = [] := by
  unfold inspectIf at h
  unfold Audience.inspect
  split at h
  · refine
      ⟨?_,
        returned_eq_nil
          (inspect_asks
            (P := (¬ Call.IsSubstitution ·)) nofun
            (fun _ => nofun) _ _ h)⟩
    rcases Step.ends_bind_iff.mp h with
      ⟨cause, hAsk, -⟩ | ⟨_, hooks, later, rfl, hAsk, hRest⟩
    · rcases Step.ends_ask_iff.mp hAsk with ⟨_, -, hOk⟩
      cases hOk
    · rcases Step.ends_ask_iff.mp hAsk with ⟨_, rfl, hOk⟩
      cases hOk
      have hHooks : hooks = a.after :=
        hAttends.after hooks
          (by simp [afterHooks?])
      have hCourse := course_inspectBy gap hRest
      rw [hHooks] at hCourse
      exact hCourse
  · rename_i hNone
    rcases Step.ends_pure_iff.mp h with ⟨rfl, rfl⟩
    rw [(hAttends.callbacks (Bool.not_eq_true _ ▸ hNone)).2]
    exact ⟨.nil, rfl⟩

/- Listeners are told, and then the callbacks run. -/
theorem course_prepare
    {e : EntityOf t}
    {collection : Text}
    {r : Result (EntityOf t)}
    (hAttends : a.Attends c transcript)
    (h :
      (c.prepare e collection : Step T K (EntityOf t)).Ends
        transcript r) :
    Course gap
        (a.opening e (returned t transcript) collection)
        (observed transcript) (Failure.ofResult r) ∧
      ∀ last, r = .ok last → last = converted e transcript := by
  rcases Step.ends_bind_iff.mp h with
    ⟨cause, hTell, rfl⟩ | ⟨told, _, rest, rfl, hTell, hRest⟩
  · exact
      ⟨(course_publishIf gap hAttends hTell).extend _, nofun⟩
  · have hTold :=
      course_publishIf gap
        (hAttends.of_sublist (List.sublist_append_left _ _)) hTell
    rcases course_substituteIf gap
        (hAttends.of_sublist (List.sublist_append_right told rest))
        hRest with
      ⟨hCourse, hLast⟩
    unfold converted
    rw [observed_append, returned_append,
      returned_publishIf hTell, List.nil_append]
    exact ⟨hTold.append hCourse, hLast⟩

/- The callbacks are shown the document, then listeners are told. -/
theorem course_present
    {e : EntityOf t}
    {document : Document}
    {collection : Text}
    {r : Result Document}
    (hAttends : a.Attends c transcript)
    (h :
      (c.present e document collection :
          Step T K Document).Ends
        transcript r) :
    Course gap (a.review e document collection)
        (observed transcript) (Failure.ofResult r) ∧
      returned t transcript = [] ∧
      ∀ given, r = .ok given → given = document := by
  rcases Step.ends_bind_iff.mp h with
    ⟨cause, hInspect, rfl⟩ |
      ⟨shown, _, rest, rfl, hInspect, h₁⟩
  · rcases course_inspectIf gap hAttends hInspect with
      ⟨hCourse, hNone⟩
    exact ⟨hCourse.extend _, hNone, nofun⟩
  · rcases course_inspectIf gap
        (hAttends.of_sublist (List.sublist_append_left _ _))
        hInspect with
      ⟨hShown, hNone⟩
    have hRest :=
      hAttends.of_sublist (List.sublist_append_right shown rest)
    rw [observed_append, returned_append, hNone,
      List.nil_append]
    rcases Step.ends_bind_iff.mp h₁ with
      ⟨cause, hTell, rfl⟩ | ⟨told, _, _, rfl, hTell, hPure⟩
    · exact
        ⟨hShown.append
            (course_publishIf gap hRest hTell).of_error,
          returned_publishIf hTell, nofun⟩
    · rcases Step.ends_pure_iff.mp hPure with ⟨rfl, rfl⟩
      rw [List.append_nil] at hRest ⊢
      refine
        ⟨hShown.append
            ((course_publishIf gap hRest hTell).of_value _),
          returned_publishIf hTell, ?_⟩
      rintro given ⟨⟩
      rfl

/-
  Encoding takes its course. It may fail without a failing
  call, between the opening and the review; the document of
  the review is that of the entity that is converted.
-/
theorem course_encode
    {d : Descriptor (EntityTypes.schema t)}
    {e : EntityOf t}
    {collection : Text}
    {r : Result Document}
    (hDescriptor : c.mapping.descriptor t = .ok d)
    (hAttends : a.Attends c transcript)
    (h :
      (c.encode e collection : Step T K Document).Ends
        transcript r) :
    ∃ document,
      Course True
          (a.opening e (returned t transcript) collection ++
            a.review e document collection)
          (observed transcript) (Failure.ofResult r) ∧
        (c.toDocument d (converted e transcript) =
            .ok document ∨
          questions (observed transcript) <+:
            a.opening e (returned t transcript) collection) ∧
        ∀ given,
          r = .ok given →
            given = document ∧
              c.toDocument d (converted e transcript) =
                .ok document := by
  rw [encode_eq, hDescriptor] at h
  rcases Step.ends_bind_iff.mp h with
    ⟨cause, hFound, -⟩ | ⟨_, _, _, rfl, hFound, h₁⟩
  · rcases Step.ends_ofResult_iff.mp hFound with ⟨-, hOk⟩
    cases hOk
  · rcases Step.ends_ofResult_iff.mp hFound with ⟨rfl, hOk⟩
    cases hOk
    rw [List.nil_append] at hAttends ⊢
    rcases Step.ends_bind_iff.mp h₁ with
      ⟨cause, hPrepare, rfl⟩ |
        ⟨first, last, rest, rfl, hPrepare, h₂⟩
    · have hCourse := (course_prepare True hAttends hPrepare).1
      exact
        ⟨Document.ofId [], hCourse.extend _, .inr hCourse.order,
          nofun⟩
    · rcases course_prepare True
          (hAttends.of_sublist (List.sublist_append_left _ _))
          hPrepare with
        ⟨hFirst, hLast⟩
      obtain rfl := hLast last rfl
      rcases Step.ends_bind_iff.mp h₂ with
        ⟨cause, hConvert, rfl⟩ |
          ⟨_, document, rest, rfl, hConvert, hPresent⟩
      · rcases Step.ends_ofResult_iff.mp hConvert with ⟨rfl, -⟩
        rw [List.append_nil]
        have hPrefix := hFirst.order
        exact
          ⟨Document.ofId [],
            .cut trivial
              (hPrefix.trans (List.prefix_append _ _))
              hFirst.of_ok.2,
            .inr hPrefix, nofun⟩
      · rcases Step.ends_ofResult_iff.mp hConvert with
          ⟨rfl, hDocument⟩
        rw [List.nil_append] at hAttends ⊢
        rcases course_present True
            (hAttends.of_sublist
              (List.sublist_append_right first rest))
            hPresent with
          ⟨hRest, hNone, hGiven⟩
        have hConverted :
            c.toDocument d (converted e (first ++ rest)) =
              .ok document := by
          unfold converted
          rw [returned_append, hNone, List.append_nil]
          exact hDocument.symm
        refine
          ⟨document, ?_, .inl hConverted,
            fun given hOk => ⟨hGiven given hOk, hConverted⟩⟩
        rw [observed_append, returned_append, hNone,
          List.append_nil]
        exact hFirst.append hRest

end Codec

end DocumentMapper
