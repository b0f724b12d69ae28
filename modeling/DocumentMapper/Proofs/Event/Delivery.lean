import DocumentMapper.Proofs.Event.Log
import DocumentMapper.Proofs.Session.Runs
import DocumentMapper.Sample.Scene

/-
  Who is told of an event, and what becomes of it.

  Everybody may subscribe and unsubscribe at any time, also a
  listener who is being told of an event, and a listener may
  publish events of its own. Whoever is told of an event had a
  live subscription when the event was published, whatever
  has happened to the bus since.

  Key definitions include:
    * `Reply.Raises`, `Delivered`
    * `Publication`, `Publication.TellsTheLive`
    * `BusRun`

  Main statements include:
    * `ends_publish`
    * `BusRun.spans`, `BusRun.nested`
    * `BusRun.tells_the_live`
    * `Session.busRun_publish`
-/

namespace DocumentMapper

------------------------------------------------------------
-- Delivery
------------------------------------------------------------

/-
  The error that a listener raises: its own one, or a mapping
  error with the stage and the text of its exception. An error
  whose code is success is none.
-/
def Reply.Raises
    (reply : Reply Unit)
    (stage : Stage)
    (e : Error) : Prop :=
  match reply with
  | .ok () => False
  | .failed cause => cause.code ≠ .success ∧ e = cause
  | .threw what =>
      e = .mapping
        (Text.lit "Lifecycle listener threw during " ++
          stage.name ++ Text.lit ": " ++ what)

/- A delivery fails with the error that a listener raises. -/
theorem Reply.ofListener_eq_error_iff
    {stage : Stage}
    {reply : Reply Unit}
    {e : Error} :
    reply.ofListener stage = .error e ↔ reply.Raises stage e := by
  rcases reply with ⟨⟩ | cause | what
  · simp [ofListener, Raises]
  · by_cases hCode : cause.code = .success <;>
      simp [ofListener, Status.toResult, Status.isOk, Raises,
        hCode, eq_comm]
  · simp [ofListener, Raises, listenerThrew, eq_comm]

/-
  Listeners are told one after the other, all of them or up to
  the first that raises an error, which is the outcome.
-/
inductive Delivered
    {L : Type}
    (stage : Stage) :
    List L → List (L × Reply Unit) → Result Unit → Prop where
  | all
      (told : List (L × Reply Unit))
      (hTold : ∀ x ∈ told, ∀ e, ¬ x.2.Raises stage e) :
      Delivered stage (told.map Prod.fst) told (.ok ())
  | stopped
      (told : List (L × Reply Unit))
      {listener : L}
      {reply : Reply Unit}
      {e : Error}
      (hTold : ∀ x ∈ told, ∀ e, ¬ x.2.Raises stage e)
      (hRaises : reply.Raises stage e)
      (rest : List L) :
      Delivered stage (told.map Prod.fst ++ listener :: rest)
        (told ++ [(listener, reply)]) (.error e)

/- The first listener is told and raises nothing. -/
theorem Delivered.cons
    {L : Type}
    {stage : Stage}
    {targets : List L}
    {told : List (L × Reply Unit)}
    {outcome : Result Unit}
    {listener : L}
    {reply : Reply Unit}
    (hFirst : ∀ e, ¬ reply.Raises stage e)
    (h : Delivered stage targets told outcome) :
    Delivered stage (listener :: targets)
      ((listener, reply) :: told) outcome := by
  cases h with
  | all told hTold =>
      exact
        .all ((listener, reply) :: told)
          (List.forall_mem_cons.mpr ⟨hFirst, hTold⟩)
  | stopped told hTold hRaises rest =>
      exact
        .stopped ((listener, reply) :: told)
          (List.forall_mem_cons.mpr ⟨hFirst, hTold⟩) hRaises rest

variable {T : Type}
variable [EntityTypes T]
variable {K : Hooks T}

/- Listeners with their replies, as exchanges about an event. -/
def tellings
    (event : Event T)
    (told : List (K.Listener × Reply Unit)) : Transcript T K :=
  told.map fun x => ⟨.notify x.1 event, x.2⟩

/- The exchanges tell who was told. -/
theorem tellings_injective
    {event : Event T}
    {told other : List (K.Listener × Reply Unit)}
    (h : tellings event told = tellings event other) :
    told = other := by
  refine List.map_injective_iff.mpr ?_ h
  rintro ⟨listener, reply⟩ ⟨otherListener, otherReply⟩ hSame
  cases hSame
  rfl

/- A delivery tells listeners up to the first that fails. -/
theorem ends_deliver
    {event : Event T}
    {targets : List K.Listener}
    {transcript : Transcript T K}
    {outcome : Result (Result Unit)}
    (h :
      (deliver
          (fun listener =>
            (Step.ask (.notify listener event) :
              Step T K (Reply Unit)))
          event.stage targets).Ends
        transcript outcome) :
    ∃ told r,
      transcript = tellings event told ∧
        outcome = .ok r ∧
        Delivered event.stage targets told r := by
  induction targets generalizing transcript with
  | nil =>
      rcases Step.ends_pure_iff.mp h with ⟨hNone, hOk⟩
      exact ⟨[], .ok (), hNone, hOk, .all [] (by simp)⟩
  | cons listener rest ih =>
      rcases Step.ends_bind_iff.mp h with
        ⟨e, hAsk, -⟩ | ⟨_, reply, later, rfl, hAsk, hRest⟩
      · rcases Step.ends_ask_iff.mp hAsk with ⟨_, -, hOk⟩
        cases hOk
      · rcases Step.ends_ask_iff.mp hAsk with ⟨_, rfl, hOk⟩
        cases hOk
        cases hReply : reply.ofListener event.stage with
        | ok value =>
            rw [hReply] at hRest
            rcases ih hRest with
              ⟨told, r, hLater, hOk, hDelivered⟩
            refine
              ⟨(listener, reply) :: told, r, ?_, hOk,
                hDelivered.cons ?_⟩
            · rw [hLater]
              rfl
            · intro e hRaises
              rw [← Reply.ofListener_eq_error_iff, hReply]
                at hRaises
              cases hRaises
        | error e =>
            rw [hReply] at hRest
            rcases Step.ends_pure_iff.mp hRest with ⟨hNone, hOk⟩
            have hRaises :=
              Reply.ofListener_eq_error_iff.mp hReply
            refine
              ⟨[(listener, reply)], .error e, ?_, hOk,
                .stopped [] (by simp) hRaises rest⟩
            rw [hNone]
            rfl

/-
  Publishing asks who listens now, and delivers to those and
  nobody else.
-/
theorem ends_publish
    {event : Event T}
    {transcript : Transcript T K}
    {outcome : Result Unit}
    (h :
      (publish event : Step T K Unit).Ends
        transcript outcome) :
    ∃ targets told,
      transcript =
          ⟨.listeners event.stage, targets⟩ ::
            tellings event told ∧
        Delivered event.stage targets told outcome := by
  rcases Step.ends_bind_iff.mp h with
    ⟨e, hAsk, -⟩ | ⟨_, targets, later, rfl, hAsk, hRest⟩
  · rcases Step.ends_ask_iff.mp hAsk with ⟨_, -, hOk⟩
    cases hOk
  · rcases Step.ends_ask_iff.mp hAsk with ⟨_, rfl, hOk⟩
    cases hOk
    rcases Step.ends_bind_iff.mp hRest with
      ⟨e, hDeliver, -⟩ | ⟨heard, r, _, rfl, hDeliver, hResult⟩
    · rcases ends_deliver hDeliver with ⟨_, _, -, hOk, -⟩
      cases hOk
    · rcases ends_deliver hDeliver with
        ⟨told, _, hHeard, hOk, hDelivered⟩
      cases hOk
      rcases Step.ends_ofResult_iff.mp hResult with ⟨rfl, rfl⟩
      refine ⟨targets, told, ?_, hDelivered⟩
      rw [hHeard, List.append_nil]
      rfl

------------------------------------------------------------
-- Runs
------------------------------------------------------------

/-
  What became of one event: the log when it was published, who
  was told, and the log when its delivery was over.
-/
structure Publication (T : Type) [EntityTypes T] (K : Hooks T) where
  before : List (BusChange K.Listener)
  event : Event T
  told : List (K.Listener × Reply Unit)
  after : List (BusChange K.Listener)
  outcome : Result Unit

/-
  The live subscriptions that ask for the stage of the event
  are told, each of them once and in the order of their
  numbers, up to the first listener who raises an error.
-/
def Publication.TellsTheLive
    (p : Publication T K) : Prop :=
  ∃ targets : List (Subscription K.Listener),
    (∀ s,
      s ∈ targets ↔
        EventBus.Live p.before s ∧
          (s.stage? = none ∨ s.stage? = some p.event.stage)) ∧
      (targets.map (·.id)).Pairwise (· < ·) ∧
      Delivered p.event.stage (targets.map (·.listener))
        p.told p.outcome

/-
  A run of a bus from one log to another, with its
  publications in the order in which they begin. While an
  event is delivered the run goes on: listeners change the bus
  and publish events of their own.
-/
inductive BusRun :
    List (BusChange K.Listener) →
      List (BusChange K.Listener) →
      List (Publication T K) → Prop where
  | done
      {log : List (BusChange K.Listener)} :
      BusRun log log []
  | change
      {log final : List (BusChange K.Listener)}
      {published : List (Publication T K)}
      (c : BusChange K.Listener)
      (hRest : BusRun (log ++ [c]) final published) :
      BusRun log final published
  | publish
      {log between final : List (BusChange K.Listener)}
      {event : Event T}
      {told : List (K.Listener × Reply Unit)}
      {outcome : Result Unit}
      {inside later : List (Publication T K)}
      (hEnds :
        (DocumentMapper.publish event : Step T K Unit).Ends
          (⟨.listeners event.stage,
              (EventBus.after log).targets event.stage⟩ ::
            tellings event told) outcome)
      (hInside : BusRun log between inside)
      (hLater : BusRun between final later) :
      BusRun log final
        (⟨log, event, told, between, outcome⟩ ::
          (inside ++ later))

namespace BusRun

variable {log final : List (BusChange K.Listener)}
variable {published : List (Publication T K)}

/- The log only grows. -/
theorem log_grows
    (h : BusRun log final published) :
    log <+: final := by
  induction h with
  | done => exact List.prefix_refl _
  | change c hRest ih =>
      exact (List.prefix_append _ _).trans ih
  | publish hEnds hInside hLater ihInside ihLater =>
      exact ihInside.trans ihLater

/- Every publication begins and ends within the run. -/
theorem spans
    (h : BusRun log final published) :
    ∀ p ∈ published,
      log <+: p.before ∧ p.before <+: p.after ∧
        p.after <+: final := by
  induction h with
  | done =>
      intro p hMem
      exact absurd hMem List.not_mem_nil
  | change c hRest ih =>
      intro p hMem
      rcases ih p hMem with ⟨hBefore, hDuring⟩
      exact ⟨(List.prefix_append _ _).trans hBefore, hDuring⟩
  | publish hEnds hInside hLater ihInside ihLater =>
      intro p hMem
      rcases List.mem_cons.mp hMem with hSame | hOther
      · rw [hSame]
        exact
          ⟨List.prefix_refl _, hInside.log_grows,
            hLater.log_grows⟩
      · rcases List.mem_append.mp hOther with hIn | hIn
        · rcases ihInside p hIn with ⟨hBefore, hDuring, hAfter⟩
          exact ⟨hBefore, hDuring, hAfter.trans hLater.log_grows⟩
        · rcases ihLater p hIn with ⟨hBefore, hDuring⟩
          exact ⟨hInside.log_grows.trans hBefore, hDuring⟩

/-
  One of two publications begins first. The other one begins
  when it is over, with everything that was changed meanwhile,
  or it is over before.
-/
theorem nested
    (h : BusRun log final published) :
    published.Pairwise fun p q =>
      p.before <+: q.before ∧
        (p.after <+: q.before ∨ q.after <+: p.after) := by
  induction h with
  | done => exact List.Pairwise.nil
  | change c hRest ih => exact ih
  | publish hEnds hInside hLater ihInside ihLater =>
      refine List.pairwise_cons.mpr ⟨?_, ?_⟩
      · intro q hMem
        rcases List.mem_append.mp hMem with hIn | hIn
        · rcases hInside.spans q hIn with ⟨hBefore, -, hAfter⟩
          exact ⟨hBefore, .inr hAfter⟩
        · have hBefore := (hLater.spans q hIn).1
          exact ⟨hInside.log_grows.trans hBefore, .inl hBefore⟩
      · refine List.pairwise_append.mpr ⟨ihInside, ihLater, ?_⟩
        intro p hFirst q hSecond
        rcases hInside.spans p hFirst with ⟨-, hDuring, hAfter⟩
        have hBefore := hAfter.trans (hLater.spans q hSecond).1
        exact ⟨hDuring.trans hBefore, .inl hBefore⟩

/- An event is delivered to those whom the bus names. -/
theorem delivered
    (h : BusRun log final published) :
    ∀ p ∈ published,
      Delivered p.event.stage
        ((EventBus.after p.before).targets p.event.stage)
        p.told p.outcome := by
  induction h with
  | done =>
      intro p hMem
      exact absurd hMem List.not_mem_nil
  | change c hRest ih => exact ih
  | publish hEnds hInside hLater ihInside ihLater =>
      intro p hMem
      rcases List.mem_cons.mp hMem with hSame | hOther
      · rw [hSame]
        rcases ends_publish hEnds with
          ⟨targets, told, hTranscript, hDelivered⟩
        rcases List.cons.inj hTranscript with ⟨hAsked, hTold⟩
        cases hAsked
        rw [tellings_injective hTold]
        exact hDelivered
      · rcases List.mem_append.mp hOther with hIn | hIn
        · exact ihInside p hIn
        · exact ihLater p hIn

/-
  A bus shows the log of its changes and nothing else, however
  its runs are nested. Numbers are given out in increasing
  order, and at any time the bus mirrors the log so far. An
  event is told to those who were live when it was published.
  What listeners change meanwhile is in the log of those
  publications only that begin later.
-/
theorem tells_the_live
    (hRun : BusRun [] final published)
    (hFew : EventBus.made final < 2 ^ 64) :
    (EventBus.issues {} final).Pairwise (· < ·) ∧
      (∀ now, now <+: final → EventBus.Mirrors now) ∧
      (∀ p ∈ published,
        p.before <+: p.after ∧ p.after <+: final ∧
          p.TellsTheLive) ∧
      published.Pairwise fun p q =>
        p.before <+: q.before ∧
          (p.after <+: q.before ∨ q.after <+: p.after) := by
  have hMirrors :
      ∀ {now}, now <+: final → EventBus.Mirrors now := by
    intro now hNow
    have hFewer := EventBus.made_le_of_prefix hNow
    exact EventBus.mirrors (Nat.lt_of_le_of_lt hFewer hFew)
  refine
    ⟨EventBus.pairwise_issues hFew, fun _ => hMirrors, ?_,
      hRun.nested⟩
  intro p hMem
  rcases hRun.spans p hMem with ⟨-, hDuring, hAfter⟩
  have hBefore := hMirrors (hDuring.trans hAfter)
  refine
    ⟨hDuring, hAfter,
      (EventBus.after p.before).subscriptions.filter
        (·.accepts p.event.stage), ?_, ?_,
      hRun.delivered p hMem⟩
  · intro s
    rw [List.mem_filter, hBefore.members]
    apply and_congr_right
    intro hLive
    rw [Subscription.accepts]
    cases s.stage? <;> simp
  · apply List.Pairwise.sublist _ hBefore.ordered
    exact List.filter_sublist.map _

end BusRun

------------------------------------------------------------
-- Sessions
------------------------------------------------------------

/- Several changes in a row begin a run. -/
theorem BusRun.changes
    {log final : List (BusChange K.Listener)}
    {published : List (Publication T K)}
    (cs : List (BusChange K.Listener))
    (h : BusRun (log ++ cs) final published) :
    BusRun log final published := by
  induction cs generalizing log with
  | nil => rwa [List.append_nil] at h
  | cons c rest ih =>
      refine .change c (ih ?_)
      rwa [List.append_assoc]

namespace Session

variable {α : Type}

/- A script changes the bus by its calls only. -/
theorem bus_follow
    (s : Session T)
    (script : ListenerScript) :
    ∃ cs : List (BusChange SessionListener),
      (s.follow script).bus = cs.foldl EventBus.change s.bus := by
  rcases script with ⟨adds, drops?, ending⟩
  cases adds with
  | false =>
      cases drops? with
      | none => exact ⟨[], rfl⟩
      | some id => exact ⟨[.unsubscribe id], rfl⟩
  | true =>
      cases drops? with
      | none =>
          exact ⟨[.subscribe none ⟨s.bus.nextId, {}⟩], rfl⟩
      | some id =>
          exact
            ⟨[.subscribe none ⟨s.bus.nextId, {}⟩,
              .unsubscribe id], rfl⟩

/- Whatever a session answers, it changes the bus by calls only. -/
theorem bus_answer
    (s : Session T)
    (c : Call T (scriptedHooks T)) :
    ∃ cs : List (BusChange SessionListener),
      (answer c s).2.bus = cs.foldl EventBus.change s.bus := by
  cases c with
  | notify listener event =>
      exact bus_follow (s.record (.notified listener.id event)) _
  | _ => exact ⟨[], rfl⟩

/- So does a whole conversation. -/
theorem bus_run
    (s : Session T)
    (x : Conversation T (scriptedHooks T) α) :
    ∃ cs : List (BusChange SessionListener),
      (x.run answer s).2.bus = cs.foldl EventBus.change s.bus := by
  induction x generalizing s with
  | done value => exact ⟨[], rfl⟩
  | ask c next ih =>
      rcases bus_answer s c with ⟨first, hFirst⟩
      rcases ih (answer c s).1 (answer c s).2 with ⟨rest, hRest⟩
      refine ⟨first ++ rest, ?_⟩
      rw [List.foldl_append, ← hFirst, ← hRest]
      rfl

/- A session that publishes an event goes through a run. -/
theorem busRun_publish
    {s : Session T}
    {log : List (BusChange SessionListener)}
    (hBus : s.bus = EventBus.after log)
    (event : Event T) :
    ∃ told between,
      (converse (publish event) s).2.bus =
          EventBus.after between ∧
        BusRun (K := scriptedHooks T) log between
          [⟨log, event, told, between,
            (converse (publish event) s).1⟩] := by
  have hEnds := ends_converse s (publish event)
  rcases ends_publish hEnds with ⟨targets, told, hTold, -⟩
  have hTargets :
      targets = (EventBus.after log).targets event.stage := by
    rw [← hBus]
    cases (List.cons.inj hTold).1
    rfl
  rcases bus_run s (publish event).run with ⟨cs, hAfter⟩
  rw [hBus] at hAfter
  refine ⟨told, log ++ cs, ?_, ?_⟩
  · rw [EventBus.after, List.foldl_append]
    exact hAfter
  · rw [hTold, hTargets] at hEnds
    refine .publish hEnds (.changes cs .done) .done

end Session

/- What listener 3 has to say about every event. -/
def Sample.objection : Error where
  code := .invalidArgument
  message := Text.lit "veto"

/-
  Four listeners subscribe, and the second one leaves. Of the
  others the first brings another listener along whenever it
  is told of something, and the next one objects.
-/
def Sample.gathering : List (BusChange SessionListener) :=
  [.subscribe none ⟨1, { addsListener := true }⟩,
    .subscribe (some .afterSave) ⟨2, {}⟩,
    .subscribe none ⟨3, { ending := .fails objection }⟩,
    .subscribe (some .beforeConvert) ⟨4, {}⟩,
    .unsubscribe 2]

/- The same, after an event that brought in a fifth listener. -/
def Sample.joined : List (BusChange SessionListener) :=
  gathering ++ [.subscribe none ⟨5, {}⟩]

/- Those who are left are told of Ann, up to the one who objects. -/
def Sample.objected :
    Publication EntityType (scriptedHooks EntityType) where
  before := gathering
  event := ⟨.beforeConvert, .person, ann, none, []⟩
  told :=
    [(⟨1, { addsListener := true }⟩, .ok ()),
      (⟨3, { ending := .fails objection }⟩, .failed objection)]
  after := joined
  outcome := .error objection

namespace BusRun

/- The gathering is told of Ann, as it is in a session. -/
theorem run_gathering :
    BusRun [] Sample.joined [Sample.objected] := by
  have hTold :
      Step.Ends (K := scriptedHooks Sample.EntityType)
        (DocumentMapper.publish Sample.objected.event)
        (⟨.listeners .beforeConvert,
            (EventBus.after Sample.gathering).targets
              .beforeConvert⟩ ::
          tellings Sample.objected.event Sample.objected.told)
        (.error Sample.objection) :=
    Session.ends_converse
      { Sample.scene with bus := EventBus.after Sample.gathering }
      (DocumentMapper.publish Sample.objected.event)
  have hJoins :
      BusRun (K := scriptedHooks Sample.EntityType)
        Sample.gathering Sample.joined [] :=
    .change (.subscribe none ⟨5, {}⟩) .done
  have hRun := publish hTold hJoins .done
  exact .changes Sample.gathering hRun

/-
  The fourth listener is live and not told, the second one is
  not live any more, and the fifth one only afterwards.
-/
theorem tells_the_live_of_gathering :
    (BusRun [] Sample.joined [Sample.objected] ∧
        EventBus.made Sample.joined < 2 ^ 64) ∧
      EventBus.issues {} Sample.joined = [1, 2, 3, 4, 5] ∧
      EventBus.Live Sample.gathering
        ⟨4, some .beforeConvert, ⟨4, {}⟩⟩ ∧
      (¬ ∃ s, EventBus.Live Sample.gathering s ∧ s.id = 2) ∧
      (¬ ∃ s, EventBus.Live Sample.gathering s ∧ s.id = 5) ∧
      {s | EventBus.Live Sample.gathering s}.ncard = 3 ∧
      EventBus.Live Sample.joined ⟨5, none, ⟨5, {}⟩⟩ ∧
      {s | EventBus.Live Sample.joined s}.ncard = 4 := by
  have hFew : EventBus.made Sample.joined < 2 ^ 64 := by decide
  rcases tells_the_live run_gathering hFew with
    ⟨-, hTimes, hPublished, -⟩
  rcases hPublished Sample.objected List.mem_cons_self with
    ⟨hDuring, hAfter, -⟩
  have hBefore := hTimes Sample.gathering (hDuring.trans hAfter)
  have hThen := hTimes Sample.joined hAfter
  refine
    ⟨⟨run_gathering, hFew⟩, by decide, ?_, ?_, ?_, ?_, ?_, ?_⟩
  · rw [← hBefore.members]
    exact .tail _ (.tail _ (.head _))
  · rw [← hBefore.dropped 2]
    decide
  · rw [← hBefore.dropped 5]
    decide
  · rw [← hBefore.counted]
    decide
  · rw [← hThen.members]
    exact .tail _ (.tail _ (.tail _ (.head _)))
  · rw [← hThen.counted]
    decide

end BusRun

end DocumentMapper
