import DocumentMapper.Proofs.Repository.Ending

/-
  What operations have settled when they hand over a request.

  Each kind of operation either fails before its request or
  gets as far as a plan. Whatever the world answers, the plan
  comes from the entity, the descriptor, the active attempt,
  the answer of the resolver and the registry as it was.

  Key definitions include:
    * `earlierIn`
    * `Repository.Target`
    * `Repository.Decision`, `Repository.WriteDispatch`
    * `Repository.FindRun`, `Repository.FindsAll`

  Main statements include:
    * `Repository.ends_decision`
    * `Repository.ends_write`, `Repository.ends_write_ok`
    * `Repository.ends_find`, `Repository.ends_find_of_resolved`
    * `Repository.ends_findAll_findsAll`, `Repository.ends_findAll`
    * `Repository.ends_isStored`
    * `Repository.ends_removeDocument`
    * `Repository.ends_remove`
-/

namespace DocumentMapper

variable {T : Type}
variable [EntityTypes T]
variable {K : Hooks T}

/- The transaction result under the positive key of an entity. -/
def earlierIn
    {S : Schema}
    (registry : ResultRegistry)
    (d : Descriptor S)
    (e : Entity S) : Option GetResult :=
  match d.keyOf e with
  | some key => if 0 < key then registry.find? key else none
  | none => none

namespace Repository

variable {repo : Repository T}
variable {scope : CallScope}
variable {before after : ResultRegistry}
variable {transcript : Transcript T K}
variable {t : T}

/- The result is looked up, and nothing else happens. -/
theorem ends_earlierResult
    {S : Schema}
    {descriptor : Descriptor S}
    {e : Entity S}
    {outcome : Except Failure (Option GetResult)}
    (h :
      (earlierResult descriptor e :
          Task T K (Option GetResult)).Ends
        before transcript outcome after) :
    transcript = [] ∧
      outcome = .ok (earlierIn before descriptor e) ∧
      after = before := by
  unfold earlierResult at h
  unfold earlierIn
  cases hKey : descriptor.keyOf e with
  | none =>
      rw [hKey] at h
      exact Task.ends_pure_iff.mp h
  | some key =>
      rw [hKey] at h
      dsimp only at h ⊢
      split at h
      · rw [if_pos ‹_›]
        rcases Task.ends_bind_iff.mp h with
          ⟨failure, hRegistry, -⟩ |
            ⟨first, r, between, second, rfl, hRegistry, hRest⟩
        · rcases Task.ends_registry_iff.mp hRegistry with
            ⟨-, hOk, -⟩
          cases hOk
        · rcases Task.ends_registry_iff.mp hRegistry with
            ⟨rfl, hOk, rfl⟩
          cases hOk
          exact Task.ends_pure_iff.mp hRest
      · rw [if_neg ‹_›]
        exact Task.ends_pure_iff.mp h

theorem earlierResult_prepares
    {S : Schema}
    (descriptor : Descriptor S)
    (e : Entity S) :
    Task.Prepares
      (earlierResult descriptor e :
        Task T K (Option GetResult)) := by
  intro before transcript outcome after h
  rcases ends_earlierResult h with ⟨rfl, -, rfl⟩
  exact ⟨.nil, rfl⟩

------------------------------------------------------------
-- Targets
------------------------------------------------------------

/-
  Where a request goes to: the declared or given collection
  as the resolver knows it, and the active attempt.
-/
structure Target
    (repo : Repository T)
    (t : T)
    (scope : CallScope) where
  descriptor : Descriptor (EntityTypes.schema t)
  attempt? : Option Attempt
  resolved : CollectionName
  descriptor_eq : repo.mapping.descriptor t = .ok descriptor

namespace Target

/- The name that the resolver is asked for. -/
def name
    (target : Target repo t scope) : CollectionName :=
  chosenCollection repo.settings target.descriptor scope

/-
  The transcript settles the target: the resolver answered
  with its collection, its attempt is the active one, and no
  request has been handed over.
-/
structure SettledIn
    (target : Target repo t scope)
    (transcript : Transcript T K) : Prop where
  submissions_eq : submissions transcript = []
  resolutions_eq :
    resolutions transcript =
      [(target.name, .ok target.resolved)]
  active : repo.IsActive scope transcript target.attempt?

/- The order in which the two are asked for does not matter. -/
theorem settledIn_of_resolve_append
    {target : Target repo t scope}
    {asked : Transcript T K}
    (hNone : submissions asked = [])
    (hResolutions : resolutions asked = [])
    (hActive : repo.IsActive scope asked target.attempt?) :
    target.SettledIn
      (⟨.resolve target.name, .ok target.resolved⟩ :: asked) :=
  ⟨hNone, congrArg (_ :: ·) hResolutions, hActive⟩

/- After the collection nothing but hooks may follow. -/
theorem settledIn_append_resolve
    {target : Target repo t scope}
    {asked hooks : Transcript T K}
    (hNone : submissions asked = [])
    (hResolutions : resolutions asked = [])
    (hActive : repo.IsActive scope asked target.attempt?)
    (hHooks : OnlyHooks hooks) :
    target.SettledIn
      (asked ++
        ⟨.resolve target.name, .ok target.resolved⟩ ::
          hooks) where
  submissions_eq := by
    rw [submissions_append, hNone]
    exact hHooks.submissions_eq_nil
  resolutions_eq := by
    rw [resolutions_append, hResolutions]
    exact congrArg (_ :: ·) hHooks.resolutions_eq_nil
  active := by
    apply hActive.of_eq
    rw [providedAttempts_append]
    have hRest :
        providedAttempts
            ((⟨.resolve target.name, .ok target.resolved⟩ :
              Exchange Call.Answer) :: hooks) = [] :=
      hHooks.providedAttempts_eq_nil
    rw [hRest, List.append_nil]

end Target

------------------------------------------------------------
-- Writes
------------------------------------------------------------

/- A write inserts, upserts or replaces. -/
theorem requestKind_isWrite
    {intent : WriteIntent}
    {token : UInt64}
    {inAttempt : Bool}
    {id collection : Text}
    {kind : RequestKind}
    (h :
      requestKind intent token inAttempt id collection =
        .ok kind) :
    kind = .insert ∨ kind = .upsert ∨ kind = .replace := by
  unfold requestKind at h
  cases intent with
  | save =>
      dsimp only at h
      split at h
      · cases h
        exact .inr (.inr rfl)
      · split at h <;> cases h
        · exact .inl rfl
        · exact .inr (.inl rfl)
  | insert =>
      cases h
      exact .inl rfl
  | replace =>
      cases h
      exact .inr (.inr rfl)
  | upsert =>
      dsimp only at h
      split at h <;> cases h
      exact .inr (.inl rfl)

/- An upsert is refused inside an attempt, and nothing else is. -/
theorem requestKind_error_iff
    {intent : WriteIntent}
    {token : UInt64}
    {inAttempt : Bool}
    {id collection : Text}
    {cause : Error} :
    requestKind intent token inAttempt id collection =
        .error cause ↔
      intent = .upsert ∧ inAttempt = true ∧
        cause =
          upsertInAttempt.withContext RequestKind.upsert.name id
            collection := by
  cases intent with
  | save =>
      simp only [requestKind]
      split
      · simp
      · split <;> simp
  | insert => simp [requestKind]
  | replace => simp [requestKind]
  | upsert =>
      by_cases hInside : inAttempt = true
      · simp [requestKind, hInside, eq_comm]
      · simp [requestKind, hInside]

/-
  How a task ends that looks up the type and the token of an
  entity, asks for the attempt and decides on the kind of a
  write, before it does the rest. The rest is reached only if
  all of that succeeds.
-/
inductive Decision
    {α : Type}
    (repo : Repository T)
    (intent : WriteIntent)
    (e : EntityOf t)
    (scope : CallScope)
    (rest :
      Descriptor (EntityTypes.schema t) →
        UInt64 → Option Attempt → RequestKind → Task T K α)
    (before : ResultRegistry) :
    Transcript T K →
      Except Failure α → ResultRegistry → Prop where
  | unregistered
      {cause : Error}
      (hDescriptor : repo.mapping.descriptor t = .error cause) :
      Decision repo intent e scope rest before
        [] (.error (.error cause)) before
  | unreadable
      {d : Descriptor (EntityTypes.schema t)}
      {what : Text}
      (hDescriptor : repo.mapping.descriptor t = .ok d)
      (hToken : repo.mapping.tokenOf e = .error what) :
      Decision repo intent e scope rest before
        [] (.error (.thrown what)) before
  | refused
      {d : Descriptor (EntityTypes.schema t)}
      {token : UInt64}
      {attempt? : Option Attempt}
      {asked : Transcript T K}
      {cause : Error}
      (hDescriptor : repo.mapping.descriptor t = .ok d)
      (hToken : repo.mapping.tokenOf e = .ok token)
      (hProvider : OnlyProvider asked)
      (hActive : repo.IsActive scope asked attempt?)
      (hKind :
        requestKind intent token attempt?.isSome
            ((repo.mapping.idOf e).getD [])
            (chosenCollection repo.settings d scope).qualified =
          .error cause) :
      Decision repo intent e scope rest before
        asked (.error (.error cause)) before
  | decided
      {d : Descriptor (EntityTypes.schema t)}
      {token : UInt64}
      {attempt? : Option Attempt}
      {asked later : Transcript T K}
      {kind : RequestKind}
      {outcome : Except Failure α}
      {after : ResultRegistry}
      (hDescriptor : repo.mapping.descriptor t = .ok d)
      (hToken : repo.mapping.tokenOf e = .ok token)
      (hProvider : OnlyProvider asked)
      (hActive : repo.IsActive scope asked attempt?)
      (hKind :
        requestKind intent token attempt?.isSome
            ((repo.mapping.idOf e).getD [])
            (chosenCollection repo.settings d scope).qualified =
          .ok kind)
      (hRest :
        (rest d token attempt? kind).Ends
          before later outcome after) :
      Decision repo intent e scope rest before
        (asked ++ later) outcome after

/- A task that begins with the decision ends by it. -/
theorem ends_decision
    {α : Type}
    {intent : WriteIntent}
    {e : EntityOf t}
    {rest :
      Descriptor (EntityTypes.schema t) →
        UInt64 → Option Attempt → RequestKind → Task T K α}
    {outcome : Except Failure α}
    (h :
      (do
        let d ← Task.ofResult (repo.mapping.descriptor t)
        let token ← Task.ofAccessor (repo.mapping.tokenOf e)
        let attempt? ← repo.activeAttempt scope
        let kind ← Task.ofResult
          (requestKind intent token attempt?.isSome
            ((repo.mapping.idOf e).getD [])
            (chosenCollection repo.settings d scope).qualified)
        rest d token attempt? kind : Task T K α).Ends
        before transcript outcome after) :
    Decision repo intent e scope rest
      before transcript outcome after := by
  rcases Task.ends_ofResult_bind_iff.mp h with
    ⟨cause, hDescriptor, rfl, rfl, rfl⟩ | ⟨d, hDescriptor, h₁⟩
  · exact .unregistered hDescriptor
  rcases Task.ends_ofAccessor_bind_iff.mp h₁ with
    ⟨what, hToken, rfl, rfl, rfl⟩ | ⟨token, hToken, h₂⟩
  · exact .unreadable hDescriptor hToken
  rcases Task.ends_bind_iff.mp h₂ with
    ⟨_, hAttempt, -⟩ |
      ⟨asked, attempt?, _, rest, rfl, hAttempt, h₃⟩
  · rcases ends_activeAttempt hAttempt with ⟨-, -, -, _, hOk, -⟩
    cases hOk
  have hProvider := activeAttempt_onlyProvider hAttempt
  rcases ends_activeAttempt hAttempt with
    ⟨-, -, rfl, _, hSame, hActive⟩
  cases hSame
  rcases Task.ends_ofResult_bind_iff.mp h₃ with
    ⟨cause, hKind, rfl, rfl, rfl⟩ | ⟨kind, hKind, hRest⟩
  · rw [List.append_nil]
    exact .refused hDescriptor hToken hProvider hActive hKind
  · exact
      .decided hDescriptor hToken hProvider hActive hKind hRest

/- Nothing is handed over or kept before the plan is made. -/
theorem planWrite_prepares
    (repo : Repository T)
    (intent : WriteIntent)
    (e : EntityOf t)
    (scope : CallScope) :
    Task.Prepares (K := K) (repo.planWrite intent e scope) := by
  unfold planWrite
  apply Task.Prepares.bind (.ofResult _)
  intro descriptor
  apply Task.Prepares.bind (.ofAccessor _)
  intro token
  apply Task.Prepares.bind (activeAttempt_prepares _ _)
  intro attempt?
  apply Task.Prepares.bind (.ofResult _)
  intro kind
  cases repo.mapping.idOf e with
  | none => exact .fail _
  | some id =>
      apply Task.Prepares.bind (resolve_prepares _ _ _ _)
      intro resolved
      refine
        .bind
          (.inContext (.ofStep (Codec.encode_prepares _ _ _))
            _ _ _)
          fun document => ?_
      refine
        .bind (.inContext (.ofResult _) _ _ _) fun payload => ?_
      refine
        .bind (.ite (earlierResult_prepares _ _) (.pure _))
          fun earlier? => ?_
      exact .pure _

/-
  A write that got as far as its plan: what it looked up, what
  it was answered, and the document it encoded meanwhile.
-/
structure WriteDispatch
    (K : Hooks T)
    (repo : Repository T)
    (intent : WriteIntent)
    (e : EntityOf t)
    (scope : CallScope) extends Target repo t scope where
  id : Text
  token : UInt64
  kind : RequestKind
  document : Document
  payload : Text
  asked : Transcript T K
  hooks : Transcript T K
  id_eq : repo.mapping.idOf e = some id
  token_eq : repo.mapping.tokenOf e = .ok token
  kind_eq :
    requestKind intent token attempt?.isSome id
        toTarget.name.qualified =
      .ok kind
  encodes :
    (repo.codec.encode e toTarget.name.collection).Ends
      hooks (.ok document)
  payload_eq : document.toPayload = .ok payload
  resolver : repo.wiring.resolver = true
  provider : OnlyProvider asked
  settled :
    toTarget.SettledIn
      (asked ++
        ⟨.resolve toTarget.name, .ok resolved⟩ :: hooks)

namespace WriteDispatch

variable {intent : WriteIntent}
variable {e : EntityOf t}

/- What was asked up to the request. -/
def opening
    (d : WriteDispatch K repo intent e scope) :
    Transcript T K :=
  d.asked ++
    ⟨.resolve d.toTarget.name, .ok d.resolved⟩ :: d.hooks

/- The plan, given the registry before the write. -/
def plan
    (d : WriteDispatch K repo intent e scope)
    (before : ResultRegistry) : WritePlan where
  request :=
    { kind := d.kind
      id := d.id
      payload? := some d.payload
      cas := if d.kind = .replace then d.token else 0
      collection := d.resolved
      expiry :=
        writeExpiry repo.settings scope d.document.expiry
      durability := scope.durability
      earlier? :=
        if d.attempt?.isSome && d.kind = .replace then
          earlierIn before d.descriptor e
        else
          none }
  attempt? := d.attempt?
  document := d.document
  collection := d.toTarget.name.collection

end WriteDispatch

/- Results are shown by a replacement inside an attempt only. -/
theorem ends_earlierShown
    {S : Schema}
    {descriptor : Descriptor S}
    {e : Entity S}
    {kind : RequestKind}
    {attempt? : Option Attempt}
    {earlier? : Option GetResult}
    (h :
      (earlierShown descriptor e kind attempt? :
          Task T K (Option GetResult)).Ends
        before transcript (.ok earlier?) after) :
    transcript = [] ∧
      earlier? =
        if attempt?.isSome && kind = .replace then
          earlierIn before descriptor e
        else
          none := by
  unfold earlierShown at h
  split at h
  · rcases ends_earlierResult h with ⟨rfl, hOk, -⟩
    cases hOk
    exact ⟨rfl, (if_pos ‹_›).symm⟩
  · rcases Task.ends_pure_iff.mp h with ⟨rfl, hOk, -⟩
    cases hOk
    exact ⟨rfl, (if_neg ‹_›).symm⟩

/- A plan is made of what was looked up and answered. -/
theorem ends_planWrite
    {intent : WriteIntent}
    {e : EntityOf t}
    {plan : WritePlan}
    (h :
      (repo.planWrite intent e scope).Ends
        before transcript (.ok plan) after) :
    ∃ d : WriteDispatch K repo intent e scope,
      transcript = d.opening ∧ plan = d.plan before := by
  unfold planWrite at h
  cases ends_decision h with
  | @decided descriptor token attempt? asked later kind _ _
      hDescriptor hToken hProvider hActive hKind h₁ =>
      cases hId : repo.mapping.idOf e with
      | none =>
          rw [hId] at h₁
          rcases Task.ends_fail_iff.mp h₁ with ⟨-, hError, -⟩
          cases hError
      | some id =>
          rw [hId] at h₁ hKind
          rcases (resolve_prepares _ _ _ _).quiet.ends_bind_ok h₁ with
            ⟨_, resolved, rest, rfl, -, hResolved, h₂⟩
          rcases ends_resolve_ok hResolved with ⟨hResolver, rfl⟩
          rcases Task.Quiet.ends_bind_ok
              (Task.Prepares.inContext
                (.ofStep (Codec.encode_prepares _ _ _)) _ _ _).quiet
              h₂ with
            ⟨hooks, document, rest, rfl, -, hDocument, h₃⟩
          rw [Task.ends_inContext_ok_iff,
            Task.ends_ofStep_ok_iff] at hDocument
          rcases Task.Quiet.ends_bind_ok
              (Task.Prepares.inContext (.ofResult _) _ _ _).quiet
              h₃ with
            ⟨_, payload, rest, rfl, -, hPayload, h₄⟩
          rw [Task.ends_inContext_ok_iff] at hPayload
          rcases Task.ends_ofResult_ok_iff.mp hPayload with
            ⟨rfl, hPayload, -⟩
          rcases Task.Quiet.ends_bind_ok
              (Task.Prepares.ite (earlierResult_prepares _ _)
                (.pure _)).quiet h₄ with
            ⟨_, earlier?, rest, rfl, -, hEarlier, h₅⟩
          rcases Task.ends_pure_iff.mp h₅ with ⟨rfl, hPlan, -⟩
          rcases ends_earlierShown hEarlier with ⟨rfl, rfl⟩
          cases hPlan
          let target : Target repo t scope :=
            ⟨descriptor, attempt?, resolved, hDescriptor⟩
          have hHooks :=
            Codec.encode_hooked _ _ _ _ _ hDocument.1
          have hSettled :=
            target.settledIn_append_resolve
              hProvider.submissions_eq hProvider.resolutions_eq
              hActive hHooks
          exact
            ⟨{ target with
               id, token, kind, document, payload, asked, hooks
               id_eq := hId
               token_eq := hToken
               kind_eq := hKind
               encodes := hDocument.1
               payload_eq := hPayload
               resolver := hResolver
               provider := hProvider
               settled := hSettled },
              by simp [WriteDispatch.opening, Target.name, target],
              rfl⟩

/-
  A write fails before its request, or hands it over once and
  ends with what came of it.
-/
theorem ends_write
    {intent : WriteIntent}
    {e : EntityOf t}
    {outcome : Except Failure (EntityOf t)}
    (h :
      (repo.write intent e scope).Ends
        before transcript outcome after) :
    Task.FailsQuietly before transcript outcome after ∨
      ∃ (d : WriteDispatch K repo intent e scope)
        (submission closing : Transcript T K)
        (result : Result StoreRecord),
        transcript = d.opening ++ submission ++ closing ∧
          Submission repo (d.plan before).request d.attempt?
            submission result ∧
          (Task.ofResult result >>=
              repo.finishWrite e (d.plan before)).Ends
            before closing outcome after := by
  rw [write_eq] at h
  rcases (planWrite_prepares _ _ _ _).quiet.ends_bind h with
    hFails | ⟨opening, plan, rest, rfl, -, hPlan, hRest⟩
  · exact .inl hFails
  · rcases ends_planWrite hPlan with ⟨d, rfl, rfl⟩
    rcases ends_submit_bind hRest with
      ⟨submission, closing, result, rfl, hSubmission, hClosing⟩
    exact
      .inr ⟨d, submission, closing, result, by simp,
        hSubmission, hClosing⟩

/- A write that succeeds ends with the record of its request. -/
theorem ends_write_ok
    {intent : WriteIntent}
    {e saved : EntityOf t}
    (h :
      (repo.write intent e scope).Ends
        before transcript (.ok saved) after) :
    ∃ (d : WriteDispatch K repo intent e scope)
      (submission closing : Transcript T K)
      (record : StoreRecord),
      transcript = d.opening ++ submission ++ closing ∧
        Submission repo (d.plan before).request d.attempt?
          submission (.ok record) ∧
        (repo.finishWrite e (d.plan before) record).Ends
          before closing (.ok saved) after := by
  rcases ends_write h with
    ⟨-, -, failure, hError⟩ | ⟨d, submission, closing, result,
      rfl, hSubmission, hClosing⟩
  · cases hError
  · cases result with
    | error cause =>
        rcases Task.ends_fail_iff.mp hClosing with ⟨-, hError, -⟩
        cases hError
    | ok record =>
        exact
          ⟨d, submission, closing, record, rfl, hSubmission,
            hClosing⟩

------------------------------------------------------------
-- Reads
------------------------------------------------------------

theorem reach_prepares
    (repo : Repository T)
    (t : T)
    (kind : RequestKind)
    (id : Text)
    (scope : CallScope) :
    Task.Prepares (K := K) (repo.reach t kind id scope) := by
  unfold reach
  apply Task.Prepares.bind (.ofResult _)
  intro descriptor
  apply Task.Prepares.bind (activeAttempt_prepares _ _)
  intro attempt?
  apply Task.Prepares.bind (resolve_prepares _ _ _ _)
  intro resolved
  exact .pure _

/- A read settles its target. -/
theorem ends_reach
    {kind : RequestKind}
    {id : Text}
    {reached : Option Attempt × CollectionName}
    (h :
      (repo.reach t kind id scope).Ends
        before transcript (.ok reached) after) :
    ∃ target : Target repo t scope,
      target.SettledIn transcript ∧
        reached = (target.attempt?, target.resolved) := by
  unfold reach at h
  rcases Task.ends_ofResult_bind_ok_iff.mp h with
    ⟨descriptor, hDescriptor, h₁⟩
  rcases (activeAttempt_prepares _ _).quiet.ends_bind_ok h₁ with
    ⟨asked, attempt?, _, rfl, hAsked, hAttempt, h₂⟩
  rcases ends_activeAttempt hAttempt with
    ⟨-, hResolutions, -, _, hSame, hActive⟩
  cases hSame
  rcases (resolve_prepares _ _ _ _).quiet.ends_bind_ok h₂ with
    ⟨_, resolved, _, rfl, -, hResolved, h₃⟩
  rcases ends_resolve_ok hResolved with ⟨-, rfl⟩
  rcases Task.ends_pure_iff.mp h₃ with ⟨rfl, hReached, -⟩
  cases hReached
  let target : Target repo t scope :=
    ⟨descriptor, attempt?, resolved, hDescriptor⟩
  exact
    ⟨target,
      target.settledIn_append_resolve hAsked hResolutions
        hActive .nil,
      rfl⟩

/- Where the name is resolved, a read reaches its target. -/
theorem reach_isOk
    {d : Descriptor (EntityTypes.schema t)}
    {kind : RequestKind}
    {id : Text}
    {outcome : Except Failure (Option Attempt × CollectionName)}
    (hDescriptor : repo.mapping.descriptor t = .ok d)
    (hResolver : repo.wiring.resolver = true)
    (hResolved :
      ∀ reply,
        (chosenCollection repo.settings d scope, reply) ∈
            resolutions transcript →
          ∃ resolved, reply = .ok resolved)
    (h :
      (repo.reach t kind id scope).Ends
        before transcript outcome after) :
    ∃ reached, outcome = .ok reached := by
  unfold reach at h
  rw [hDescriptor] at h
  rcases Task.ends_ofResult_bind_iff.mp h with
    ⟨e, hError, -⟩ | ⟨_, hOk, h₁⟩
  · cases hError
  · cases hOk
    rcases Task.ends_bind_iff.mp h₁ with
      ⟨failure, hAttempt, -⟩ |
        ⟨asked, attempt?, _, rest, rfl, hAttempt, h₂⟩
    · rcases ends_activeAttempt hAttempt with ⟨-, -, -, _, hOk, -⟩
      cases hOk
    · rcases Task.ends_bind_iff.mp h₂ with
        ⟨failure, hResolve, -⟩ |
          ⟨_, resolved, _, _, rfl, -, h₃⟩
      · rcases ends_resolve hResolver hResolve with
          ⟨reply, rfl, hReply⟩
        obtain ⟨resolved, hOk⟩ :=
          hResolved reply
            (List.mem_filterMap.mpr
              ⟨⟨.resolve _, reply⟩, by simp, rfl⟩)
        cases (hReply resolved).mpr hOk
      · exact ⟨_, (Task.ends_pure_iff.mp h₃).2.1⟩

/- The plan of finding in a target. -/
def Target.findPlan
    (target : Target repo t scope)
    (id : Text)
    (options : ReadOptions) : Plan where
  request :=
    { kind := .get
      id
      collection := target.resolved
      find := options }
  attempt? := target.attempt?

theorem planFind_prepares
    (repo : Repository T)
    (t : T)
    (id : Text)
    (options : ReadOptions)
    (scope : CallScope) :
    Task.Prepares (K := K) (repo.planFind t id options scope) :=
  .bind (reach_prepares _ _ _ _ _) fun _ => .pure _

/- The plan of finding is the one of its target. -/
theorem ends_planFind
    {id : Text}
    {options : ReadOptions}
    {plan : Plan}
    (h :
      (repo.planFind t id options scope).Ends
        before transcript (.ok plan) after) :
    ∃ target : Target repo t scope,
      target.SettledIn transcript ∧
        plan = target.findPlan id options := by
  rcases (reach_prepares _ _ _ _ _).quiet.ends_bind_ok h with
    ⟨opening, reached, _, rfl, -, hReach, hPure⟩
  rcases ends_reach hReach with ⟨target, hSettled, rfl⟩
  rcases Task.ends_pure_iff.mp hPure with ⟨rfl, hPlan, -⟩
  cases hPlan
  rw [List.append_nil]
  exact ⟨target, hSettled, rfl⟩

/- Finding fails before its request, or hands over one get. -/
theorem ends_find
    {id : Text}
    {options : ReadOptions}
    {outcome : Except Failure (Option (EntityOf t))}
    (h :
      (repo.find t id options scope).Ends
        before transcript outcome after) :
    Task.FailsQuietly before transcript outcome after ∨
      ∃ (target : Target repo t scope)
        (opening submission closing : Transcript T K)
        (answer : Result StoreRecord),
        transcript = opening ++ submission ++ closing ∧
          target.SettledIn opening ∧
          Submission repo (target.findPlan id options).request
            target.attempt? submission answer ∧
          (repo.finishFind t (target.findPlan id options)
              answer).Ends
            before closing outcome after := by
  rw [find_eq] at h
  rcases (planFind_prepares _ _ _ _ _).quiet.ends_bind h with
    hFails | ⟨opening, plan, rest, rfl, -, hPlan, hRest⟩
  · exact .inl hFails
  · rcases ends_planFind hPlan with ⟨target, hSettled, rfl⟩
    rcases ends_answer_bind hRest with
      ⟨submission, closing, answer, rfl, hSubmission, hClosing⟩
    exact
      .inr ⟨target, opening, submission, closing, answer,
        by simp, hSettled, hSubmission, hClosing⟩

/- Where the name is resolved, finding hands over one get. -/
theorem ends_find_of_resolved
    {d : Descriptor (EntityTypes.schema t)}
    {id : Text}
    {options : ReadOptions}
    {outcome : Except Failure (Option (EntityOf t))}
    (hDescriptor : repo.mapping.descriptor t = .ok d)
    (hResolver : repo.wiring.resolver = true)
    (hResolved :
      ∀ reply,
        (chosenCollection repo.settings d scope, reply) ∈
            resolutions transcript →
          ∃ resolved, reply = .ok resolved)
    (h :
      (repo.find t id options scope).Ends
        before transcript outcome after) :
    ∃ (target : Target repo t scope)
      (opening submission closing : Transcript T K)
      (answer : Result StoreRecord),
      transcript = opening ++ submission ++ closing ∧
        target.SettledIn opening ∧
        Submission repo (target.findPlan id options).request
          target.attempt? submission answer ∧
        (repo.finishFind t (target.findPlan id options)
            answer).Ends
          before closing outcome after := by
  rw [find_eq] at h
  rcases Task.ends_bind_iff.mp h with
    ⟨failure, hPlan, -⟩ |
      ⟨opening, plan, _, rest, rfl, hPlan, hRest⟩
  · rcases Task.ends_bind_iff.mp hPlan with
      ⟨failure, hReach, -⟩ |
        ⟨_, reached, _, _, rfl, hReach, hPure⟩
    · rcases reach_isOk hDescriptor hResolver hResolved hReach with
        ⟨reached, hOk⟩
      cases hOk
    · rcases Task.ends_pure_iff.mp hPure with ⟨-, hOk, -⟩
      cases hOk
  · rcases planFind_prepares _ _ _ _ _ _ _ _ _ hPlan with ⟨-, rfl⟩
    rcases ends_planFind hPlan with ⟨target, hSettled, rfl⟩
    rcases ends_answer_bind hRest with
      ⟨submission, closing, answer, rfl, hSubmission, hClosing⟩
    exact
      ⟨target, opening, submission, closing, answer, by simp,
        hSettled, hSubmission, hClosing⟩

/- A run of finding. -/
structure FindRun
    (K : Hooks T)
    (repo : Repository T)
    (t : T)
    (options : ReadOptions)
    (scope : CallScope) where
  id : Text
  before : ResultRegistry
  transcript : Transcript T K
  outcome : Except Failure (Option (EntityOf t))
  after : ResultRegistry
  ends :
    (repo.find t id options scope).Ends
      before transcript outcome after

/- A list is found as its first document and the others are. -/
theorem ends_findAll_cons
    {id : Text}
    {options : ReadOptions}
    {rest : List Text}
    {outcome : Except Failure (List (EntityOf t))}
    (h :
      (repo.findAll t options scope (id :: rest)).Ends
        before transcript outcome after) :
    (∃ failure,
        (repo.find t id options scope).Ends
          before transcript (.error failure) after ∧
          outcome = .error failure) ∨
      ∃ first found between second others,
        transcript = first ++ second ∧
          (repo.find t id options scope).Ends
            before first (.ok found) between ∧
          (repo.findAll t options scope rest).Ends
            between second others after ∧
          outcome = others.map (found.toList ++ ·) := by
  rcases Task.ends_bind_iff.mp h with
    ⟨failure, hFind, rfl⟩ |
      ⟨first, found, between, second, rfl, hFind, hRest⟩
  · exact .inl ⟨failure, hFind, rfl⟩
  · rcases Task.ends_bind_iff.mp hRest with
      ⟨failure, hOthers, rfl⟩ |
        ⟨_, others, _, _, rfl, hOthers, hPure⟩
    · exact
        .inr
          ⟨first, found, between, second, _, rfl, hFind,
            hOthers, rfl⟩
    · rcases Task.ends_pure_iff.mp hPure with ⟨rfl, rfl, rfl⟩
      rw [List.append_nil]
      exact
        .inr
          ⟨first, found, between, _, _, rfl, hFind, hOthers,
            rfl⟩

/- What a run has found, if it has found anything. -/
def FindRun.found
    {options : ReadOptions}
    (run : FindRun K repo t options scope) :
    List (EntityOf t) :=
  match run.outcome with
  | .ok found => found.toList
  | .error _ => []

/-
  The runs make up the finding of a list: each one is about
  the next document and begins with the registry that the one
  before it has left; one that fails is the last, and its
  failure is that of the whole.
-/
inductive FindsAll
    {options : ReadOptions} :
    ResultRegistry → List Text →
      List (FindRun K repo t options scope) →
        Except Failure (List (EntityOf t)) →
          ResultRegistry → Prop where
  | nil
      (registry : ResultRegistry) :
      FindsAll registry [] [] (.ok []) registry
  | failed
      (run : FindRun K repo t options scope)
      (rest : List Text)
      {failure : Failure}
      (hFailed : run.outcome = .error failure) :
      FindsAll run.before (run.id :: rest) [run]
        (.error failure) run.after
  | found
      (run : FindRun K repo t options scope)
      {found : Option (EntityOf t)}
      {rest : List Text}
      {runs : List (FindRun K repo t options scope)}
      {outcome : Except Failure (List (EntityOf t))}
      {after : ResultRegistry}
      (hFound : run.outcome = .ok found)
      (hRest : FindsAll run.after rest runs outcome after) :
      FindsAll run.before (run.id :: rest) (run :: runs)
        (outcome.map (found.toList ++ ·)) after

/- Finding a list is finding one after the other. -/
theorem ends_findAll_findsAll
    {options : ReadOptions}
    {ids : List Text}
    {outcome : Except Failure (List (EntityOf t))}
    (h :
      (repo.findAll t options scope ids).Ends
        before transcript outcome after) :
    ∃ runs : List (FindRun K repo t options scope),
      transcript = (runs.map (·.transcript)).flatten ∧
        FindsAll before ids runs outcome after := by
  induction ids generalizing before transcript outcome after with
  | nil =>
      rcases Task.ends_pure_iff.mp h with ⟨rfl, rfl, rfl⟩
      exact ⟨[], rfl, .nil after⟩
  | cons id rest ih =>
      rcases ends_findAll_cons h with
        ⟨failure, hFind, rfl⟩ |
          ⟨first, found, between, second, others, rfl, hFind,
            hOthers, rfl⟩
      · let run : FindRun K repo t options scope :=
          ⟨id, before, transcript, _, after, hFind⟩
        exact ⟨[run], by simp [run], .failed run rest rfl⟩
      · rcases ih hOthers with ⟨runs, rfl, hRuns⟩
        let run : FindRun K repo t options scope :=
          ⟨id, before, first, _, between, hFind⟩
        exact ⟨run :: runs, rfl, .found run rfl hRuns⟩

namespace FindsAll

variable {options : ReadOptions}
variable {ids : List Text}
variable {runs : List (FindRun K repo t options scope)}
variable {outcome : Except Failure (List (EntityOf t))}

/- The runs are about the first documents of the list. -/
theorem ids_prefix
    (h : FindsAll before ids runs outcome after) :
    runs.map (·.id) <+: ids := by
  induction h with
  | nil registry => exact List.prefix_refl _
  | failed run rest hFailed =>
      exact List.prefix_append [run.id] rest
  | found run hFound hRest ih =>
      exact List.cons_prefix_cons.mpr ⟨rfl, ih⟩

/- There is a run where there is something to find. -/
theorem runs_ne_nil
    (h : FindsAll before ids runs outcome after)
    (hIds : ids ≠ []) :
    runs ≠ [] := by
  cases h with
  | nil registry => exact absurd rfl hIds
  | failed run rest hFailed => exact List.cons_ne_nil _ _
  | found run hFound hRest => exact List.cons_ne_nil _ _

/-
  With entities in the end there was a run for every document,
  and the entities are what the runs have found.
-/
theorem of_ok
    {entities : List (EntityOf t)}
    (h : FindsAll before ids runs (.ok entities) after) :
    runs.map (·.id) = ids ∧
      entities = runs.flatMap (·.found) := by
  generalize hOutcome : Except.ok entities = outcome at h
  induction h generalizing entities with
  | nil registry =>
      cases hOutcome
      exact ⟨rfl, rfl⟩
  | failed run rest hFailed => cases hOutcome
  | @found run found rest runs outcome after hFound hRest ih =>
      cases outcome with
      | error failure => cases hOutcome
      | ok others =>
          cases hOutcome
          rcases ih rfl with ⟨hIds, hOthers⟩
          refine ⟨congrArg (run.id :: ·) hIds, ?_⟩
          rw [List.flatMap_cons, ← hOthers]
          simp only [FindRun.found, hFound]

/-
  A run that fails is the last one, and its failure is that of
  the whole.
-/
theorem of_failed
    {done rest : List (FindRun K repo t options scope)}
    {run : FindRun K repo t options scope}
    {failure : Failure}
    (h :
      FindsAll before ids (done ++ run :: rest) outcome after)
    (hFailed : run.outcome = .error failure) :
    rest = [] ∧ outcome = .error failure ∧
      after = run.after := by
  generalize hRuns : done ++ run :: rest = runs at h
  induction h generalizing done with
  | nil registry => simp at hRuns
  | failed last ids hLast =>
      rcases List.append_eq_singleton_iff.mp hRuns with
        ⟨rfl, hRun⟩ | ⟨-, hRun⟩
      · cases hRun
        cases hFailed.symm.trans hLast
        exact ⟨rfl, rfl, rfl⟩
      · cases hRun
  | found first hFound hRest ih =>
      cases done with
      | nil =>
          cases hRuns
          cases hFailed.symm.trans hFound
      | cons own done =>
          rcases List.cons_eq_cons.mp hRuns with ⟨-, hRuns⟩
          rcases ih hRuns with ⟨hLast, rfl, hAfter⟩
          exact ⟨hLast, rfl, hAfter⟩

/- With a failure in the end the last run has failed. -/
theorem of_error
    {failure : Failure}
    (h : FindsAll before ids runs (.error failure) after) :
    ∃ done run,
      runs = done ++ [run] ∧ run.outcome = .error failure ∧
        ∀ other ∈ done, ∃ found, other.outcome = .ok found := by
  generalize hOutcome : Except.error failure = outcome at h
  induction h with
  | nil registry => cases hOutcome
  | failed run rest hFailed =>
      cases hOutcome
      exact ⟨[], run, rfl, hFailed, nofun⟩
  | @found run found rest runs outcome after hFound hRest ih =>
      cases outcome with
      | ok others => cases hOutcome
      | error cause =>
          cases hOutcome
          rcases ih rfl with ⟨done, last, rfl, hLast, hDone⟩
          exact
            ⟨run :: done, last, rfl, hLast,
              List.forall_mem_cons.mpr ⟨⟨found, hFound⟩, hDone⟩⟩

end FindsAll

/-
  Finding a list is finding one after the other, up to the
  first failure, which is that of the whole.
-/
theorem ends_findAll_runs
    {options : ReadOptions}
    {ids : List Text}
    {outcome : Except Failure (List (EntityOf t))}
    (h :
      (repo.findAll t options scope ids).Ends
        before transcript outcome after) :
    ∃ runs : List (FindRun K repo t options scope),
      transcript = (runs.map (·.transcript)).flatten ∧
        runs.map (·.id) <+: ids ∧
        (ids ≠ [] → runs ≠ []) ∧
        (∀ found,
          outcome = .ok found →
            runs.map (·.id) = ids ∧
              ∀ e ∈ found,
                ∃ run ∈ runs, run.outcome = .ok (some e)) ∧
        ∀ done run rest failure,
          runs = done ++ run :: rest →
            run.outcome = .error failure →
              rest = [] ∧ outcome = .error failure := by
  rcases ends_findAll_findsAll h with ⟨runs, rfl, hRuns⟩
  refine
    ⟨runs, rfl, hRuns.ids_prefix, hRuns.runs_ne_nil, ?_, ?_⟩
  · intro found hOk
    subst hOk
    rcases hRuns.of_ok with ⟨hIds, rfl⟩
    refine ⟨hIds, ?_⟩
    intro e hMem
    rcases List.mem_flatMap.mp hMem with ⟨run, hRun, hFound⟩
    refine ⟨run, hRun, ?_⟩
    unfold FindRun.found at hFound
    split at hFound
    · rename_i found hOutcome
      rw [hOutcome, Option.mem_toList.mp hFound]
    · cases hFound
  · intro done run rest failure hSplit hFailed
    subst hSplit
    rcases hRuns.of_failed hFailed with ⟨hLast, hOutcome, -⟩
    exact ⟨hLast, hOutcome⟩

/- What is found in the end was found by one of the runs. -/
theorem ends_findAll
    {options : ReadOptions}
    {ids : List Text}
    {outcome : Except Failure (List (EntityOf t))}
    (h :
      (repo.findAll t options scope ids).Ends
        before transcript outcome after) :
    ∃ runs : List (FindRun K repo t options scope),
      transcript = (runs.map (·.transcript)).flatten ∧
        runs.map (·.id) <+: ids ∧
        ∀ found, outcome = .ok found →
          ∀ e ∈ found, ∃ run ∈ runs, run.outcome = .ok (some e) := by
  rcases ends_findAll_runs h with
    ⟨runs, hTranscript, hIds, -, hFound, -⟩
  exact
    ⟨runs, hTranscript, hIds, fun found hOk =>
      (hFound found hOk).2⟩

/- The plan of testing for a document in a target. -/
def Target.existsPlan
    (target : Target repo t scope)
    (id : Text) : Plan where
  request :=
    { kind := if target.attempt?.isSome then .get else .exists
      id
      collection := target.resolved }
  attempt? := target.attempt?

/- A test fails before its request, or hands over one request. -/
theorem ends_isStored
    {id : Text}
    {outcome : Except Failure Bool}
    (h :
      (repo.isStored t id scope).Ends
        before transcript outcome after) :
    Task.FailsQuietly before transcript outcome after ∨
      ∃ (target : Target repo t scope)
        (opening submission closing : Transcript T K)
        (answer : Result StoreRecord),
        transcript = opening ++ submission ++ closing ∧
          target.SettledIn opening ∧
          Submission repo (target.existsPlan id).request
            target.attempt? submission answer ∧
          (finishExists (target.existsPlan id) answer).Ends
            before closing outcome after := by
  rw [isStored_eq] at h
  have hPrepares :
      Task.Prepares (K := K) (repo.planExists t id scope) :=
    .bind (reach_prepares _ _ _ _ _) fun _ => .pure _
  rcases hPrepares.quiet.ends_bind h with
    hFails | ⟨opening, plan, rest, rfl, -, hPlan, hRest⟩
  · exact .inl hFails
  · rcases (reach_prepares _ _ _ _ _).quiet.ends_bind_ok hPlan with
      ⟨opening, reached, _, rfl, -, hReach, hPure⟩
    rcases ends_reach hReach with ⟨target, hSettled, rfl⟩
    rcases Task.ends_pure_iff.mp hPure with ⟨rfl, hSame, -⟩
    cases hSame
    rcases ends_answer_bind hRest with
      ⟨submission, closing, answer, rfl, hSubmission, hClosing⟩
    exact
      .inr ⟨target, opening, submission, closing, answer,
        by simp, hSettled, hSubmission, hClosing⟩

------------------------------------------------------------
-- Removals
------------------------------------------------------------

theorem planRemoval_prepares
    (repo : Repository T)
    (name : CollectionName)
    (id : Text)
    (cas : UInt64)
    (earlier? : Option GetResult)
    (scope : CallScope) :
    Task.Prepares (K := K)
      (repo.planRemoval name id cas earlier? scope) := by
  unfold planRemoval
  apply Task.Prepares.bind (resolve_prepares _ _ _ _)
  intro resolved
  apply Task.Prepares.bind (activeAttempt_prepares _ _)
  intro attempt?
  exact .pure _

/- The plan of a removal from a target. -/
def Target.removalPlan
    (target : Target repo t scope)
    (id : Text)
    (cas : UInt64)
    (earlier? : Option GetResult) : Plan where
  request :=
    { kind := .remove
      id, cas
      collection := target.resolved
      durability := scope.durability
      earlier? }
  attempt? := target.attempt?

/- A removal settles its target. -/
theorem ends_planRemoval
    {descriptor : Descriptor (EntityTypes.schema t)}
    {id : Text}
    {cas : UInt64}
    {earlier? : Option GetResult}
    {plan : Plan}
    (hDescriptor : repo.mapping.descriptor t = .ok descriptor)
    (h :
      (repo.planRemoval
          (chosenCollection repo.settings descriptor scope)
          id cas earlier? scope).Ends
        before transcript (.ok plan) after) :
    ∃ target : Target repo t scope,
      target.SettledIn transcript ∧
        plan = target.removalPlan id cas earlier? := by
  unfold planRemoval at h
  rcases (resolve_prepares _ _ _ _).quiet.ends_bind_ok h with
    ⟨_, resolved, _, rfl, -, hResolved, h₁⟩
  rcases ends_resolve_ok hResolved with ⟨-, rfl⟩
  rcases (activeAttempt_prepares _ _).quiet.ends_bind_ok h₁ with
    ⟨asked, attempt?, _, rfl, hAsked, hAttempt, h₂⟩
  rcases ends_activeAttempt hAttempt with
    ⟨-, hResolutions, -, _, hSame, hActive⟩
  cases hSame
  rcases Task.ends_pure_iff.mp h₂ with ⟨rfl, hPlan, -⟩
  cases hPlan
  let target : Target repo t scope :=
    ⟨descriptor, attempt?, resolved, hDescriptor⟩
  rw [List.append_nil]
  exact
    ⟨target,
      target.settledIn_of_resolve_append hAsked hResolutions
        hActive,
      rfl⟩

/-
  Removing a document fails before its request, or hands it
  over once and ends with the answer.
-/
theorem ends_removeDocument
    {id : Text}
    {cas : UInt64}
    {outcome : Except Failure StoreRecord}
    (h :
      (repo.removeDocument t id cas scope).Ends
        before transcript outcome after) :
    Task.FailsQuietly before transcript outcome after ∨
      ∃ (target : Target repo t scope)
        (opening submission : Transcript T K)
        (result : Result StoreRecord),
        transcript = opening ++ submission ∧
          target.SettledIn opening ∧
          Submission repo
            (target.removalPlan id cas none).request
            target.attempt? submission result ∧
          outcome = Failure.ofResult result ∧
          after = before := by
  rw [removeDocument_eq] at h
  have hPrepares :
      Task.Prepares (K := K)
        (repo.planRemoveDocument t id cas scope) :=
    .bind (.ofResult _) fun _ => planRemoval_prepares _ _ _ _ _ _
  rcases hPrepares.quiet.ends_bind h with
    hFails | ⟨opening, plan, rest, rfl, -, hPlan, hRest⟩
  · exact .inl hFails
  · unfold planRemoveDocument at hPlan
    rcases Task.ends_ofResult_bind_ok_iff.mp hPlan with
      ⟨descriptor, hDescriptor, h₁⟩
    rcases ends_planRemoval hDescriptor h₁ with
      ⟨target, hSettled, rfl⟩
    rcases ends_submit hRest with ⟨rfl, result, rfl, hSubmission⟩
    exact
      .inr ⟨target, _, rest, result, rfl, hSettled,
        hSubmission, rfl, rfl⟩

theorem planRemove_prepares
    (repo : Repository T)
    (e : EntityOf t)
    (scope : CallScope) :
    Task.Prepares (K := K) (repo.planRemove e scope) := by
  unfold planRemove
  apply Task.Prepares.bind (.ofResult _)
  intro descriptor
  cases repo.mapping.idOf e with
  | none => exact .fail _
  | some id =>
      apply Task.Prepares.bind (earlierResult_prepares _ _)
      intro earlier?
      apply Task.Prepares.bind (.ofAccessor _)
      intro cas
      exact planRemoval_prepares _ _ _ _ _ _

/- The plan of removing an entity is the one of its target. -/
theorem ends_planRemove
    {e : EntityOf t}
    {plan : Plan}
    (h :
      (repo.planRemove e scope).Ends
        before transcript (.ok plan) after) :
    ∃ (target : Target repo t scope) (id : Text)
      (token : UInt64),
      target.SettledIn transcript ∧
        repo.mapping.idOf e = some id ∧
        repo.mapping.tokenOf e = .ok token ∧
        plan =
          target.removalPlan id token
            (earlierIn before target.descriptor e) := by
  unfold planRemove at h
  rcases Task.ends_ofResult_bind_ok_iff.mp h with
    ⟨descriptor, hDescriptor, h₁⟩
  cases hId : repo.mapping.idOf e with
  | none =>
      rw [hId] at h₁
      rcases Task.ends_fail_iff.mp h₁ with ⟨-, hError, -⟩
      cases hError
  | some id =>
      rw [hId] at h₁
      rcases (earlierResult_prepares _ _).quiet.ends_bind_ok h₁ with
        ⟨_, earlier?, _, rfl, -, hEarlier, h₂⟩
      rcases ends_earlierResult hEarlier with ⟨rfl, hSame, -⟩
      cases hSame
      rcases Task.ends_ofAccessor_bind_ok_iff.mp h₂ with
        ⟨token, hToken, h₃⟩
      rcases ends_planRemoval hDescriptor h₃ with
        ⟨target, hSettled, rfl⟩
      have hDescriptors : target.descriptor = descriptor :=
        Except.ok.inj
          (target.descriptor_eq.symm.trans hDescriptor)
      rw [← hDescriptors]
      exact ⟨target, id, token, hSettled, rfl, hToken, rfl⟩

/-
  Removing an entity fails before its request, or hands it
  over once and ends with the answer.
-/
theorem ends_remove
    {e : EntityOf t}
    {outcome : Except Failure StoreRecord}
    (h :
      (repo.remove e scope).Ends
        before transcript outcome after) :
    Task.FailsQuietly before transcript outcome after ∨
      ∃ (target : Target repo t scope) (id : Text)
        (token : UInt64)
        (opening submission : Transcript T K)
        (result : Result StoreRecord),
        transcript = opening ++ submission ∧
          target.SettledIn opening ∧
          repo.mapping.idOf e = some id ∧
          repo.mapping.tokenOf e = .ok token ∧
          Submission repo
            (target.removalPlan id token
              (earlierIn before target.descriptor e)).request
            target.attempt? submission result ∧
          outcome = Failure.ofResult result ∧
          after = before := by
  rw [remove_eq] at h
  rcases (planRemove_prepares _ _ _).quiet.ends_bind h with
    hFails | ⟨opening, plan, rest, rfl, -, hPlan, hRest⟩
  · exact .inl hFails
  · rcases ends_planRemove hPlan with
      ⟨target, id, token, hSettled, hId, hToken, rfl⟩
    rcases ends_submit hRest with ⟨rfl, result, rfl, hSubmission⟩
    exact
      .inr ⟨target, id, token, _, rest, result, rfl, hSettled,
        hId, hToken, hSubmission, rfl, rfl⟩

end Repository

end DocumentMapper
