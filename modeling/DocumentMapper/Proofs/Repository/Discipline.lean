import DocumentMapper.Proofs.Codec.Encoding
import DocumentMapper.Proofs.Mapping
import DocumentMapper.Proofs.Repository.Dispatch
import DocumentMapper.Proofs.Session.Runs
import DocumentMapper.Sample.Scene

/-
  The discipline of requests.

  An operation on one document hands over at most one request,
  whatever the world answers. That request goes where the
  active attempt says, and each of its parts comes from one
  source only.

  Key definitions include:
    * `Operation.IsSingle`, `Operation.Concerns`
    * `Repository.KindFor`, `Repository.TokenFor`
    * `Repository.PayloadFor`, `Repository.ExpiryFor`
    * `Repository.WellFormed`
    * `Repository.Disciplined`

  Main statements include:
    * `Repository.write_disciplined`
    * `Repository.perform_disciplined`
    * `Repository.findAll_disciplined`
-/

namespace DocumentMapper

variable {T : Type}
variable [EntityTypes T]
variable {K : Hooks T}

------------------------------------------------------------
-- Operations on One Document
------------------------------------------------------------

namespace Operation

/- The operation is about one document. -/
def IsSingle : Operation T → Prop
  | .findAll _ _ _ => False
  | _ => True

/- The type of the entity that the operation is about. -/
def type : Operation T → T
  | .write _ t _ => t
  | .find t _ _ => t
  | .findAll t _ _ => t
  | .exists t _ => t
  | .removeDocument t _ _ => t
  | .remove t _ => t

/- The operation writes or removes the entity. -/
def Concerns
    {t : T}
    (op : Operation T)
    (e : EntityOf t) : Prop :=
  (∃ intent, op = .write intent t e) ∨ op = .remove t e

end Operation

namespace Repository

variable {repo : Repository T}
variable {scope : CallScope}
variable {before after : ResultRegistry}
variable {transcript : Transcript T K}
variable {t : T}

------------------------------------------------------------
-- Parts of a Request
------------------------------------------------------------

/-
  What is asked for. Saving replaces what has a token; else it
  inserts inside an attempt and upserts outside of any. A test
  for a document is a get inside an attempt.
-/
def KindFor
    (repo : Repository T)
    (attempt? : Option Attempt)
    (kind : RequestKind) : Operation T → Prop
  | .write .save _ e =>
      ∃ token, repo.mapping.tokenOf e = .ok token ∧
        kind =
          if token ≠ 0 then .replace
          else if attempt?.isSome then .insert
          else .upsert
  | .write .insert _ _ => kind = .insert
  | .write .upsert _ _ => kind = .upsert
  | .write .replace _ _ => kind = .replace
  | .find _ _ _ | .findAll _ _ _ => kind = .get
  | .exists _ _ =>
      kind = if attempt?.isSome then .get else .exists
  | .removeDocument _ _ _ | .remove _ _ => kind = .remove

/- Which document it is about. -/
def IdFor
    (repo : Repository T)
    (request : Request) : Operation T → Prop
  | .write _ _ e | .remove _ e =>
      repo.mapping.idOf e = some request.id
  | .find _ id _ | .exists _ id | .removeDocument _ id _ =>
      request.id = id
  | .findAll _ ids _ => request.id ∈ ids

/-
  The token that is shown: that of the entity when it replaces
  or is removed, the given one when a document is removed, and
  none otherwise.
-/
def TokenFor
    (repo : Repository T)
    (request : Request) : Operation T → Prop
  | .write _ _ e =>
      if request.kind = .replace then
        repo.mapping.tokenOf e = .ok request.cas
      else
        request.cas = 0
  | .remove _ e => repo.mapping.tokenOf e = .ok request.cas
  | .removeDocument _ _ cas => request.cas = cas
  | .find _ _ _ | .findAll _ _ _ | .exists _ _ =>
      request.cas = 0

/-
  The payload: on a write, that of the document that the
  entity was encoded to meanwhile.
-/
def PayloadFor
    (repo : Repository T)
    (scope : CallScope)
    (transcript : Transcript T K)
    (request : Request) : Operation T → Prop
  | .write _ t e =>
      ∃ d hooks document payload,
        repo.mapping.descriptor t = .ok d ∧
          hooks <:+: transcript ∧
          (repo.codec.encode e
              (chosenCollection repo.settings d
                scope).collection).Ends
            hooks (.ok document) ∧
          document.toPayload = .ok payload ∧
          request.payload? = some payload
  | _ => request.payload? = none

/- The entry of the registry under the positive key of an entity. -/
def registered?
    (repo : Repository T)
    (registry : ResultRegistry)
    (e : EntityOf t) : Option GetResult := do
  let d ← repo.mapping.descriptor? t
  let key ← d.keyOf e
  if 0 < key then registry.find? key else none

/-
  The transaction result that is shown, by replacements and
  removals of entities inside an attempt only.
-/
def EarlierFor
    (repo : Repository T)
    (registry : ResultRegistry)
    (attempt? : Option Attempt)
    (request : Request) : Operation T → Prop
  | .write _ _ e =>
      request.earlier? =
        if attempt?.isSome ∧ request.kind = .replace then
          repo.registered? registry e
        else
          none
  | .remove _ e =>
      request.earlier? =
        if attempt?.isSome then
          repo.registered? registry e
        else
          none
  | _ => request.earlier? = none

/- The options of a read. -/
def OptionsFor
    (request : Request) : Operation T → Prop
  | .find _ _ options | .findAll _ _ options =>
      request.find = options
  | _ => request.find = {}

/-
  The expiry of a write: the given one, else the declared one
  if it is positive, else the configured one.
-/
def ExpiryFor
    (repo : Repository T)
    (scope : CallScope)
    (request : Request) : Operation T → Prop
  | .write _ t _ =>
      ∃ d, repo.mapping.descriptor t = .ok d ∧
        request.expiry =
          match scope.expiry? with
          | some given => given
          | none =>
              if 0 < d.expiry then d.expiry
              else repo.settings.defaultExpiry
  | _ => request.expiry = 0

/- The durability, which matters to changes only. -/
def DurabilityFor
    (scope : CallScope)
    (request : Request) : Operation T → Prop
  | .write _ _ _ | .removeDocument _ _ _ | .remove _ _ =>
      request.durability = scope.durability
  | _ => request.durability = .none

------------------------------------------------------------
-- Well-Formed Requests
------------------------------------------------------------

/- Each part of the request is the one that is called for. -/
structure Composed
    (repo : Repository T)
    (scope : CallScope)
    (registry : ResultRegistry)
    (op : Operation T)
    (transcript : Transcript T K)
    (attempt? : Option Attempt)
    (request : Request) : Prop where
  kind : repo.KindFor attempt? request.kind op
  inAttempt :
    attempt?.isSome →
      request.kind ≠ .upsert ∧ request.kind ≠ .exists
  id : repo.IdFor request op
  token : repo.TokenFor request op
  payload : repo.PayloadFor scope transcript request op
  payload_iff :
    request.payload?.isSome ↔
      request.kind = .insert ∨ request.kind = .upsert ∨
        request.kind = .replace
  earlier : repo.EarlierFor registry attempt? request op
  options : OptionsFor request op
  expiry : repo.ExpiryFor scope request op
  durability : DurabilityFor scope request op

/-
  The request is handed over where the active attempt says,
  for the collection that the resolver answered with, and is
  composed as the operation calls for.
-/
structure WellFormed
    (repo : Repository T)
    (scope : CallScope)
    (registry : ResultRegistry)
    (op : Operation T)
    (transcript : Transcript T K)
    (attempt? : Option Attempt)
    (request : Request) : Prop extends
      Composed repo scope registry op transcript attempt?
        request where
  active : repo.IsActive scope transcript attempt?
  connected : repo.Connects attempt? = true
  collection :
    ∃ d, repo.mapping.descriptor op.type = .ok d ∧
      resolutions transcript =
        [(chosenCollection repo.settings d scope,
          .ok request.collection)]

/-
  At most one request is handed over, and a request that is
  handed over is well formed.
-/
def Disciplined
    (repo : Repository T)
    (scope : CallScope)
    (registry : ResultRegistry)
    (op : Operation T)
    (transcript : Transcript T K) : Prop :=
  submissions transcript = [] ∨
    ∃ attempt? request,
      submissions transcript = [(attempt?, request)] ∧
        repo.WellFormed scope registry op transcript attempt?
          request

/- The one request of a settled target is well formed. -/
theorem Target.SettledIn.disciplined
    (op : Operation T)
    {target : Target repo op.type scope}
    {opening submission closing : Transcript T K}
    {request : Request}
    {result : Result StoreRecord}
    (hSettled : target.SettledIn opening)
    (hSubmission :
      Submission repo request target.attempt? submission result)
    (hClosing : OnlyHooks closing)
    (hCollection : request.collection = target.resolved)
    (hComposed :
      repo.Composed scope before op
        (opening ++ submission ++ closing) target.attempt?
        (request.shownTo target.attempt?)) :
    repo.Disciplined scope before op
      (opening ++ submission ++ closing) := by
  have hSubmissions :
      submissions (opening ++ submission ++ closing) =
        submissions submission := by
    simp [hSettled.submissions_eq, hClosing.submissions_eq_nil]
  rcases hSubmission.submissions_eq with
    hNone | ⟨hOne, hConnects⟩
  · exact .inl (hSubmissions.trans hNone)
  · refine
      .inr ⟨_, _, hSubmissions.trans hOne,
        { hComposed with
          active := ?_
          connected := hConnects
          collection := ?_ }⟩
    · apply hSettled.active.of_eq
      simp [hSubmission.providedAttempts_eq_nil,
        hClosing.providedAttempts_eq_nil]
    · refine ⟨_, target.descriptor_eq, ?_⟩
      simp [hSettled.resolutions_eq,
        hSubmission.resolutions_eq_nil,
        hClosing.resolutions_eq_nil, Target.name,
        Request.shownTo, hCollection]

/- What is registered, in terms of the descriptor. -/
theorem registered?_eq
    {d : Descriptor (EntityTypes.schema t)}
    (hDescriptor : repo.mapping.descriptor t = .ok d)
    (registry : ResultRegistry)
    (e : EntityOf t) :
    repo.registered? registry e = earlierIn registry d e := by
  unfold registered? earlierIn
  rw [Mapping.descriptor_eq_ok_iff.mp hDescriptor]
  cases hKey : d.keyOf e with
  | none => simp [hKey]
  | some key => simp [hKey]

/- The kind of a write is the one that its intent calls for. -/
theorem kindFor_write
    {intent : WriteIntent}
    {e : EntityOf t}
    {token : UInt64}
    {attempt? : Option Attempt}
    {id collection : Text}
    {kind : RequestKind}
    (hToken : repo.mapping.tokenOf e = .ok token)
    (hKind :
      requestKind intent token attempt?.isSome id collection =
        .ok kind) :
    repo.KindFor attempt? kind (.write intent t e) ∧
      (attempt?.isSome → kind ≠ .upsert) := by
  cases intent with
  | save =>
      have hSave :
          kind =
            if token ≠ 0 then .replace
            else if attempt?.isSome then .insert
            else .upsert := by
        simp only [requestKind] at hKind
        split at hKind
        · cases hKind
          rw [if_pos ‹_›]
        · rw [if_neg ‹_›]
          split at hKind <;> cases hKind
          · rw [if_pos ‹_›]
          · rw [if_neg ‹_›]
      refine ⟨⟨token, hToken, hSave⟩, fun hSome => ?_⟩
      rw [hSave, if_pos hSome]
      split <;> simp
  | insert =>
      cases hKind
      simp [KindFor]
  | replace =>
      cases hKind
      simp [KindFor]
  | upsert =>
      simp only [requestKind] at hKind
      split at hKind
      · cases hKind
      · cases hKind
        exact ⟨rfl, fun hSome => absurd hSome ‹_›⟩

/- Writes are disciplined. -/
theorem write_disciplined
    {intent : WriteIntent}
    {e : EntityOf t}
    {outcome : Except Failure (EntityOf t)}
    (h :
      (repo.write intent e scope).Ends
        before transcript outcome after) :
    repo.Disciplined scope before (.write intent t e)
      transcript := by
  rcases ends_write h with
    hFails | ⟨d, submission, closing, result, rfl, hSubmission,
      hClosing⟩
  · exact .inl hFails.1
  · have hHooks : OnlyHooks closing :=
      Task.Hooked.bind (.ofResult _)
        (fun _ => finishWrite_hooked _ _ _ _) _ _ _ _ hClosing
    rcases kindFor_write d.token_eq d.kind_eq with
      ⟨hKind, hNoUpsert⟩
    have hKinds := requestKind_isWrite d.kind_eq
    have hExpiry : d.document.expiry = d.descriptor.expiry := by
      rcases Codec.ends_encode d.encodes with
        ⟨declared, _, hDeclared, hDocument, -⟩
      cases hDeclared.symm.trans d.descriptor_eq
      exact Codec.toDocument_expiry hDocument
    have hExists : d.kind ≠ .exists := by
      intro hExists
      rcases hKinds with hKind | hKind | hKind <;>
        cases hKind.symm.trans hExists
    have hToken :
        if d.kind = .replace then
          repo.mapping.tokenOf e =
            .ok (if d.kind = .replace then d.token else 0)
        else
          (if d.kind = .replace then d.token else 0) = 0 := by
      split
      · exact d.token_eq
      · rfl
    have hInfix :
        d.hooks <:+: d.opening ++ submission ++ closing :=
      ⟨d.asked ++ [⟨.resolve d.toTarget.name, .ok d.resolved⟩],
        submission ++ closing, by simp [WriteDispatch.opening]⟩
    have hEarlier :
        (if d.attempt?.isSome then
            if d.attempt?.isSome && d.kind = .replace then
              earlierIn before d.descriptor e
            else none
          else none) =
          if d.attempt?.isSome ∧ d.kind = .replace then
            repo.registered? before e
          else none := by
      rw [registered?_eq d.descriptor_eq]
      cases d.attempt? <;> simp
    have hExpiryFor :
        repo.ExpiryFor scope (d.plan before).request
          (.write intent t e) := by
      refine ⟨d.descriptor, d.descriptor_eq, ?_⟩
      show writeExpiry repo.settings scope d.document.expiry = _
      rw [hExpiry]
      rfl
    exact
      d.settled.disciplined (.write intent t e) hSubmission
        hHooks rfl
        { kind := hKind
          inAttempt := fun hSome => ⟨hNoUpsert hSome, hExists⟩
          id := d.id_eq
          token := hToken
          payload :=
            ⟨d.descriptor, d.hooks, d.document, d.payload,
              d.descriptor_eq, hInfix, d.encodes,
              d.payload_eq, rfl⟩
          payload_iff := ⟨fun _ => hKinds, fun _ => rfl⟩
          earlier := hEarlier
          options := rfl
          expiry := hExpiryFor
          durability := rfl }

/- Finding is disciplined. -/
theorem find_disciplined
    {id : Text}
    {options : ReadOptions}
    {outcome : Except Failure (Option (EntityOf t))}
    (h :
      (repo.find t id options scope).Ends
        before transcript outcome after) :
    repo.Disciplined scope before (.find t id options)
      transcript := by
  rcases ends_find h with
    hFails | ⟨target, opening, submission, closing, answer,
      rfl, hSettled, hSubmission, hClosing⟩
  · exact .inl hFails.1
  · have hHooks : OnlyHooks closing :=
      finishFind_hooked _ _ _ _ _ _ _ _ hClosing
    exact
      hSettled.disciplined (.find t id options) hSubmission
        hHooks rfl
        { kind := rfl
          inAttempt := fun _ => ⟨nofun, nofun⟩
          id := rfl
          token := rfl
          payload := rfl
          payload_iff := ⟨nofun, nofun⟩
          earlier := ite_self none
          options := rfl
          expiry := rfl
          durability := rfl }

/- Testing for a document is disciplined. -/
theorem isStored_disciplined
    {id : Text}
    {outcome : Except Failure Bool}
    (h :
      (repo.isStored t id scope).Ends
        before transcript outcome after) :
    repo.Disciplined scope before (.exists t id)
      transcript := by
  rcases ends_isStored h with
    hFails | ⟨target, opening, submission, closing, answer,
      rfl, hSettled, hSubmission, hClosing⟩
  · exact .inl hFails.1
  · have hHooks : OnlyHooks closing :=
      finishExists_hooked _ _ _ _ _ _ hClosing
    have hInAttempt :
        target.attempt?.isSome →
          (target.existsPlan id).request.kind ≠ .upsert ∧
            (target.existsPlan id).request.kind ≠ .exists := by
      intro hSome
      simp [Target.existsPlan, hSome]
    have hNoWrite :
        ¬ ((target.existsPlan id).request.kind = .insert ∨
          (target.existsPlan id).request.kind = .upsert ∨
          (target.existsPlan id).request.kind = .replace) := by
      unfold Target.existsPlan
      cases target.attempt?.isSome <;> simp
    exact
      hSettled.disciplined (.exists t id) hSubmission
        hHooks rfl
        { kind := rfl
          inAttempt := hInAttempt
          id := rfl
          token := rfl
          payload := rfl
          payload_iff := ⟨nofun, fun h => absurd h hNoWrite⟩
          earlier := ite_self none
          options := rfl
          expiry := rfl
          durability := rfl }

/- Removing a document is disciplined. -/
theorem removeDocument_disciplined
    {id : Text}
    {cas : UInt64}
    {outcome : Except Failure StoreRecord}
    (h :
      (repo.removeDocument t id cas scope).Ends
        before transcript outcome after) :
    repo.Disciplined scope before (.removeDocument t id cas)
      transcript := by
  rcases ends_removeDocument h with
    hFails | ⟨target, opening, submission, result, rfl,
      hSettled, hSubmission, -, -⟩
  · exact .inl hFails.1
  · rw [← List.append_nil (opening ++ submission)]
    exact
      hSettled.disciplined (.removeDocument t id cas) hSubmission
        .nil rfl
        { kind := rfl
          inAttempt := fun _ => ⟨nofun, nofun⟩
          id := rfl
          token := rfl
          payload := rfl
          payload_iff := ⟨nofun, nofun⟩
          earlier := ite_self none
          options := rfl
          expiry := rfl
          durability := rfl }

/- Removing an entity is disciplined. -/
theorem remove_disciplined
    {e : EntityOf t}
    {outcome : Except Failure StoreRecord}
    (h :
      (repo.remove e scope).Ends
        before transcript outcome after) :
    repo.Disciplined scope before (.remove t e)
      transcript := by
  rcases ends_remove h with
    hFails | ⟨target, id, token, opening, submission, result,
      rfl, hSettled, hId, hToken, hSubmission, -, -⟩
  · exact .inl hFails.1
  · have hEarlier :
        (if target.attempt?.isSome then
            earlierIn before target.descriptor e
          else none) =
          if target.attempt?.isSome then
            repo.registered? before e
          else none := by
      rw [registered?_eq target.descriptor_eq]
    rw [← List.append_nil (opening ++ submission)]
    exact
      hSettled.disciplined (.remove t e) hSubmission
        .nil rfl
        { kind := rfl
          inAttempt := fun _ => ⟨nofun, nofun⟩
          id := hId
          token := hToken
          payload := rfl
          payload_iff := ⟨nofun, nofun⟩
          earlier := hEarlier
          options := rfl
          expiry := rfl
          durability := rfl }

------------------------------------------------------------
-- All Operations
------------------------------------------------------------

/-
  Whatever the world answers, an operation on one document
  hands over at most one request, and a well-formed one.
-/
theorem perform_disciplined
    {op : Operation T}
    {outcome : Except Failure op.Outcome}
    (hSingle : op.IsSingle)
    (h :
      (repo.perform scope op).Ends
        before transcript outcome after) :
    repo.Disciplined scope before op transcript := by
  cases op with
  | write intent t e => exact write_disciplined h
  | find t id options => exact find_disciplined h
  | findAll t ids options => exact hSingle.elim
  | «exists» t id => exact isStored_disciplined h
  | removeDocument t id cas =>
      exact removeDocument_disciplined h
  | remove t e => exact remove_disciplined h

/- Saving Ann is one replacement, under her token. -/
theorem perform_disciplined_of_ann :
    let transcript :=
      Sample.scene.transcriptOf
        (Sample.scene.repository.perform {} Sample.annSave)
    (submissions transcript).map
        (fun x => (x.1, x.2.kind, x.2.cas)) =
      [(none, .replace, 7)] ∧
      Sample.scene.repository.Disciplined {} {} Sample.annSave
        transcript := by
  intro transcript
  have hSingle : Sample.annSave.IsSingle := trivial
  refine ⟨rfl, ?_⟩
  exact
    perform_disciplined hSingle
      (Session.ends_work Sample.scene _)

/- Finding a list is disciplined for each document. -/
theorem findAll_disciplined
    {ids : List Text}
    {options : ReadOptions}
    {outcome : Except Failure (List (EntityOf t))}
    (h :
      (repo.findAll t options scope ids).Ends
        before transcript outcome after) :
    ∃ runs : List (FindRun K repo t options scope),
      transcript = (runs.map (·.transcript)).flatten ∧
        runs.map (·.id) <+: ids ∧
        ∀ run ∈ runs,
          repo.Disciplined scope run.before
            (.find t run.id options) run.transcript := by
  rcases ends_findAll h with ⟨runs, hTranscript, hIds, -⟩
  exact
    ⟨runs, hTranscript, hIds,
      fun run _ => find_disciplined run.ends⟩

end Repository

end DocumentMapper
