import DocumentMapper.Proofs.Repository.Discipline
import DocumentMapper.Proofs.Repository.Setback

/-
  Entities without an identifier.

  A write or a removal is withheld where the entity has no
  identifier: a write asks nobody but the provider of attempts,
  a removal nobody at all, and nothing is kept. A member that
  is empty counts as no identifier; the getter of an
  application decides for itself, and an empty text that it
  gives is taken for an identifier. Only then the request that
  is handed over has an empty one.

  Key definitions include:
    * `Descriptor.LacksId`, `Descriptor.ShowsEmptyId`
    * `Repository.Withheld`

  Main statements include:
    * `Descriptor.idOf_eq_none_iff`
    * `Repository.withheld_of_none`
    * `Repository.resolves_of_some`
    * `Repository.unidentified_withheld`
-/

namespace DocumentMapper

------------------------------------------------------------
-- Identifiers
------------------------------------------------------------

namespace Descriptor

variable {S : Schema}
variable {d : Descriptor S}
variable {e : Entity S}

/-
  The entity has no identifier: none is declared, its member
  is empty, or the getter gives none.
-/
def LacksId
    (d : Descriptor S)
    (e : Entity S) : Prop :=
  match d.id? with
  | none => True
  | some (.member m) => e.get m = []
  | some (.custom get _) => get e = none

/- The getter of the application gives an empty identifier. -/
def ShowsEmptyId
    (d : Descriptor S)
    (e : Entity S) : Prop :=
  match d.id? with
  | some (.custom get _) => get e = some []
  | _ => False

/- However it is declared, an identifier that is lacking is none. -/
theorem idOf_eq_none_iff :
    d.idOf e = none ↔ d.LacksId e := by
  unfold idOf LacksId
  cases d.id? with
  | none => exact iff_of_true rfl trivial
  | some binding =>
      cases binding with
      | member m =>
          rw [Option.bind_some, IdBinding.get]
          by_cases hEmpty : e.get m = []
          · rw [if_pos hEmpty]
            exact iff_of_true rfl hEmpty
          · rw [if_neg hEmpty]
            exact iff_of_false nofun hEmpty
      | custom get set? => exact Iff.rfl

/- Only a getter of the application shows an empty identifier. -/
theorem idOf_eq_empty_iff :
    d.idOf e = some [] ↔ d.ShowsEmptyId e := by
  unfold idOf ShowsEmptyId
  cases d.id? with
  | none => exact iff_of_false nofun id
  | some binding =>
      cases binding with
      | member m =>
          rw [Option.bind_some, IdBinding.get]
          by_cases hEmpty : e.get m = []
          · rw [if_pos hEmpty]
            exact iff_of_false nofun id
          · rw [if_neg hEmpty, Option.some.injEq]
            exact iff_of_false hEmpty id
      | custom get set? => exact Iff.rfl

end Descriptor

------------------------------------------------------------
-- Withheld Operations
------------------------------------------------------------

variable {T : Type}
variable [EntityTypes T]
variable {K : Hooks T}
variable {t : T}

namespace Repository

variable {repo : Repository T}
variable {scope : CallScope}
variable {intent : WriteIntent}
variable {e : EntityOf t}
variable {d : Descriptor (EntityTypes.schema t)}
variable {before after : ResultRegistry}
variable {transcript : Transcript T K}

/-
  The operation is withheld: it keeps nothing and fails as an
  invalid argument. A removal asks nobody. A write asks nobody
  but the provider of attempts, and ends with the exception of
  the getter of tokens if that throws.
-/
structure Withheld
    (repo : Repository T)
    (e : EntityOf t)
    (op : Operation T)
    (before after : ResultRegistry)
    (transcript : Transcript T K)
    (outcome : Except Failure op.Outcome) : Prop where
  asked : OnlyProvider transcript
  silent : op = .remove t e → transcript = []
  kept : after = before
  fails :
    (∃ error : Error,
        outcome = .error (.error error) ∧
          error.code = .invalidArgument) ∨
      (∃ intent, op = .write intent t e) ∧
        ∃ what,
          repo.mapping.tokenOf e = .error what ∧
            outcome = .error (.thrown what)

/- Whatever a write is refused for, it is an invalid argument. -/
theorem code_of_requestKind_error
    {token : UInt64}
    {inAttempt : Bool}
    {id collection : Text}
    {cause : Error}
    (h :
      requestKind intent token inAttempt id collection =
        .error cause) :
    cause.code = .invalidArgument := by
  rcases requestKind_error_iff.mp h with ⟨-, -, rfl⟩
  rfl

/- A write without an identifier is withheld. -/
theorem write_withheld
    {outcome : Except Failure (EntityOf t)}
    (hDescriptor : repo.mapping.descriptor t = .ok d)
    (hId : repo.mapping.idOf e = none)
    (h :
      (repo.write intent e scope).Ends
        before transcript outcome after) :
    Withheld repo e (.write intent t e) before after transcript
      outcome := by
  unfold write at h
  cases ends_decision h with
  | unregistered hError =>
      rw [hDescriptor] at hError
      cases hError
  | unreadable _ hToken =>
      exact
        { asked := .inl rfl
          silent := nofun
          kept := rfl
          fails := .inr ⟨⟨intent, rfl⟩, _, hToken, rfl⟩ }
  | refused _ _ hProvider _ hKind =>
      have hCode := code_of_requestKind_error hKind
      exact
        { asked := hProvider
          silent := nofun
          kept := rfl
          fails := .inl ⟨_, rfl, hCode⟩ }
  | decided _ _ hProvider _ _ hRest =>
      rw [hId] at hRest
      rcases Task.ends_fail_iff.mp hRest with ⟨rfl, rfl, rfl⟩
      rw [List.append_nil]
      exact
        { asked := hProvider
          silent := nofun
          kept := rfl
          fails := .inl ⟨_, rfl, rfl⟩ }

/- So is a removal, which does not even ask the provider. -/
theorem remove_withheld
    {outcome : Except Failure StoreRecord}
    (hDescriptor : repo.mapping.descriptor t = .ok d)
    (hId : repo.mapping.idOf e = none)
    (h :
      (repo.remove e scope).Ends
        before transcript outcome after) :
    Withheld repo e (.remove t e) before after transcript
      outcome := by
  unfold remove at h
  rw [hDescriptor, hId] at h
  rcases Task.ends_ofResult_bind_iff.mp h with
    ⟨_, hError, -⟩ | ⟨_, -, h₁⟩
  · cases hError
  rcases Task.ends_fail_iff.mp h₁ with ⟨rfl, rfl, rfl⟩
  exact
    { asked := .inl rfl
      silent := fun _ => rfl
      kept := rfl
      fails := .inl ⟨noIdentifier .remove, rfl, rfl⟩ }

/- An operation on an entity without an identifier is withheld. -/
theorem withheld_of_none
    {op : Operation T}
    {outcome : Except Failure op.Outcome}
    (hDescriptor : repo.mapping.descriptor t = .ok d)
    (hConcerns : op.Concerns e)
    (hId : repo.mapping.idOf e = none)
    (h :
      (repo.perform scope op).Ends
        before transcript outcome after) :
    Withheld repo e op before after transcript outcome := by
  rcases hConcerns with ⟨intent, rfl⟩ | rfl
  · exact write_withheld hDescriptor hId h
  · exact remove_withheld hDescriptor hId h

------------------------------------------------------------
-- Operations That Go On
------------------------------------------------------------

/- The resolver is asked for the collection. -/
def Resolves
    (repo : Repository T)
    (d : Descriptor (EntityTypes.schema t))
    (scope : CallScope)
    (transcript : Transcript T K) : Prop :=
  ∃ reply : Reply CollectionName,
    ⟨.resolve (chosenCollection repo.settings d scope), reply⟩ ∈
      transcript

/- What reads a collection asks a connected resolver for it. -/
theorem resolves_of_bind
    {α : Type}
    {kind : RequestKind}
    {id : Text}
    {f : CollectionName → Task T K α}
    {outcome : Except Failure α}
    (hResolver : repo.wiring.resolver = true)
    (h :
      (repo.resolve (chosenCollection repo.settings d scope)
          kind id >>= f).Ends
        before transcript outcome after) :
    Resolves repo d scope transcript := by
  rcases Task.ends_bind_iff.mp h with
    ⟨_, hResolve, -⟩ | ⟨_, _, _, _, rfl, hResolve, -⟩
  · rcases ends_resolve hResolver hResolve with ⟨reply, rfl, -⟩
    exact ⟨reply, List.mem_singleton_self _⟩
  · rcases ends_resolve hResolver hResolve with ⟨reply, rfl, -⟩
    exact ⟨reply, List.mem_cons_self⟩

/- A write goes on unless it is an upsert inside an attempt. -/
theorem write_resolves
    {token : UInt64}
    {id : Text}
    {outcome : Except Failure (EntityOf t)}
    (hDescriptor : repo.mapping.descriptor t = .ok d)
    (hResolver : repo.wiring.resolver = true)
    (hToken : repo.mapping.tokenOf e = .ok token)
    (hId : repo.mapping.idOf e = some id)
    (h :
      (repo.write intent e scope).Ends
        before transcript outcome after) :
    Resolves repo d scope transcript ∨
      intent = .upsert ∧
        ∃ attempt,
          repo.IsActive scope transcript (some attempt) := by
  have hSame
      {other : Descriptor (EntityTypes.schema t)}
      (hOther : repo.mapping.descriptor t = .ok other) :
      d = other :=
    Except.ok.inj (hDescriptor.symm.trans hOther)
  rcases ends_write_cases h with
    ⟨failure, hSetback, -⟩ | ⟨dispatch, _, _, _, rfl, -⟩
  · cases hSetback with
    | unregistered hError =>
        rw [hDescriptor] at hError
        cases hError
    | unreadable hError =>
        rw [hToken] at hError
        cases hError
    | refused _ _ hActive hKind =>
        rcases requestKind_error_iff.mp hKind with
          ⟨hUpsert, hInside, -⟩
        rcases Option.isSome_iff_exists.mp hInside with
          ⟨attempt, rfl⟩
        exact .inr ⟨hUpsert, attempt, hActive⟩
    | unidentified _ hNone =>
        rw [hId] at hNone
        cases hNone
    | unconnected _ hMissing =>
        rw [hResolver] at hMissing
        cases hMissing
    | unresolved hOther =>
        cases hSame hOther
        exact
          .inl ⟨_, List.mem_append_right _ List.mem_cons_self⟩
    | unencoded hOther =>
        cases hSame hOther
        exact
          .inl ⟨_, List.mem_append_right _ List.mem_cons_self⟩
    | unprintable hOther =>
        cases hSame hOther
        exact
          .inl ⟨_, List.mem_append_right _ List.mem_cons_self⟩
  · cases hSame dispatch.descriptor_eq
    have hAsked :
        ⟨.resolve dispatch.toTarget.name, .ok dispatch.resolved⟩ ∈
          dispatch.opening :=
      List.mem_append_right _ List.mem_cons_self
    exact .inl ⟨_, List.mem_append_left _ hAsked⟩

/- A removal goes on. -/
theorem remove_resolves
    {token : UInt64}
    {id : Text}
    {outcome : Except Failure StoreRecord}
    (hDescriptor : repo.mapping.descriptor t = .ok d)
    (hResolver : repo.wiring.resolver = true)
    (hToken : repo.mapping.tokenOf e = .ok token)
    (hId : repo.mapping.idOf e = some id)
    (h :
      (repo.remove e scope).Ends
        before transcript outcome after) :
    Resolves repo d scope transcript := by
  unfold remove at h
  rw [hDescriptor, hId, hToken] at h
  rcases Task.ends_ofResult_bind_iff.mp h with
    ⟨_, hError, -⟩ | ⟨_, hOk, h₁⟩
  · cases hError
  cases hOk
  rcases Task.ends_bind_iff.mp h₁ with
    ⟨_, hEarlier, -⟩ | ⟨_, _, _, _, rfl, hEarlier, h₂⟩
  · cases (ends_earlierResult hEarlier).2.1
  rcases ends_earlierResult hEarlier with ⟨rfl, -, rfl⟩
  rcases Task.ends_ofAccessor_bind_iff.mp h₂ with
    ⟨_, hError, -⟩ | ⟨_, -, h₃⟩
  · cases hError
  unfold submitRemoval at h₃
  exact resolves_of_bind hResolver h₃

/- An operation on an entity with an identifier goes on. -/
theorem resolves_of_some
    {op : Operation T}
    {token : UInt64}
    {id : Text}
    {outcome : Except Failure op.Outcome}
    (hDescriptor : repo.mapping.descriptor t = .ok d)
    (hResolver : repo.wiring.resolver = true)
    (hConcerns : op.Concerns e)
    (hToken : repo.mapping.tokenOf e = .ok token)
    (hId : repo.mapping.idOf e = some id)
    (h :
      (repo.perform scope op).Ends
        before transcript outcome after) :
    Resolves repo d scope transcript ∨
      op = .write .upsert t e ∧
        ∃ attempt,
          repo.IsActive scope transcript (some attempt) := by
  rcases hConcerns with ⟨intent, rfl⟩ | rfl
  · rcases write_resolves hDescriptor hResolver hToken hId h with
      hResolves | ⟨rfl, hInside⟩
    · exact .inl hResolves
    · exact .inr ⟨rfl, hInside⟩
  · exact
      .inl (remove_resolves hDescriptor hResolver hToken hId h)

/- A request for an entity is about its identifier. -/
theorem idOf_eq_of_submitted
    {op : Operation T}
    {attempt? : Option Attempt}
    {request : Request}
    {outcome : Except Failure op.Outcome}
    (hConcerns : op.Concerns e)
    (h :
      (repo.perform scope op).Ends
        before transcript outcome after)
    (hSubmitted :
      (attempt?, request) ∈ submissions transcript) :
    repo.mapping.idOf e = some request.id := by
  have hSingle : op.IsSingle := by
    rcases hConcerns with ⟨intent, rfl⟩ | rfl <;> trivial
  rcases perform_disciplined hSingle h with
    hNone | ⟨_, _, hOne, hFormed⟩
  · rw [hNone] at hSubmitted
    cases hSubmitted
  · rw [hOne, List.mem_singleton] at hSubmitted
    cases hSubmitted
    have hIdFor := hFormed.id
    rcases hConcerns with ⟨intent, rfl⟩ | rfl
    · exact hIdFor
    · exact hIdFor

/-
  An operation on an entity that lacks an identifier is
  withheld. One that shows an empty identifier by a getter of
  the application goes on instead, and its request has an
  empty identifier; no other request has.
-/
theorem unidentified_withheld
    {op : Operation T}
    {outcome : Except Failure op.Outcome}
    (hDescriptor : repo.mapping.descriptor t = .ok d)
    (hConcerns : op.Concerns e)
    (h :
      (repo.perform scope op).Ends
        before transcript outcome after) :
    (d.LacksId e →
        Withheld repo e op before after transcript outcome) ∧
      (∀ attempt? request,
        (attempt?, request) ∈ submissions transcript →
          (request.id = [] ↔ d.ShowsEmptyId e)) ∧
      ∀ token,
        d.ShowsEmptyId e →
          repo.mapping.tokenOf e = .ok token →
            repo.wiring.resolver = true →
              Resolves repo d scope transcript ∨
                op = .write .upsert t e ∧
                  ∃ attempt,
                    repo.IsActive scope transcript
                      (some attempt) := by
  have hIds := Mapping.idOf_eq hDescriptor e
  constructor
  · intro hLacks
    have hNone : repo.mapping.idOf e = none :=
      hIds.trans (Descriptor.idOf_eq_none_iff.mpr hLacks)
    exact withheld_of_none hDescriptor hConcerns hNone h
  constructor
  · intro attempt? request hSubmitted
    have hId := idOf_eq_of_submitted hConcerns h hSubmitted
    rw [← Descriptor.idOf_eq_empty_iff, ← hIds, hId,
      Option.some.injEq]
  · intro token hShows hToken hResolver
    have hEmpty : repo.mapping.idOf e = some [] :=
      hIds.trans (Descriptor.idOf_eq_empty_iff.mpr hShows)
    exact
      resolves_of_some hDescriptor hResolver hConcerns hToken
        hEmpty h

/- An account without an identifier is saved under the empty one. -/
theorem unidentified_withheld_of_account :
    let account : EntityOf Sample.EntityType.account :=
      Entity.initial Sample.accountSchema
    let transcript :=
      Sample.scene.transcriptOf
        (Sample.scene.repository.perform {}
          (.write .save .account account))
    (submissions transcript).map (fun x => x.2.id) = [[]] ∧
      (Sample.Declaration.usual .account).descriptor.ShowsEmptyId
        account := by
  intro account transcript
  have hOne :
      (submissions transcript).map (fun x => x.2.id) =
        [[]] := by
    decide +kernel
  have hDescriptor :
      Sample.scene.repository.mapping.descriptor
          Sample.EntityType.account =
        .ok (Sample.Declaration.usual .account).descriptor :=
    rfl
  have hConcerns :
      Operation.Concerns (.write .save .account account)
        account :=
    .inl ⟨.save, rfl⟩
  rcases unidentified_withheld hDescriptor hConcerns
      (Session.ends_work Sample.scene _) with
    ⟨-, hRequests, -⟩
  have hMem : [] ∈ (submissions transcript).map (·.2.id) := by
    rw [hOne]
    exact List.mem_singleton_self []
  rcases List.mem_map.mp hMem with
    ⟨⟨attempt?, request⟩, hSubmitted, hEmpty⟩
  exact
    ⟨hOne, (hRequests attempt? request hSubmitted).mp hEmpty⟩

end Repository

end DocumentMapper
