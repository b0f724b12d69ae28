import DocumentMapper.Proofs.Repository.Forwarding
import DocumentMapper.Proofs.Transaction.Log

/-
  Finding a result again by the key of its entity.

  An entity comes back with a transaction result when an answer
  is taken over into it, or when it is decoded from a payload.
  The result is kept, and the entity is given the key. If the
  member has room for this key, then the entity leads to the
  result, until somebody drops the key or the attempt. Members
  of 64 bits have room for all keys.

  Key definitions include:
    * `Repository.ComesBack`
    * `Sample.manyVisits`

  Main statements include:
    * `Repository.ends_earlierResult_iff`
    * `Repository.ComesBack.kept`
    * `Repository.exists_decoded`
    * `Repository.result_retrieved`
-/

namespace DocumentMapper

variable {T : Type}
variable [EntityTypes T]
variable {K : Hooks T}

------------------------------------------------------------
-- A Long Past
------------------------------------------------------------

/- One result is kept as often as that. -/
def Sample.manyVisits
    (n : Nat) : List RegistryCall :=
  List.replicate n (.save (some (leftBy "T2" "p2")))

/- As many keys are issued then. -/
theorem ResultRegistry.nextKey_manyVisits
    (n : Nat) :
    (callAll {} (Sample.manyVisits n)).nextKey = .ofNat (1 + n) := by
  have hStart : ({} : ResultRegistry).nextKey = .ofNat 1 := rfl
  have hCount :
      (Sample.manyVisits n).filterMap RegistryCall.saved? =
        List.replicate n (some (Sample.leftBy "T2" "p2")) := by
    unfold Sample.manyVisits
    rw [List.filterMap_replicate]
    rfl
  rw [nextKey_callAll hStart, length_issues, hCount,
    List.length_replicate]

/- The first one leads to the result from then on. -/
theorem ResultRegistry.find?_manyVisits
    {n : Nat}
    (hPos : 0 < n) :
    (callAll {} (Sample.manyVisits n)).find? 1 =
      some (Sample.leftBy "T2" "p2") := by
  rcases Nat.exists_eq_succ_of_ne_zero hPos.ne' with ⟨m, rfl⟩
  unfold Sample.manyVisits
  rw [List.replicate_succ, callAll_cons]
  refine find?_callAll rfl ?_
  intro c hMem
  rw [List.eq_of_mem_replicate hMem]
  exact trivial

namespace Repository

variable {t : T}
variable {d : Descriptor (EntityTypes.schema t)}
variable {mapping : Mapping T}
variable {result : GetResult}
variable {task : Task T K (EntityOf t)}
variable {before after : ResultRegistry}
variable {transcript : Transcript T K}

------------------------------------------------------------
-- Looking Up
------------------------------------------------------------

/- Looking up a result always ends, with what the registry has. -/
theorem ends_earlierResult_iff
    {S : Schema}
    {descriptor : Descriptor S}
    {e : Entity S}
    {outcome : Except Failure (Option GetResult)} :
    (earlierResult descriptor e :
        Task T K (Option GetResult)).Ends
        before transcript outcome after ↔
      transcript = [] ∧
        outcome = .ok (earlierIn before descriptor e) ∧
        after = before := by
  refine ⟨ends_earlierResult, ?_⟩
  rintro ⟨rfl, rfl, rfl⟩
  unfold earlierResult earlierIn
  cases descriptor.keyOf e with
  | none => exact Task.ends_pure_iff.mpr ⟨rfl, rfl, rfl⟩
  | some key =>
      dsimp only
      split
      · refine Task.ends_bind_iff.mpr (.inr ?_)
        exact
          ⟨[], _, _, [], rfl,
            Task.ends_registry_iff.mpr ⟨rfl, rfl, rfl⟩,
            Task.ends_pure_iff.mpr ⟨rfl, rfl, rfl⟩⟩
      · exact Task.ends_pure_iff.mpr ⟨rfl, rfl, rfl⟩

------------------------------------------------------------
-- Coming Back
------------------------------------------------------------

/-
  The task brings an entity back with a transaction result: it
  takes an answer over, or it decodes a payload.
-/
inductive ComesBack
    (mapping : Mapping T)
    (result : GetResult) :
    Task T K (EntityOf t) → Prop where
  | taken
      {w : Writeback T}
      {e : EntityOf t}
      {document : Document}
      {id : Text}
      {cas : UInt64}
      {collection : Text}
      (hMapping : w.mapping = mapping)
      (hRegistry : w.hasRegistry = true) :
      ComesBack mapping result
        (w.apply e document id cas (some result) collection)
  | decoded
      {repo : Repository T}
      {id payload : Text}
      {cas : UInt64}
      (hMapping : repo.mapping = mapping) :
      ComesBack mapping result
        (repo.decodeKeeping t id payload cas (some result))

/- The result is kept, and the entity is given the key. -/
theorem ComesBack.kept
    {e : EntityOf t}
    (h : ComesBack mapping result task)
    (hDescriptor : mapping.descriptor t = .ok d)
    (hEnds : task.Ends before transcript (.ok e) after) :
    ∃ bare,
      e = Writeback.kept d bare before (some result) ∧
        after = before.keepAll [result] := by
  cases h with
  | @taken w given document id cas collection hMapping
      hRegistry =>
      have hShown :
          some result =
            if w.hasRegistry then some result else none := by
        rw [hRegistry]
        rfl
      rcases Writeback.ends_apply_cases hShown hEnds with
        ⟨-, -, error, hError⟩ |
          ⟨own, written, saved, r, hOwn, -, hSaved, -, hOutcome,
            hKept⟩
      · cases hError
      · rw [hMapping] at hOwn
        cases hOwn.symm.trans hDescriptor
        cases r with
        | error cause => cases hOutcome
        | ok value =>
            cases hOutcome
            exact ⟨written, hSaved, hKept⟩
  | decoded hMapping =>
      unfold decodeKeeping at hEnds
      rcases Task.ends_ofResult_bind_iff.mp hEnds with
        ⟨cause, -, -, hError, -⟩ | ⟨decoded, -, hRest⟩
      · cases hError
      rw [hMapping, hDescriptor] at hRest
      rcases Task.ends_ofResult_bind_iff.mp hRest with
        ⟨cause, -, -, hError, -⟩ | ⟨own, hOwn, hKeep⟩
      · cases hError
      cases hOwn
      rcases Writeback.ends_keep_iff.mp hKeep with
        ⟨-, hSame, hKept⟩
      cases hSame
      exact ⟨decoded, rfl, hKept⟩

/-
  A payload that can be read comes back with its result, and
  with what the member holds of the key.
-/
theorem exists_decoded
    {repo : Repository T}
    {id payload : Text}
    {cas : UInt64}
    (bare : EntityOf t)
    (b : KeyBinding (EntityTypes.schema t))
    (hDescriptor : repo.mapping.descriptor t = .ok d)
    (hKey : d.key? = some b)
    (hDecoded : repo.codec.decode t id payload cas = .ok bare)
    (before : ResultRegistry)
    (result : GetResult) :
    ∃ e,
      (repo.decodeKeeping t id payload cas (some result) :
          Task T K (EntityOf t)).Ends
        before [] (.ok e) (before.keepAll [result]) ∧
      d.keyOf e = b.type.key (b.type.ofKey before.nextKey) := by
  refine
    ⟨Writeback.kept d bare before (some result), ?_,
      Descriptor.keyOf_withKey hKey bare before.nextKey⟩
  unfold decodeKeeping
  refine Task.ends_ofResult_bind_iff.mpr (.inr ⟨bare, hDecoded, ?_⟩)
  refine Task.ends_ofResult_bind_iff.mpr (.inr ⟨d, hDescriptor, ?_⟩)
  exact Writeback.ends_keep_iff.mpr ⟨rfl, rfl, rfl⟩

------------------------------------------------------------
-- Retrieving
------------------------------------------------------------

/-
  Fewer than 2^63 results are kept, the last one for an entity
  that comes back. If its member has room for the key that is
  issued, as a member of 64 bits always has, then the entity
  has this new key. Whatever is kept or dropped from then on,
  as long as neither the key nor the attempt is dropped,
  looking the result up for the entity yields it, and it is
  shown to the executor.
-/
theorem result_retrieved
    {past : List RegistryCall}
    {e : EntityOf t}
    (hDescriptor : mapping.descriptor t = .ok d)
    (hComesBack : ComesBack mapping result task)
    (hFew :
      (past.filterMap RegistryCall.saved?).length + 1 < 2 ^ 63)
    (hEnds :
      task.Ends (.callAll {} past) transcript (.ok e) after) :
    let key := (ResultRegistry.callAll {} past).nextKey
    (d.HasWideKey → d.HasRoom key) ∧
      (d.HasRoom key →
        KeptUnder past d e result after key ∧
          (∀ calls,
            (∀ c ∈ calls, c.Spares key result.attempt) →
              ∀ {asked outcome last},
                (earlierResult d e :
                    Task T K (Option GetResult)).Ends
                    (after.callAll calls) asked outcome last ↔
                  asked = [] ∧ outcome = .ok (some result) ∧
                    last = after.callAll calls) ∧
          Forwards K d result key after) := by
  intro key
  refine ⟨fun hWide => hWide.hasRoom key, ?_⟩
  intro hRoom
  rcases hComesBack.kept hDescriptor hEnds with
    ⟨bare, hEntity, hAfter⟩
  rw [← ResultRegistry.length_issues (r := {})] at hFew
  rcases keptUnder_nextKey hRoom rfl rfl hFew hEntity hAfter with
    ⟨hKept, hFind⟩
  refine ⟨hKept, ?_, forwards_of_find? hKept.pos hFind⟩
  intro calls hSpares asked outcome last
  have hEarlier :
      earlierIn (after.callAll calls) d e = some result := by
    unfold earlierIn
    rw [hKept.keyOf_eq]
    dsimp only
    rw [if_pos hKept.pos]
    exact ResultRegistry.find?_callAll hFind hSpares
  rw [ends_earlierResult_iff, hEarlier]

/-
  An entity whose key has a member of 32 bits is decoded after
  four results were kept, some of which were dropped. The key 5
  leads back to its result, also when another attempt and
  another key are dropped.
-/
theorem result_retrieved_of_wide :
    let d := (Sample.Declaration.usual .wide).descriptor
    let result := Sample.leftBy "T3" "w1"
    let s : Session Sample.EntityType :=
      { Sample.scene with registry := .callAll {} Sample.visits }
    let decode : Task _ (scriptedHooks _) _ :=
      s.repository.decodeKeeping .wide (Text.lit "w1")
        (Text.lit "\x7b\x7d") 7 (some result)
    let after := (s.work decode).2.registry
    let dropped : List RegistryCall :=
      [.eraseOfAttempt (Text.lit "T2"), .erase 3]
    ∃ e,
      (s.work decode).1 = .ok e ∧ d.HasRoom 5 ∧
        KeptUnder Sample.visits d e result after 5 ∧
        (earlierResult d e :
            Task _ (scriptedHooks Sample.EntityType) _).Ends
          (after.callAll dropped) [] (.ok (some result))
          (after.callAll dropped) := by
  intro d result s decode after dropped
  have hDescriptor :
      s.mapping.descriptor Sample.EntityType.wide = .ok d :=
    rfl
  have hComesBack : ComesBack s.mapping result decode :=
    .decoded rfl
  have hFew :
      (Sample.visits.filterMap RegistryCall.saved?).length + 1 <
        2 ^ 63 := by
    decide
  let e : EntityOf Sample.EntityType.wide :=
    (s.work decode).1.toOption.getD (Entity.initial _)
  have hOk : (s.work decode).1 = .ok e := rfl
  have hEnds := Session.ends_work s decode
  rw [hOk] at hEnds
  have hRoom : d.HasRoom 5 := ⟨_, rfl, by decide⟩
  have hSpares :
      ∀ c ∈ dropped, c.Spares 5 result.attempt := by
    refine
      List.forall_mem_cons.mpr
        ⟨?_, List.forall_mem_singleton.mpr ?_⟩
    · show Text.lit "T2" ≠ Text.lit "T3"
      decide
    · show (3 : Int64) ≠ 5
      decide
  rcases (result_retrieved hDescriptor hComesBack hFew hEnds).2
      hRoom with
    ⟨hKept, hLookup, -⟩
  exact
    ⟨e, hOk, hRoom, hKept,
      (hLookup dropped hSpares).mpr ⟨rfl, rfl, rfl⟩⟩

/-
  The key of Ann leads to her result, until her attempt is
  dropped: then nothing is shown when she is replaced. After
  2^63 - 1 results there are no positive keys left. From a
  member of 32 bits the key 2^31 is read back as a negative
  number, which leads nowhere, and the key 2^32 + 1 as the key
  of another result.
-/
theorem results_not_always_retrieved :
    let find : Task _ (scriptedHooks _) _ :=
      Sample.annStored.repository.perform
        (Sample.inAttempt "T1")
        (.find .person (Text.lit "p1") {})
    let later : Session Sample.EntityType :=
      (Sample.annStored.work find).2
    let dropped : Session Sample.EntityType :=
      { later with
        registry :=
          (later.registry.eraseOfAttempt (Text.lit "T1")).2 }
    let person :
        Descriptor (EntityTypes.schema Sample.EntityType.person) :=
      (Sample.Declaration.usual .person).descriptor
    let wide :
        Descriptor (EntityTypes.schema Sample.EntityType.wide) :=
      (Sample.Declaration.usual .wide).descriptor
    let result := Sample.leftBy "T3" "w1"
    let decode (t : Sample.EntityType) :
        Task Sample.EntityType (scriptedHooks _) (EntityOf t) :=
      Sample.scene.repository.decodeKeeping t (Text.lit "w1")
        (Text.lit "\x7b\x7d") 7 (some result)
    (∃ (ann : EntityOf Sample.EntityType.person)
        (own : GetResult),
      (Sample.annStored.work find).1 = .ok (some ann) ∧
        person.keyOf ann = some 1 ∧
        earlierIn later.registry person ann = some own ∧
        let replace : Task _ (scriptedHooks _) _ :=
          dropped.repository.perform (Sample.inAttempt "T1")
            (.write .replace .person ann)
        (submissions (dropped.transcriptOf replace)).map
            (fun x => (x.2.kind, x.2.earlier?)) =
          [(.replace, none)]) ∧
      (∃ e after,
        (decode .person).Ends
            (.callAll {} (Sample.manyVisits (2 ^ 63 - 1)))
            [] (.ok e) after ∧
          person.keyOf e = some .minValue ∧
          earlierIn after person e = none) ∧
      (∃ e after,
        (decode .wide).Ends
            (.callAll {} (Sample.manyVisits (2 ^ 31 - 1)))
            [] (.ok e) after ∧
          wide.keyOf e = some (-2147483648) ∧
          earlierIn after wide e = none) ∧
      ∃ e after,
        (decode .wide).Ends
            (.callAll {} (Sample.manyVisits (2 ^ 32)))
            [] (.ok e) after ∧
          wide.keyOf e = some 1 ∧
          earlierIn after wide e =
            some (Sample.leftBy "T2" "p2") := by
  intro find later dropped person wide result decode
  let read (t : Sample.EntityType) : EntityOf t :=
    (Sample.scene.repository.codec.decode t (Text.lit "w1")
      (Text.lit "\x7b\x7d") 7).toOption.getD (Entity.initial _)
  have hPerson
      (before : ResultRegistry) :
      ∃ e,
        (decode .person).Ends before [] (.ok e)
            (before.keepAll [result]) ∧
          person.keyOf e = some before.nextKey :=
    exists_decoded (read .person)
      ⟨.optionalInt64, ⟨⟨3, by decide⟩, rfl⟩⟩ rfl rfl rfl before
      result
  have hWide
      (before : ResultRegistry) :
      ∃ e,
        (decode .wide).Ends before [] (.ok e)
            (before.keepAll [result]) ∧
          wide.keyOf e = some before.nextKey.toInt32.toInt64 :=
    exists_decoded (read .wide)
      ⟨.int32, ⟨⟨2, by decide⟩, rfl⟩⟩ rfl rfl rfl before result
  refine ⟨?_, ?_, ?_, ?_⟩
  · let ann : EntityOf Sample.EntityType.person :=
      (Sample.annStored.work find).1.toOption.join.getD Sample.ann
    refine ⟨ann, _, rfl, rfl, rfl, ?_⟩
    decide +kernel
  · rcases hPerson
        (.callAll {} (Sample.manyVisits (2 ^ 63 - 1))) with
      ⟨e, hEnds, hKey⟩
    rw [ResultRegistry.nextKey_manyVisits] at hKey
    refine ⟨e, _, hEnds, hKey, ?_⟩
    unfold earlierIn
    rw [hKey]
    rfl
  · rcases hWide
        (.callAll {} (Sample.manyVisits (2 ^ 31 - 1))) with
      ⟨e, hEnds, hKey⟩
    rw [ResultRegistry.nextKey_manyVisits] at hKey
    refine ⟨e, _, hEnds, hKey, ?_⟩
    unfold earlierIn
    rw [hKey]
    rfl
  · rcases hWide
        (.callAll {} (Sample.manyVisits (2 ^ 32))) with
      ⟨e, hEnds, hKey⟩
    rw [ResultRegistry.nextKey_manyVisits] at hKey
    refine ⟨e, _, hEnds, hKey, ?_⟩
    have hFirst :=
      ResultRegistry.find?_manyVisits (n := 2 ^ 32) (by decide)
    have hSpares :
        ∀ c ∈ [RegistryCall.save (some result)],
          c.Spares 1 (Sample.leftBy "T2" "p2").attempt :=
      List.forall_mem_singleton.mpr trivial
    unfold earlierIn
    rw [hKey]
    exact ResultRegistry.find?_callAll hFirst hSpares

end Repository

end DocumentMapper
